import Submarine.Proofs.Manifest.Wiring
import Submarine.Proofs.Passes.Walking

namespace Submarine

variable {root : Root}

inductive MadeFor (root : Root) (before : List AnyChild) (c : AnyChild) (x : Exchange) :
    List Exchange → Prop where
  | intro {earlier calls later : List Exchange} {settled : List Settlement}
      {result : Except Failure (Object c.kind)} (converged : Walk root before earlier (.ok settled))
      (visit : Visit root c.child calls result) (mem : x ∈ calls) :
      MadeFor root before c x (earlier ++ calls ++ later)

namespace MadeFor

variable {before : List AnyChild} {c d : AnyChild} {x : Exchange} {calls later : List Exchange}

theorem append (h : MadeFor root before c x calls) (later : List Exchange) :
    MadeFor root before c x (calls ++ later) := by
  obtain ⟨converged, visit, mem⟩ := h
  rw [List.append_assoc]
  exact intro converged visit mem

theorem after {o : Object d.kind} (visit : Visit root d.child calls (.ok o))
    (h : MadeFor root before c x later) : MadeFor root (d :: before) c x (calls ++ later) := by
  obtain ⟨converged, last, mem⟩ := h
  rw [List.append_assoc, ← List.append_assoc, ← List.append_assoc]
  exact intro (.goesOn visit converged) last mem

end MadeFor

theorem Walk.madeFor {todo : List AnyChild} {calls : List Exchange}
    {result : Except Failure (List Settlement)} {x : Exchange} (h : Walk root todo calls result)
    (hx : x ∈ calls) : ∃ before c later, todo = before ++ c :: later ∧
      MadeFor root before c x calls := by
  induction h with
  | arrived => contradiction
  | @stops c todo calls f visit =>
    refine ⟨[], c, todo, rfl, ?_⟩
    have hmade : MadeFor root [] c x ([] ++ calls ++ []) := .intro arrived visit hx
    simpa using hmade
  | @goesOn c todo calls later o result visit rest ih =>
    rcases List.mem_append.1 hx with hx | hx
    · exact ⟨[], c, todo, rfl, .intro arrived visit hx⟩
    · obtain ⟨before, d, last, rfl, hmade⟩ := ih hx
      exact ⟨c :: before, d, last, rfl, hmade.after visit⟩

theorem FollowsPlan.madeFor {asked : List Exchange} {result : Except Failure Unit} {x : Exchange}
    (h : FollowsPlan root asked result) (hx : x ∈ callsOf asked)
    (hchild : x.isStatusWrite = false) : ∃ before c later, plan root = before ++ c :: later ∧
      MadeFor root before c x (callsOf asked) := by
  cases h with
  | cutShort walk => exact walk.madeFor hx
  | through calls_eq walk _ _ _ report =>
    rw [calls_eq] at hx ⊢
    rcases List.mem_append.1 hx with hx | hx
    · obtain ⟨before, c, later, hplan, hmade⟩ := walk.madeFor hx
      exact ⟨before, c, later, hplan, hmade.append _⟩
    · cases report with
      | same => contradiction
      | new =>
        obtain rfl := List.mem_singleton.1 hx
        contradiction

/-- The declared children are told apart, fit together and leave no reference open; and each call
that a pass makes for one of them comes after all that it refers to has been converged. -/
theorem Plan.self_contained_in_order (root : Root) : SelfContained root ∧
    ∀ asked result, Pass.Trace (reconcileRoot root) asked result →
      ∀ x ∈ callsOf asked, x.isStatusWrite = false →
        ∃ before c later, plan root = before ++ c :: later ∧
          MadeFor root before c x (callsOf asked) ∧
          ∀ r ∈ c.references root, Resolved root before r := by
  refine ⟨self_contained root, ?_⟩
  intro asked result htrace x hx hchild
  obtain ⟨before, c, later, hplan, hmade⟩ := (FollowsPlan.of_trace htrace).madeFor hx hchild
  exact ⟨before, c, later, hplan, hmade, (self_contained root).precedes before c later hplan⟩

/-- The sample, in a pass that creates the account and is refused the change of the deployment. -/
theorem Plan.self_contained_in_order_of_contested : ∃ asked result,
    Pass.Trace (reconcileRoot Root.sample) asked result ∧
      ∃ x ∈ callsOf asked, x.1.isWrite ∧ ∃ before c later,
        plan Root.sample = before ++ c :: later ∧
          MadeFor Root.sample before c x (callsOf asked) ∧
          ∀ r ∈ c.references Root.sample, Resolved Root.sample before r := by
  let asked := ((reconcileRoot Root.sample).consult (contestedClient Root.sample)).1
  have htrace := Pass.trace_consult (contestedClient Root.sample) (reconcileRoot Root.sample)
  have hwrites : (callsOf asked).any fun x ↦ x.1.isWrite ∧ x.isStatusWrite = false := by
    decide +kernel
  obtain ⟨x, hx, hwrite⟩ := List.any_eq_true.1 hwrites
  obtain ⟨hwrite, hchild⟩ := of_decide_eq_true hwrite
  exact ⟨asked, _, htrace, x, hx, hwrite,
    (self_contained_in_order Root.sample).2 asked _ htrace x hx hchild⟩

end Submarine
