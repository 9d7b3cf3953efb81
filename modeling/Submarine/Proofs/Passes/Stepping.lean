import Submarine.Proofs.Passes.Errand
import Submarine.Proofs.Passes.Gentle
import Submarine.Proofs.Passes.Settling

namespace Submarine

open Cluster (Proper Gentle Stamped)

variable {k : Kind} {α : Type} {w w' : World} {p : Place} {root : Root} {children : List AnyChild}
  {seen : Option Sight}

namespace World

theorem roots_serve (w : World) (r : Request) : (w.serve r).2.roots = w.roots := by
  unfold serve
  split
  · rfl
  · cases r <;> rfl

theorem roots_step (w : World) (q : Pass α) : (w.step q).2.roots = w.roots := by
  cases q with
  | done | fail => rfl
  | ask r next => rw [step_ask, roots_serve]

/-- A pass goes on with the answer, or it breaks off. -/
theorem step_ask_cases (w : World) (r : Request) (next : r.Answer → Pass α) :
    (∃ answer w', w.serve r = (some answer, w') ∧ w.step (.ask r next) = (next answer, w')) ∨
      ∃ w', w.serve r = (none, w') ∧ w.step (.ask r next) = (.fail (.ofCrash none), w') := by
  rcases hserve : w.serve r with ⟨_ | answer, w'⟩
  · refine .inr ⟨w', rfl, ?_⟩
    rw [step, hserve]
  · refine .inl ⟨answer, w', rfl, ?_⟩
    rw [step, hserve]

end World

def afterLookup : Option Root → Pass Unit
  | none => .done ()
  | some root =>
    if root.metadata.deletionTimestamp.isSome then .done ()
    else match root.spec.validate with
      | .error fault =>
        .ask (.publish (.invalidSpec root fault.toFailure.message)) fun _ ↦ .fail fault.toFailure
      | .ok () => reconcileRoot root

theorem reconcile_of_splitKey?_eq_none {key : String} (h : splitKey? key = none) :
    reconcile key = .fail (.invalidKey key) := by
  unfold reconcile
  rw [h]

theorem reconcile_of_splitKey? {key ns name : String} (h : splitKey? key = some (ns, name)) :
    reconcile key = .ask (.cachedRoot ns name) afterLookup := by
  unfold reconcile
  rw [h]
  refine congrArg (Pass.ask (.cachedRoot ns name)) (funext fun (cached : Option Root) ↦ ?_)
  cases cached <;> rfl

theorem afterLookup_of_valid (hvalid : root.spec.validate = .ok ())
    (hstays : root.metadata.deletionTimestamp = none) :
    afterLookup (some root) = reconcileRoot root := by
  unfold afterLookup
  simp only [hstays, Option.isSome_none, Bool.false_eq_true, if_false]
  rw [hvalid]

theorem Pass.Disciplined.afterLookup (root : Root) :
    (afterLookup (some root)).Disciplined root (plan root) := by
  unfold Submarine.afterLookup
  dsimp only
  split
  · exact .done ()
  · split
    · exact fun _ ↦ ⟨trivial, fun _ ↦ trivial⟩
    · exact .reconcileRoot

namespace Pass.Guarded

variable {c : Cluster}

theorem of_disciplined {q : Pass α} (h : q.Disciplined root children) (c : Cluster) :
    q.Guarded root children none c where
  disciplined := h none
  remembers := by simp

theorem fail (e : Failure) (root : Root) (c : Cluster) :
    (Pass.fail e : Pass α).Guarded root children none c :=
  of_disciplined (.fail e) c

theorem step {q : Pass α} (hw : Stamped w.cluster) (h : q.Guarded root children seen w.cluster) :
    ∃ seen', (w.step q).1.Guarded root children seen' (w.step q).2.cluster := by
  cases q with
  | done | fail => exact ⟨seen, h⟩
  | ask r next =>
    rcases w.step_ask_cases r next with ⟨answer, w', hserve, hstep⟩ | ⟨w', -, hstep⟩
    · rw [hstep]
      exact ⟨_, h.next hw hserve⟩
    · rw [hstep]
      exact ⟨none, fail _ root _⟩

theorem noted {r : Request} {next : r.Answer → Pass α} {answer : r.Answer} {met : AnyChild → Prop}
    (hc : Proper w.cluster) (h : (Pass.ask r next).Guarded root (plan root) seen w.cluster)
    (hserve : w.serve r = (some answer, w')) :
    (∀ child, (errand root).note met r answer child →
        met child ∨ ∃ o, Settlement.Stands ⟨child, o⟩ root w'.cluster) ∨
      ∃ (k : Kind) (p : Place) (o : Object k), k ∈ childKinds ∧ o.IsChildOf root ∧
        w'.cluster.find? k p = some o ∧
          w'.cluster.log = w.cluster.log ++ [⟨⟨k, o⟩, false⟩] := by
  cases r with
  | get k ns name =>
    rcases (answer : Except ApiError (Object k)) with e | live
    · exact .inl fun _ hmet ↦ .inl hmet
    · obtain ⟨hsame, hfound, -⟩ := Cluster.get_spec (World.get_of_serve hserve)
      left
      rintro child (hmet | ⟨child, rfl, hns, rfl, hcontrolled, hagrees⟩)
      · exact .inl hmet
      · refine .inr ⟨live, ns, hns, ?_, hcontrolled, hagrees⟩
        rw [hsame.find?]
        exact (hfound live rfl).1
  | create k o =>
    rcases h.create_cases hserve with
      ⟨child, ns, born, hmem, hns, -, hplace, -, hcontrolled, -, hstores⟩ | ⟨-, hno⟩
    · refine .inr ⟨k, _, _, Plan.kind_mem_childKinds hmem, ⟨?_, ?_⟩, hstores.find?_self,
        hstores.log⟩
      · exact (Object.isControlledBy_congr rfl rfl rfl).trans hcontrolled
      · exact (Object.place_eq_ok_iff.1 hplace).2.trans hns.symm
    · rcases (answer : Except ApiError (Object k)) with e | stored
      · exact .inl fun _ hmet ↦ .inl hmet
      · exact absurd rfl (hno stored)
  | update k o =>
    rcases h.update_cases hserve with
      ⟨child, ns, live, merged, hmem, hns, -, hfind, hcontrolled, -, ⟨_, hmetadata⟩, hstores⟩ |
        ⟨-, hno⟩
    · refine .inr ⟨k, _, _, Plan.kind_mem_childKinds hmem, ⟨?_, ?_⟩, hstores.find?_self,
        hstores.log⟩
      · refine (Object.isControlledBy_congr ?_ rfl rfl).trans hcontrolled
        simp [Object.withVersion, hmetadata]
      · have hlive := hc.named hfind
        simp [Object.withVersion, hmetadata, hlive.ns, hns]
    · rcases (answer : Except ApiError (Object k)) with e | stored
      · exact .inl fun _ hmet ↦ .inl hmet
      · exact absurd rfl (hno stored)
  | updateStatus | cachedRoot | publish | now => exact .inl fun _ hmet ↦ .inl hmet

end Pass.Guarded

end Submarine
