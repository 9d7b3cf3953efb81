import Submarine.Proofs.Passes.Account
import Submarine.Proofs.Passes.Planned

namespace Submarine

structure Sight where
  kind : Kind
  place : Place
  object : Object kind

def sightAfter (seen : Option Sight) : (r : Request) → r.Answer → Option Sight
  | .get k ns name, (answer : Except ApiError (Object k)) =>
    match answer with
    | .ok live => some ⟨k, ⟨ns, name⟩, live⟩
    | .error _ => none
  | _, _ => seen

def Root.withStatus (root : Root) (status : InstallationStatus) : Root :=
  { root with content := show InstallationContent from ⟨root.spec, some status⟩ }

/-- What may be asked on behalf of the root while only those children are converged. -/
def mayAsk (root : Root) (children : List AnyChild) (seen : Option Sight) : Request → Prop
  | .create k o => ∃ (child : Child k) (ns : String),
      ⟨k, child⟩ ∈ children ∧ root.metadata.ns = some ns ∧ child.newborn root ns = .ok o
  | .update k o => ∃ (child : Child k) (ns : String) (live : Object k),
      ⟨k, child⟩ ∈ children ∧ root.metadata.ns = some ns ∧
        seen = some ⟨k, ⟨ns, child.name⟩, live⟩ ∧ live.isControlledBy root ∧
          o = child.renewed root live
  | .updateStatus k o => ∃ status, AnyObject.mk k o = ⟨.submarine, root.withStatus status⟩
  | .cachedRoot _ _ | .get _ _ _ | .publish _ | .now => True

def discipline (root : Root) (children : List AnyChild) : Account (Option Sight) where
  allows := mayAsk root children
  tolerates _ := True
  note := sightAfter

def Pass.Disciplined {α : Type} (root : Root) (children : List AnyChild) (p : Pass α) : Prop :=
  ∀ seen, p.Obeys (discipline root children) (fun _ _ ↦ True) seen

variable {k : Kind} {root : Root} {children : List AnyChild}

namespace Pass.Disciplined

variable {α β : Type}

theorem done (a : α) : (Pass.done a).Disciplined root children := fun _ ↦ trivial

theorem fail (e : Failure) : (Pass.fail e : Pass α).Disciplined root children := fun _ ↦ trivial

theorem bind {p : Pass α} {f : α → Pass β} (hp : p.Disciplined root children)
    (hf : ∀ a, (f a).Disciplined root children) : (p.bind f).Disciplined root children :=
  fun seen ↦ (hp seen).bind fun s a _ ↦ hf a s

theorem converge {child : Child k} (hmem : ⟨k, child⟩ ∈ children) :
    (converge root child).Disciplined root children := by
  intro seen
  unfold Submarine.converge
  split
  · exact trivial
  · next ns hns =>
    refine ⟨trivial, fun (found : Except ApiError (Object k)) ↦ ?_⟩
    rcases found with e | live
    · cases e with
      | notFound what =>
        dsimp only
        rcases hnewborn : child.newborn root ns with fault | newborn
        · exact trivial
        · refine ⟨⟨child, ns, hmem, hns, hnewborn⟩, fun (answer : Except ApiError (Object k)) ↦ ?_⟩
          cases answer <;> exact trivial
      | _ => exact trivial
    · dsimp only
      split
      · next hcontrolled =>
        split
        · exact trivial
        · refine ⟨⟨child, ns, live, hmem, hns, rfl, hcontrolled, rfl⟩,
            fun (answer : Except ApiError (Object k)) ↦ ?_⟩
          cases answer <;> exact trivial
      · exact ⟨trivial, fun _ ↦ trivial⟩

theorem reportStatus (server : Object .deployment) (database : Object .statefulSet) :
    (reportStatus root server database).Disciplined root children := by
  refine fun seen ↦ ⟨trivial, fun (now : Time.Instant) ↦ ?_⟩
  dsimp only
  split
  · exact trivial
  · refine ⟨⟨_, rfl⟩, fun (answer : Except ApiError Root) ↦ ?_⟩
    cases answer <;> exact trivial

theorem convergeAll {todo : List AnyChild} (htodo : ∀ c ∈ todo, c ∈ children) :
    (convergeAll root todo).Disciplined root children := by
  induction todo with
  | nil => exact done ()
  | cons c rest ih =>
    refine (converge (htodo c (List.mem_cons_self ..))).bind fun _ ↦ ih fun c' hc' ↦ ?_
    exact htodo c' (List.mem_cons_of_mem _ hc')

theorem convergeServer (h : ∀ c ∈ Plan.server, c ∈ children) :
    (convergeServer root).Disciplined root children := by
  refine (converge (h _ (by simp [Plan.server]))).bind fun _ ↦ ?_
  refine (converge (h _ (by simp [Plan.server]))).bind fun deployment ↦ ?_
  refine (converge (h _ (by simp [Plan.server]))).bind fun _ ↦ ?_
  exact done deployment

theorem convergeDatabase (h : ∀ c ∈ Plan.database root, c ∈ children) :
    (convergeDatabase root).Disciplined root children := by
  have hlast : (convergeDatabaseSet root).Disciplined root children := by
    refine (converge (h _ (by simp [Plan.database]))).bind fun set ↦ ?_
    refine (converge (h _ (by simp [Plan.database]))).bind fun _ ↦ ?_
    exact done set
  rw [convergeDatabase_eq]
  refine (converge (h _ (by simp [Plan.database]))).bind fun _ ↦ ?_
  split
  · next hmanages =>
    exact (converge (h _ (by simp [Plan.database, hmanages]))).bind fun _ ↦ hlast
  · exact hlast

theorem reconcileRoot : (reconcileRoot root).Disciplined root (plan root) := by
  rw [reconcileRoot_eq_planned]
  refine (convergeServer (by simp +contextual [plan])).bind fun server ↦ ?_
  refine (convergeDatabase (by simp +contextual [plan])).bind fun database ↦ ?_
  refine (convergeAll (by simp +contextual [plan])).bind fun _ ↦ ?_
  refine (convergeAll (by simp +contextual [plan])).bind fun _ ↦ ?_
  refine (reportStatus server database).bind fun _ ↦ ?_
  exact fun _ ↦ ⟨trivial, fun _ ↦ trivial⟩

end Pass.Disciplined

end Submarine
