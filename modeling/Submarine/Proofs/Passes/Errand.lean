import Submarine.Proofs.Cluster.Manners
import Submarine.Proofs.Manifest.Children
import Submarine.Proofs.Passes.Account
import Submarine.Proofs.Passes.Planned

namespace Submarine

variable {k : Kind} {α β : Type} {root : Root}

/-- Notes the children that a read found in order. After a write that succeeds, all are noted: it
tells the watches, so that there will be another pass. -/
def errand (root : Root) : Account (AnyChild → Prop) where
  allows _ _ := True
  tolerates f := f.severity = .transient
  note met
    | .get k ns name, (answer : Except ApiError (Object k)) =>
      match answer with
      | .ok live => fun c ↦ met c ∨ ∃ child : Child k, c = ⟨k, child⟩ ∧
          root.metadata.ns = some ns ∧ child.name = name ∧ live.isControlledBy root ∧
            live.agreesWith (child.build root)
      | .error _ => met
    | .create _ _, (answer : Except ApiError (Object _))
    | .update _ _, (answer : Except ApiError (Object _)) =>
      match answer with
      | .ok _ => fun _ ↦ True
      | .error _ => met
    | _, _ => met

def Pass.Meets (root : Root) (now : List AnyChild) (p : Pass α) : Prop :=
  ∀ met, p.Obeys (errand root) (fun met' _ ↦ (∀ c ∈ now, met' c) ∧ ∀ c, met c → met' c) met

/-- A root with name and uid can own children. -/
theorem Child.exists_newborn_of_isSome (hname : root.metadata.name.isSome)
    (huid : root.metadata.uid.isSome) (child : Child k) (ns : String) :
    ∃ o, child.newborn root ns = .ok o := by
  obtain ⟨name, hname⟩ := Option.isSome_iff_exists.1 hname
  obtain ⟨uid, huid⟩ := Option.isSome_iff_exists.1 huid
  have href : root.controllerReference? = some
      { apiVersion := Kind.submarine.apiVersion, kind := Kind.submarine.name, name, uid,
        controller := some true, blockOwnerDeletion := some true } := by
    simp [Object.controllerReference?, hname, huid]
  unfold Child.newborn Object.setOwner
  rw [href]
  exact ⟨_, rfl⟩

theorem Child.exists_newborn {p : Place} (hroot : root.Named p) (child : Child k) (ns : String) :
    ∃ o, child.newborn root ns = .ok o :=
  exists_newborn_of_isSome (by simp [hroot.name]) hroot.uid child ns

namespace Pass.Meets

variable {now later : List AnyChild}

theorem done (root : Root) (a : α) : (Pass.done a).Meets root [] := by
  intro met
  exact ⟨by simp, fun _ h ↦ h⟩

theorem bind {p : Pass α} {f : α → Pass β} (hp : p.Meets root now)
    (hf : ∀ a, (f a).Meets root later) : (p.bind f).Meets root (now ++ later) := by
  intro met
  refine (hp met).bind fun met' a ⟨hnow, hkeep⟩ ↦ ((hf a) met').mono fun met'' _ ⟨hlater, hkeep'⟩ ↦ ?_
  refine ⟨fun c hc ↦ ?_, fun c hc ↦ hkeep' c (hkeep c hc)⟩
  rcases List.mem_append.1 hc with hfirst | hsecond
  · exact hkeep' c (hnow c hfirst)
  · exact hlater c hsecond

theorem converge {p : Place} (hroot : root.Named p) (child : Child k) :
    (converge root child).Meets root [⟨k, child⟩] := by
  intro met
  unfold Submarine.converge
  rw [hroot.ns]
  refine ⟨trivial, fun (found : Except ApiError (Object k)) ↦ ?_⟩
  rcases found with e | live
  · cases e with
    | notFound what =>
      dsimp only
      obtain ⟨newborn, hnewborn⟩ := Child.exists_newborn hroot child p.ns
      rw [hnewborn]
      refine ⟨trivial, fun (answer : Except ApiError (Object k)) ↦ ?_⟩
      cases answer with
      | ok => exact ⟨fun _ _ ↦ trivial, fun _ _ ↦ trivial⟩
      | error => rfl
    | _ => rfl
  · dsimp only
    split
    · next hcontrolled =>
      split
      · next hagrees =>
        refine ⟨fun c hc ↦ .inr ?_, fun c hc ↦ .inl hc⟩
        exact ⟨child, List.mem_singleton.1 hc, hroot.ns, rfl, hcontrolled, hagrees⟩
      · refine ⟨trivial, fun (answer : Except ApiError (Object k)) ↦ ?_⟩
        cases answer with
        | ok => exact ⟨fun _ _ ↦ trivial, fun _ _ ↦ trivial⟩
        | error => rfl
    · exact ⟨trivial, fun _ ↦ rfl⟩

theorem convergeAll {p : Place} (hroot : root.Named p) (todo : List AnyChild) :
    (convergeAll root todo).Meets root todo := by
  induction todo with
  | nil => exact done root ()
  | cons c rest ih => exact (converge hroot c.child).bind fun _ ↦ ih

theorem convergeServer {p : Place} (hroot : root.Named p) :
    (convergeServer root).Meets root Plan.server := by
  refine (converge hroot Child.serverAccount).bind fun _ ↦ ?_
  refine (converge hroot Child.serverDeployment).bind fun deployment ↦ ?_
  refine (converge hroot Child.serverService).bind fun _ ↦ ?_
  exact done root deployment

theorem convergeDatabase {p : Place} (hroot : root.Named p) :
    (convergeDatabase root).Meets root (Plan.database root) := by
  have hlast : (convergeDatabaseSet root).Meets root
      [⟨_, Child.databaseSet⟩, ⟨_, Child.databaseService⟩] := by
    refine (converge hroot Child.databaseSet).bind fun set ↦ ?_
    refine (converge hroot Child.databaseService).bind fun _ ↦ ?_
    exact done root set
  rw [convergeDatabase_eq, Plan.database, List.append_assoc]
  refine (converge hroot Child.databaseClaim).bind fun _ ↦ ?_
  split
  · exact (converge hroot Child.databaseSecret).bind fun _ ↦ hlast
  · exact hlast

theorem reportStatus (root : Root) (server : Object .deployment)
    (database : Object .statefulSet) : (reportStatus root server database).Meets root [] := by
  intro met
  refine ⟨trivial, fun (now : Time.Instant) ↦ ?_⟩
  dsimp only
  split
  · exact ⟨by simp, fun _ h ↦ h⟩
  · refine ⟨trivial, fun (answer : Except ApiError Root) ↦ ?_⟩
    cases answer with
    | ok => exact ⟨by simp, fun _ h ↦ h⟩
    | error => rfl

theorem reconcileRoot {p : Place} (hroot : root.Named p) :
    (reconcileRoot root).Meets root (plan root) := by
  have hpublish : (do
      let _ ← Pass.request (.publish (.synced root))
      return () : Pass Unit).Meets root [] := by
    intro met
    exact ⟨trivial, fun _ ↦ ⟨by simp, fun _ h ↦ h⟩⟩
  have hplan : plan root = Plan.server ++ (Plan.database root ++ (Plan.access ++
      (Plan.auxiliaries root ++ ([] ++ [])))) := by
    simp [plan]
  rw [hplan, reconcileRoot_eq_planned]
  refine (convergeServer hroot).bind fun server ↦ ?_
  refine (convergeDatabase hroot).bind fun database ↦ ?_
  refine (convergeAll hroot Plan.access).bind fun _ ↦ ?_
  refine (convergeAll hroot (Plan.auxiliaries root)).bind fun _ ↦ ?_
  exact (reportStatus root server database).bind fun _ ↦ hpublish

end Pass.Meets

end Submarine
