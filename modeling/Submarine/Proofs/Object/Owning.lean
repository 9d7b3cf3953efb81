import Submarine.Proofs.Manifest.Children

namespace Submarine

namespace Metadata

variable {m : Metadata} {r r' : OwnerReference}

def references (m : Metadata) : List OwnerReference := m.ownerReferences.getD []

def others (m : Metadata) : List OwnerReference := m.references.filter fun o ↦ ¬ o.isController

theorem references_withController (m : Metadata) (r : OwnerReference) :
    (m.withController r).references = m.others ++ [r] := rfl

theorem others_withController (hr : r.isController) : (m.withController r).others = m.others := by
  rw [others, references_withController, List.filter_append, others, List.filter_filter]
  simp [hr]

theorem countP_withController (hr : r.isController) :
    (m.withController r).references.countP OwnerReference.isController = 1 := by
  have hothers : m.others.countP OwnerReference.isController = 0 := by
    rw [List.countP_eq_zero]
    intro o ho
    simpa using (List.mem_filter.1 ho).2
  rw [references_withController, List.countP_append, hothers, List.countP_singleton, if_pos hr]

/-- The last owner that was recorded is the only one that counts. -/
theorem withController_withController (hr : r.isController) :
    (m.withController r).withController r' = m.withController r' := by
  have hothers := others_withController (m := m) hr
  unfold others references at hothers
  rw [withController, hothers]
  rfl

end Metadata

namespace Object

variable {i j k : Kind}

def changeReferences
    (change : Option (List OwnerReference) → Option (List OwnerReference)) :
    EStateM SpecFault (Object j) Unit :=
  modify fun o ↦
    { o with metadata := { o.metadata with ownerReferences := change o.metadata.ownerReferences } }

/-- Records the owner in place. The reference is made first; then the list of references is opened,
rid of the controllers, and the reference is put at its end. -/
def own (owner : Object k) : EStateM SpecFault (Object j) Unit := do
  match owner.controllerReference? with
  | none => throw (.noIdentity k.name (owner.metadata.name.getD ""))
  | some r =>
    changeReferences fun refs ↦ some (refs.getD [])
    changeReferences fun refs ↦ refs.map (·.filter fun o ↦ ¬ o.isController)
    changeReferences fun refs ↦ refs.map (· ++ [r])

theorem run_own (owner : Object k) (o : Object j) :
    (own owner).run o = match o.setOwner owner with
      | .ok owned => .ok () owned
      | .error f => .error f o := by
  unfold own setOwner
  cases owner.controllerReference? <;> rfl

section Identified

variable {owner : Object k} {name uid : String}

theorem controllerReference?_eq_some_iff {r : OwnerReference} :
    owner.controllerReference? = some r ↔
      ∃ name uid, owner.metadata.name = some name ∧ owner.metadata.uid = some uid ∧
        r = ⟨k.apiVersion, k.name, name, uid, some true, some true⟩ := by
  unfold controllerReference?
  cases owner.metadata.name <;> cases owner.metadata.uid <;> simp [eq_comm]

theorem isController_of_controllerReference? {r : OwnerReference}
    (h : owner.controllerReference? = some r) : r.isController := by
  obtain ⟨name, uid, -, -, rfl⟩ := controllerReference?_eq_some_iff.1 h
  rfl

theorem controllerReference?_eq_none_iff :
    owner.controllerReference? = none ↔
      owner.metadata.name = none ∨ owner.metadata.uid = none := by
  unfold controllerReference?
  cases owner.metadata.name <;> cases owner.metadata.uid <;> simp

theorem setOwner_of_reference {r : OwnerReference} (h : owner.controllerReference? = some r)
    (o : Object j) :
    o.setOwner owner = .ok { o with metadata := o.metadata.withController r } := by
  rw [setOwner, h]

/-- Whoever is recorded next, it is as if the first owner had never been. -/
theorem setOwner_setOwner {owned o : Object j} (h : o.setOwner owner = .ok owned)
    (next : Object i) : owned.setOwner next = o.setOwner next := by
  cases hr : owner.controllerReference? with
  | none =>
    rw [setOwner, hr] at h
    contradiction
  | some r =>
    rw [setOwner_of_reference hr] at h
    obtain rfl := Except.ok.inj h
    have hcontroller : r.isController := isController_of_controllerReference? hr
    cases hr' : next.controllerReference? with
    | none => rw [setOwner, setOwner, hr']
    | some r' =>
      rw [setOwner_of_reference hr', setOwner_of_reference hr',
        Metadata.withController_withController hcontroller]

theorem pointsTo_iff (other : Object k) :
    (⟨k.apiVersion, k.name, name, uid⟩ : OwnerLink).pointsTo other ↔
      other.metadata.name = some name ∧ other.metadata.uid = some uid := by
  simp only [OwnerLink.pointsTo, Bool.and_eq_true, decide_eq_true_eq, true_and]
  exact and_congr eq_comm eq_comm

end Identified

/-- An owner that has a name and a uid becomes the only controller of the object, which keeps its
other references in their order, and all else. The controller read off the object points to those of
the owner's kind that have its name and uid. Recording it again changes nothing, and recording
another one leaves no trace of it. An owner that lacks name or uid is refused, and the object is left
as it was. -/
theorem owner_is_only_controller (o : Object j) (owner : Object k) :
    (∀ name uid, owner.metadata.name = some name → owner.metadata.uid = some uid →
      ∃ owned link, o.setOwner owner = .ok owned ∧ (own owner).run o = .ok () owned ∧
        owned.metadata.references.countP OwnerReference.isController = 1 ∧
        owned.metadata.others = o.metadata.others ∧
        owned = { o with
          metadata := { o.metadata with ownerReferences := owned.metadata.ownerReferences } } ∧
        owned.controller? = some link ∧ link = ⟨k.apiVersion, k.name, name, uid⟩ ∧
        (∀ other : Object k, link.pointsTo other ↔
          other.metadata.name = some name ∧ other.metadata.uid = some uid) ∧
        owned.setOwner owner = .ok owned ∧
        ∀ (i : Kind) (next : Object i), owned.setOwner next = o.setOwner next) ∧
    (owner.metadata.name = none ∨ owner.metadata.uid = none →
      o.setOwner owner = .error (.noIdentity k.name (owner.metadata.name.getD "")) ∧
      (own owner).run o = .error (.noIdentity k.name (owner.metadata.name.getD "")) o) := by
  constructor
  · intro name uid hname huid
    have hr : owner.controllerReference? = some _ :=
      controllerReference?_eq_some_iff.2 ⟨name, uid, hname, huid, rfl⟩
    have hcontroller := isController_of_controllerReference? hr
    have hset := setOwner_of_reference hr o
    refine ⟨_, _, hset, ?_, Metadata.countP_withController hcontroller,
      Metadata.others_withController hcontroller, rfl,
      Metadata.controller?_withController _ hcontroller, rfl, pointsTo_iff, ?_, ?_⟩
    · rw [run_own, hset]
    · rw [setOwner_setOwner hset, hset]
    · exact fun i next ↦ setOwner_setOwner hset next
  · intro hlacks
    have hset : o.setOwner owner = .error (.noIdentity k.name (owner.metadata.name.getD "")) := by
      rw [setOwner, controllerReference?_eq_none_iff.2 hlacks]
    refine ⟨hset, ?_⟩
    rw [run_own, hset]

def sampleReference (name : String) (controller : Option Bool) : OwnerReference :=
  ⟨"submarine.apache.org/v1alpha1", "Submarine", name, "u-1", controller, none⟩

def crowded : Object .role where
  metadata := { ownerReferences := some [sampleReference "first" (some true),
    sampleReference "demo" none, sampleReference "second" (some true),
    sampleReference "third" (some false)] }
  content := show RoleContent from {}

theorem owner_is_only_controller_of_crowded :
    Root.sample.metadata.name = some "demo" ∧ Root.sample.metadata.uid = some "u-1" ∧
      crowded.metadata.references.countP OwnerReference.isController = 2 ∧
      ∃ owned, crowded.setOwner Root.sample = .ok owned ∧
        owned.metadata.references.countP OwnerReference.isController = 1 ∧
        owned.metadata.others =
          [sampleReference "demo" none, sampleReference "third" (some false)] := by
  obtain ⟨owned, link, hset, -, hsingle, hothers, -⟩ :=
    (owner_is_only_controller crowded Root.sample).1 "demo" "u-1" rfl rfl
  exact ⟨rfl, rfl, by decide, owned, hset, hsingle, hothers⟩

end Object

end Submarine
