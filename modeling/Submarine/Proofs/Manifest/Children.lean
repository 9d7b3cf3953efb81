import Submarine.Manifest.Plan
import Submarine.Proofs.Cluster.Versions
import Submarine.Reconcile.Converge
import Mathlib.Data.List.Flatten
import Mathlib.Data.List.Nodup

namespace Submarine

variable {k : Kind}

namespace Drift

theorem containerAgrees_self (c : Container) : containerAgrees c c := by simp [containerAgrees]

theorem workloadAgrees_self (replicas : Option Int32) (t : PodTemplate) :
    workloadAgrees replicas replicas t t := by
  cases hhead : t.containers.head? with
  | none => simp [workloadAgrees, hhead]
  | some c => simp [workloadAgrees, hhead, containerAgrees_self]

end Drift

/-- The status takes no part in the comparison. -/
theorem Content.agreesWith_withStatusOf (hk : k ≠ .submarine) (desired live : Content k) :
    (desired.withStatusOf live).agreesWith desired := by
  cases k with
  | submarine => contradiction
  | deployment =>
    rcases desired with ⟨_ | spec, status⟩
    · rfl
    · exact Drift.workloadAgrees_self spec.replicas spec.template
  | statefulSet =>
    rcases desired with ⟨_ | spec, status⟩
    · rfl
    · exact Drift.workloadAgrees_self spec.replicas spec.template
  | service => simp [withStatusOf, agreesWith, Drift.serviceAgrees]
  | persistentVolumeClaim | serviceAccount => rfl
  | configMap | secret | role | roleBinding | ingress | ingressRoute =>
    simp [withStatusOf, agreesWith]

theorem Content.agreesWith_self (desired : Content k) : desired.agreesWith desired := by
  by_cases hk : k = .submarine
  · subst hk
    simp [agreesWith]
  · have hsame : desired.withStatusOf desired = desired := by cases k <;> rfl
    have h := agreesWith_withStatusOf hk desired desired
    rwa [hsame] at h

theorem Metadata.controller?_withController (m : Metadata) {r : OwnerReference}
    (hr : r.isController) : (m.withController r).controller? = some r.link := by
  have hothers : ((m.ownerReferences.getD []).filter fun o ↦ ¬ o.isController).find?
      OwnerReference.isController = none := by
    rw [List.find?_eq_none]
    intro o ho
    simpa using (List.mem_filter.1 ho).2
  simp only [controller?, withController, Option.getD_some, List.find?_append]
  rw [hothers]
  simp [hr]

namespace Object

variable {j : Kind} {o owned : Object j} {owner : Object k}

theorem isControlledBy_of_setOwner (h : o.setOwner owner = .ok owned) :
    owned.isControlledBy owner := by
  unfold setOwner at h
  split at h
  · next r hr =>
    obtain rfl := Except.ok.inj h
    obtain ⟨name, hname, hr⟩ := Option.bind_eq_some_iff.1 hr
    obtain ⟨uid, huid, hr⟩ := Option.bind_eq_some_iff.1 hr
    obtain rfl := Option.some.inj hr
    simp [isControlledBy, controller?, Metadata.controller?_withController, OwnerReference.link,
      OwnerReference.isController, OwnerLink.pointsTo, hname, huid]
  · contradiction

theorem metadata_of_setOwner (h : o.setOwner owner = .ok owned) :
    owned.content = o.content ∧ owned.metadata.name = o.metadata.name ∧
      owned.metadata.ns = o.metadata.ns := by
  unfold setOwner at h
  split at h
  · obtain rfl := Except.ok.inj h
    exact ⟨rfl, rfl, rfl⟩
  · contradiction

theorem isControlledBy_congr {o' : Object j} {owner' : Object k}
    (hrefs : o'.metadata.ownerReferences = o.metadata.ownerReferences)
    (hname : owner'.metadata.name = owner.metadata.name)
    (huid : owner'.metadata.uid = owner.metadata.uid) :
    o'.isControlledBy owner' = o.isControlledBy owner := by
  simp only [isControlledBy, controller?, Metadata.controller?, OwnerLink.pointsTo, hrefs, hname,
    huid]

/-- Only what has a name and a uid controls anything. -/
theorem isSome_of_isControlledBy (h : o.isControlledBy owner) :
    owner.metadata.name.isSome ∧ owner.metadata.uid.isSome := by
  obtain ⟨link, -, hlink⟩ := (Option.any_eq_true _ _).1 h
  simp only [OwnerLink.pointsTo, Bool.and_eq_true, decide_eq_true_eq] at hlink
  obtain ⟨⟨-, hname⟩, huid⟩ := hlink
  rw [← hname, ← huid]
  exact ⟨rfl, rfl⟩

end Object

namespace Child

variable {child : Child k} {root : Root} {ns : String} {o : Object k}

theorem newborn_spec (h : child.newborn root ns = .ok o) :
    o.place = .ok ⟨ns, child.name⟩ ∧ o.isControlledBy root ∧
      o.content = (child.build root).content := by
  obtain ⟨hcontent, hname, hns⟩ := Object.metadata_of_setOwner h
  exact ⟨Object.place_eq_ok_iff.2 ⟨hname, hns⟩, Object.isControlledBy_of_setOwner h, hcontent⟩

end Child

def AnyChild.label (c : AnyChild) : Kind × String := (c.kind, c.child.name)

namespace Plan

def full : List AnyChild :=
  server ++ ([⟨_, Child.databaseClaim⟩] ++ [⟨_, Child.databaseSecret⟩] ++
    [⟨_, Child.databaseSet⟩, ⟨_, Child.databaseService⟩]) ++ access ++
      Manifest.Auxiliary.all.flatMap auxiliary

theorem sublist_full (root : Root) : (plan root).Sublist full := by
  refine List.Sublist.append (List.Sublist.append (List.Sublist.append (.refl _) ?_) (.refl _)) ?_
  · refine List.Sublist.append (List.Sublist.append (.refl _) ?_) (.refl _)
    split
    · exact .refl _
    · exact List.nil_sublist _
  · exact List.Sublist.flatMap List.filter_sublist _

theorem nodup_labels_full : (full.map AnyChild.label).Nodup := by decide +kernel

theorem nodup_labels (root : Root) : ((plan root).map AnyChild.label).Nodup :=
  nodup_labels_full.sublist ((sublist_full root).map _)

theorem mem_of_enabled {root : Root} {c : AnyChild} (aux : Manifest.Auxiliary)
    (haux : aux ∈ Manifest.Auxiliary.all) (henabled : aux.enabled root) (hc : c ∈ auxiliary aux) :
    c ∈ plan root :=
  List.mem_append_right _ (List.mem_flatMap.2 ⟨aux, List.mem_filter.2 ⟨haux, henabled⟩, hc⟩)

theorem kind_ne_submarine {root : Root} {c : AnyChild} (hc : c ∈ plan root) :
    c.kind ≠ .submarine := by
  have hfull : ∀ c ∈ full, c.kind ≠ .submarine := by decide +kernel
  exact hfull c ((sublist_full root).subset hc)

end Plan

def Root.sample : Root where
  metadata := { name := some "demo", ns := some "default", uid := some "u-1" }
  content := show InstallationContent from
    { spec := {
        version := "0.8"
        tensorboard := { enabled := false }
        mlflow := { enabled := false }
        minio := { enabled := false }
        storage := { storageType := "nfs" } } }

def Root.sampleWithBoard : Root :=
  { Root.sample with
    content := show InstallationContent from
      { spec := { Root.sample.spec with tensorboard := { enabled := true } } } }

def Root.driftedService (name : String) : Object .service where
  metadata := {
    name := some name
    ns := some "default"
    ownerReferences :=
      some [⟨"submarine.apache.org/v1alpha1", "Submarine", "demo", "u-1", some true, none⟩] }
  content := show ServiceContent from {}

def Cluster.drifted : Cluster := empty.performAll [
  .insert .submarine Root.sampleWithBoard,
  .insert .service (Root.driftedService "submarine-tensorboard-service")]

/-- The roots declare the same, whatever their status and version. -/
structure Root.SameDeclaration (root root' : Root) : Prop where
  spec : root'.spec = root.spec
  name : root'.metadata.name = root.metadata.name
  ns : root'.metadata.ns = root.metadata.ns
  uid : root'.metadata.uid = root.metadata.uid

namespace Root.SameDeclaration

variable {root root' : Root}

theorem refl (root : Root) : root.SameDeclaration root := ⟨rfl, rfl, rfl, rfl⟩

theorem symm (h : root.SameDeclaration root') : root'.SameDeclaration root :=
  ⟨h.spec.symm, h.name.symm, h.ns.symm, h.uid.symm⟩

theorem trans {root'' : Root} (h : root.SameDeclaration root')
    (h' : root'.SameDeclaration root'') : root.SameDeclaration root'' :=
  ⟨h'.spec.trans h.spec, h'.name.trans h.name, h'.ns.trans h.ns, h'.uid.trans h.uid⟩

theorem isControlledBy (h : root.SameDeclaration root') (o : Object k) :
    o.isControlledBy root' = o.isControlledBy root :=
  Object.isControlledBy_congr rfl h.name h.uid

theorem plan (h : root.SameDeclaration root') : plan root' = plan root := by
  have hmanages : Manifest.Database.managesSecret root' = Manifest.Database.managesSecret root := by
    rw [Manifest.Database.managesSecret, Manifest.Database.managesSecret, h.spec]
  have henabled : ∀ aux ∈ ([.tensorboard, .mlflow, .minio] : List Manifest.Auxiliary),
      aux.enabled root' = aux.enabled root := by
    intro aux haux
    simp only [List.mem_cons, List.not_mem_nil, or_false] at haux
    rcases haux with rfl | rfl | rfl <;>
      simp only [Manifest.Auxiliary.enabled, Manifest.Auxiliary.tensorboard,
        Manifest.Auxiliary.mlflow, Manifest.Auxiliary.minio, h.spec]
  rw [Submarine.plan, Submarine.plan, Plan.database, Plan.database, hmanages, Plan.auxiliaries,
    Plan.auxiliaries, List.filter_congr henabled]

theorem build (h : root.SameDeclaration root') {c : AnyChild} (hc : c ∈ Submarine.plan root) :
    c.child.build root' = c.child.build root := by
  rcases root with ⟨metadata, content⟩
  rcases root' with ⟨metadata', content'⟩
  rcases content with ⟨spec, status⟩
  rcases content' with ⟨spec', status'⟩
  obtain ⟨hspec, hname, hns, huid⟩ := h
  rcases metadata with ⟨name, ns, _, uid⟩
  rcases metadata' with ⟨name', ns', _, uid'⟩
  dsimp only [Root.spec] at hspec hname hns huid
  subst hspec hname hns huid
  simp only [Submarine.plan, List.mem_append] at hc
  rcases hc with ((hc | hc) | hc) | hc
  · simp only [Plan.server, List.mem_cons, List.not_mem_nil, or_false] at hc
    rcases hc with rfl | rfl | rfl <;> rfl
  · simp only [Plan.database, List.mem_append, List.mem_cons, List.not_mem_nil, or_false] at hc
    rcases hc with (rfl | hc) | rfl | rfl
    · rfl
    · split at hc
      · obtain rfl := List.mem_singleton.1 hc
        rfl
      · contradiction
    · rfl
    · rfl
  · simp only [Plan.access, List.mem_cons, List.not_mem_nil, or_false] at hc
    rcases hc with rfl | rfl | rfl <;> rfl
  · obtain ⟨aux, haux, hc⟩ := List.mem_flatMap.1 hc
    have hall := (List.mem_filter.1 haux).1
    simp only [List.mem_cons, List.not_mem_nil, or_false] at hall
    simp only [Plan.auxiliary, List.mem_cons, List.not_mem_nil, or_false] at hc
    rcases hall with rfl | rfl | rfl <;> rcases hc with rfl | rfl | rfl | rfl <;> rfl

end Root.SameDeclaration

end Submarine
