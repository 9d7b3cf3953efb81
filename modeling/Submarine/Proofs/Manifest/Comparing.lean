import Submarine.Proofs.Manifest.Children

namespace Submarine

variable {k : Kind}

def Kind.isCreateOnly : Kind → Bool
  | .persistentVolumeClaim | .serviceAccount => true
  | .submarine | .configMap | .deployment | .statefulSet | .service | .secret | .ingress | .role
  | .roleBinding | .ingressRoute => false

structure ManagedWorkload where
  replicas : Int32
  containerCount : Nat
  first : Option (Option String × List EnvVar)
  pullSecrets : List String
deriving DecidableEq

def PodTemplate.managed (t : PodTemplate) (replicas : Option Int32) : ManagedWorkload where
  replicas := replicas.getD 1
  containerCount := t.containers.length
  first := t.containers.head?.map fun c ↦ (c.image, c.env.getD [])
  pullSecrets := t.pullSecrets

/-- The parts of a content that are managed. -/
def Managed : Kind → Type
  | .deployment | .statefulSet => Option ManagedWorkload
  | .service => Option (Option (Table String String) × Option (List ServicePort))
  | .secret => Option (Table String (List UInt8))
  | .role => Option (List PolicyRule)
  | .roleBinding => RoleRef × Option (List Subject)
  | .ingress => Option (Option (List IngressRule))
  | .ingressRoute => IngressRouteSpec
  | .persistentVolumeClaim | .serviceAccount => Unit
  | .submarine => InstallationContent
  | .configMap => ConfigMapContent

namespace Content

def managed : {k : Kind} → Content k → Managed k
  | .deployment, (c : DeploymentContent) => c.spec.map fun s ↦ s.template.managed s.replicas
  | .statefulSet, (c : StatefulSetContent) => c.spec.map fun s ↦ s.template.managed s.replicas
  | .service, (c : ServiceContent) => c.spec.map fun s ↦ (s.selector, s.ports)
  | .secret, (c : SecretContent) => c.data
  | .role, (c : RoleContent) => c.rules
  | .roleBinding, (c : RoleBindingContent) => (c.roleRef, c.subjects)
  | .ingress, (c : IngressContent) => c.spec.map (·.rules)
  | .ingressRoute, (c : IngressRouteContent) => c.spec
  | .persistentVolumeClaim, _ | .serviceAccount, _ => ()
  | .submarine, c | .configMap, c => c

end Content

theorem Drift.workloadAgrees_iff {replicas replicas' : Option Int32} {t t' : PodTemplate} :
    workloadAgrees replicas replicas' t t' ↔ t.managed replicas = t'.managed replicas' := by
  simp only [workloadAgrees, PodTemplate.managed, ManagedWorkload.mk.injEq, Bool.and_eq_true,
    decide_eq_true_eq]
  cases t.containers.head? <;> cases t'.containers.head? <;> simp [containerAgrees] <;> tauto

theorem Content.agreesWith_iff (live desired : Content k) :
    live.agreesWith desired ↔ live.managed = desired.managed := by
  cases k with
  | deployment | statefulSet =>
    rcases live with ⟨_ | s, _⟩ <;> rcases desired with ⟨_ | s', _⟩
    · exact iff_of_true rfl rfl
    · exact iff_of_false Bool.false_ne_true (by simp [managed])
    · exact iff_of_false Bool.false_ne_true (by simp [managed])
    · exact Drift.workloadAgrees_iff.trans Option.some_inj.symm
  | service =>
    rcases live with ⟨_ | s, _⟩ <;> rcases desired with ⟨_ | s', _⟩
    · exact iff_of_true rfl rfl
    · exact iff_of_false Bool.false_ne_true (by simp [managed])
    · exact iff_of_false Bool.false_ne_true (by simp [managed])
    · change Drift.serviceAgrees _ _ ↔ some (s.selector, s.ports) = some (s'.selector, s'.ports)
      simp [Drift.serviceAgrees]
  | roleBinding =>
    rcases live with ⟨ref, subjects⟩
    rcases desired with ⟨ref', subjects'⟩
    change (decide _ && decide _) = true ↔ (ref, subjects) = (ref', subjects')
    simp
  | persistentVolumeClaim | serviceAccount => exact iff_of_true rfl rfl
  | submarine | configMap | secret | role | ingress | ingressRoute => exact decide_eq_true_iff

theorem Content.agreesWith_of_isCreateOnly (hk : k.isCreateOnly) (live desired : Content k) :
    live.agreesWith desired := by
  cases k with
  | persistentVolumeClaim | serviceAccount => rfl
  | _ => contradiction

namespace Object

variable {live desired desired' : Object k}

theorem agreesWith_iff : live.agreesWith desired ↔ live.content.managed = desired.content.managed :=
  Content.agreesWith_iff live.content desired.content

/-- An object that agrees with one built earlier agrees with another just if the two built ones
do. -/
theorem agreesWith_congr_left (h : live.agreesWith desired) :
    live.agreesWith desired' ↔ desired.agreesWith desired' := by
  rw [agreesWith_iff, agreesWith_iff, agreesWith_iff.1 h]

end Object

section Builders

variable {r r' : Root}

namespace Manifest

theorem metadata_congr (hns : r'.metadata.ns = r.metadata.ns) (name : String) :
    metadata r' name = metadata r name := by
  rw [metadata, metadata, hns]

/-- No pull secrets are declared as none, never as an empty list. -/
theorem pullSecrets_eq_of_getD_eq (h : (pullSecrets r).getD [] = (pullSecrets r').getD []) :
    pullSecrets r = pullSecrets r' := by
  have hfull : ∀ root, pullSecrets root ≠ some [] := by
    intro root
    unfold pullSecrets
    split
    · split
      · simp
      · next hsome => simpa using hsome
    · simp
  cases hleft : pullSecrets r with
  | none =>
    cases hright : pullSecrets r' with
    | none => rfl
    | some l =>
      rw [hleft, hright] at h
      exact absurd (hright.trans (congrArg some h.symm)) (hfull r')
  | some l =>
    cases hright : pullSecrets r' with
    | none =>
      rw [hleft, hright] at h
      exact absurd (hleft.trans (congrArg some h)) (hfull r)
    | some l' =>
      rw [hleft, hright] at h
      exact congrArg some h

theorem Server.deployment_eq_of_agreesWith (hns : r'.metadata.ns = r.metadata.ns)
    (h : (deployment r).agreesWith (deployment r')) : deployment r = deployment r' := by
  have hmanaged := Option.some.inj (Object.agreesWith_iff.1 h)
  have hfirst := Option.some.inj (congrArg ManagedWorkload.first hmanaged)
  have hreplicas : r.spec.server.replicas = r'.spec.server.replicas :=
    congrArg ManagedWorkload.replicas hmanaged
  have himage : image r = image r' := Option.some.inj (congrArg Prod.fst hfirst)
  have huid : r.metadata.uid = r'.metadata.uid := by simpa using congrArg Prod.snd hfirst
  have hsecrets := pullSecrets_eq_of_getD_eq (congrArg ManagedWorkload.pullSecrets hmanaged)
  simp only [deployment, metadata_congr hns, hreplicas, himage, huid, hsecrets]

theorem Database.statefulSet_eq_of_agreesWith (hns : r'.metadata.ns = r.metadata.ns)
    (h : (statefulSet r).agreesWith (statefulSet r')) : statefulSet r = statefulSet r' := by
  have hmanaged := Option.some.inj (Object.agreesWith_iff.1 h)
  have hfirst := Option.some.inj (congrArg ManagedWorkload.first hmanaged)
  have hreplicas : r.spec.database.replicas = r'.spec.database.replicas :=
    congrArg ManagedWorkload.replicas hmanaged
  have himage : image r = image r' := Option.some.inj (congrArg Prod.fst hfirst)
  have hsecret : passwordSecretName r = passwordSecretName r' := by
    simpa using congrArg Prod.snd hfirst
  have hsecrets := pullSecrets_eq_of_getD_eq (congrArg ManagedWorkload.pullSecrets hmanaged)
  simp only [statefulSet, metadata_congr hns, hreplicas, himage, hsecret, hsecrets]

theorem Auxiliary.deployment_eq_of_agreesWith {aux : Auxiliary}
    (hns : r'.metadata.ns = r.metadata.ns)
    (h : (aux.deployment r).agreesWith (aux.deployment r')) :
    aux.deployment r = aux.deployment r' := by
  have hmanaged := Option.some.inj (Object.agreesWith_iff.1 h)
  have hfirst := Option.some.inj (congrArg ManagedWorkload.first hmanaged)
  have himage : aux.image r = aux.image r' := Option.some.inj (congrArg Prod.fst hfirst)
  have hsecrets := pullSecrets_eq_of_getD_eq (congrArg ManagedWorkload.pullSecrets hmanaged)
  simp only [deployment, metadata_congr hns, himage, hsecrets]

end Manifest

/-- Whatever a root can change about a child shows in the comparison. -/
theorem AnyChild.agreesWith_build_iff {c : AnyChild} (hc : c ∈ Plan.full)
    (hkind : c.kind.isCreateOnly = false) (hns : r'.metadata.ns = r.metadata.ns) :
    (c.child.build r).agreesWith (c.child.build r') ↔ c.child.build r = c.child.build r' := by
  refine ⟨fun h ↦ ?_, fun h ↦ h ▸ Content.agreesWith_self _⟩
  -- What has a fixed content differs at most in its namespace.
  have hfixed (k : Kind) (name : String) (content : Content k) :
      (⟨Manifest.metadata r name, content⟩ : Object k) = ⟨Manifest.metadata r' name, content⟩ := by
    rw [Manifest.metadata_congr hns]
  simp only [Plan.full, Plan.server, Plan.access, Plan.auxiliary, List.mem_append, List.mem_cons,
    List.not_mem_nil, or_false, List.mem_flatMap] at hc
  rcases hc with (((rfl | rfl | rfl) | (rfl | rfl) | rfl | rfl) | rfl | rfl | rfl) |
    ⟨aux, -, rfl | rfl | rfl | rfl⟩
  · contradiction
  · exact Manifest.Server.deployment_eq_of_agreesWith hns h
  · exact hfixed ..
  · contradiction
  · exact hfixed ..
  · exact Manifest.Database.statefulSet_eq_of_agreesWith hns h
  · exact hfixed ..
  · exact hfixed ..
  · exact hfixed ..
  · simp only [Child.serverRoleBinding, Manifest.Server.roleBinding,
      Manifest.metadata_congr hns, hns]
  · contradiction
  · exact Manifest.Auxiliary.deployment_eq_of_agreesWith hns h
  · exact hfixed ..
  · exact hfixed ..

/-- Two roots in one namespace build what agrees just if they build the same, and whatever agreed
with the one built for the first root agrees with the other just in that case too. -/
theorem AnyChild.edits_show {c : AnyChild} (hc : c ∈ Plan.full)
    (hkind : c.kind ∈ [Kind.deployment, .statefulSet, .service, .secret, .role, .roleBinding,
      .ingress, .ingressRoute])
    (hns : r'.metadata.ns = r.metadata.ns) :
    ((c.child.build r).agreesWith (c.child.build r') ↔ c.child.build r = c.child.build r') ∧
      ∀ live : Object c.kind, live.agreesWith (c.child.build r) →
        (live.agreesWith (c.child.build r') ↔ c.child.build r = c.child.build r') := by
  have hupdated : ∀ k ∈ [Kind.deployment, .statefulSet, .service, .secret, .role, .roleBinding,
      .ingress, .ingressRoute], k.isCreateOnly = false := by decide
  have hbuilt := c.agreesWith_build_iff hc (hupdated c.kind hkind) hns
  exact ⟨hbuilt, fun live hlive ↦ (Object.agreesWith_congr_left hlive).trans hbuilt⟩

def sampleWithSecret : Root :=
  { Root.sample with
    content := show InstallationContent from
      { Root.sample.content with
        spec := { Root.sample.spec with common := some { image := { pullSecrets := ["key"] } } } } }

def liveServer : Object .deployment :=
  let built := Manifest.Server.deployment Root.sample
  { metadata := { built.metadata with uid := some "u-2", resourceVersion := some "7" }
    content := show DeploymentContent from
      { spec := DeploymentContent.spec built.content
        status := some { availableReplicas := some 1 } } }

/-- The secret shows in the server, and not in its service. -/
theorem AnyChild.edits_show_of_pull_secret :
    liveServer.agreesWith (Child.serverDeployment.build Root.sample) ∧
      ¬ liveServer.agreesWith (Child.serverDeployment.build sampleWithSecret) ∧
      Child.serverService.build Root.sample = Child.serverService.build sampleWithSecret := by
  have hns : sampleWithSecret.metadata.ns = Root.sample.metadata.ns := rfl
  have hserver := edits_show (c := ⟨_, Child.serverDeployment⟩) (by simp [Plan.full, Plan.server])
    (by decide) hns
  have hservice := edits_show (c := ⟨_, Child.serverService⟩) (by simp [Plan.full, Plan.server])
    (by decide) hns
  have hlive : liveServer.agreesWith (Child.serverDeployment.build Root.sample) := by
    decide +kernel
  refine ⟨hlive, fun h ↦ ?_, hservice.1.1 (by decide +kernel)⟩
  exact absurd ((hserver.2 liveServer hlive).1 h) (by decide +kernel)

end Builders

end Submarine
