import Submarine.Proofs.Manifest.Comparing

namespace Submarine

variable {k : Kind}

namespace Container

/-- Image and environment of the first container, and otherwise the second. -/
def withUnmanagedOf (c other : Container) : Container :=
  { other with image := c.image, env := c.env }

def replaceUnmanaged : List Container → List Container → List Container
  | c :: rest, other :: others =>
    c.withUnmanagedOf other :: (others.take rest.length ++ rest.drop others.length)
  | containers, _ => containers

theorem length_replaceUnmanaged (containers others : List Container) :
    (replaceUnmanaged containers others).length = containers.length := by
  unfold replaceUnmanaged
  split
  · next c rest other others =>
    simp only [List.length_cons, List.length_append, List.length_take, List.length_drop]
    omega
  · rfl

theorem head?_replaceUnmanaged (containers others : List Container) :
    (replaceUnmanaged containers others).head?.map (fun c ↦ (c.image, c.env.getD [])) =
      containers.head?.map fun c ↦ (c.image, c.env.getD []) := by
  unfold replaceUnmanaged
  split <;> rfl

end Container

namespace PodTemplate

def withUnmanagedOf (t other : PodTemplate) : PodTemplate :=
  { other with
    spec := t.spec.map fun p ↦
      let rest := other.spec.getD p
      { rest with
        containers := Container.replaceUnmanaged p.containers rest.containers
        imagePullSecrets := p.imagePullSecrets } }

theorem managed_withUnmanagedOf (t other : PodTemplate) (replicas : Option Int32) :
    (t.withUnmanagedOf other).managed replicas = t.managed replicas := by
  rcases t with ⟨metadata, _ | p⟩
  · rfl
  · simp [withUnmanagedOf, managed, containers, pullSecrets, Container.length_replaceUnmanaged,
      Container.head?_replaceUnmanaged]

end PodTemplate

namespace Content

/-- What is managed of the first content, and all the rest of the second. -/
def withUnmanagedOf : {k : Kind} → Content k → Content k → Content k
  | .deployment, (c : DeploymentContent), (other : DeploymentContent) =>
    show DeploymentContent from { other with
      spec := c.spec.map fun s ↦
        let rest := other.spec.getD s
        { rest with replicas := s.replicas, template := s.template.withUnmanagedOf rest.template } }
  | .statefulSet, (c : StatefulSetContent), (other : StatefulSetContent) =>
    show StatefulSetContent from { other with
      spec := c.spec.map fun s ↦
        let rest := other.spec.getD s
        { rest with replicas := s.replicas, template := s.template.withUnmanagedOf rest.template } }
  | .service, (c : ServiceContent), (other : ServiceContent) =>
    show ServiceContent from { other with
      spec := c.spec.map fun s ↦
        { other.spec.getD s with selector := s.selector, ports := s.ports } }
  | .secret, (c : SecretContent), (other : SecretContent) =>
    show SecretContent from { other with data := c.data }
  | .ingress, (c : IngressContent), (other : IngressContent) =>
    show IngressContent from { other with
      spec := c.spec.map fun s ↦ { other.spec.getD s with rules := s.rules } }
  | .persistentVolumeClaim, _, other | .serviceAccount, _, other => other
  | .role, c, _ | .roleBinding, c, _ | .ingressRoute, c, _ | .submarine, c, _
  | .configMap, c, _ => c

theorem managed_withUnmanagedOf (c other : Content k) :
    (c.withUnmanagedOf other).managed = c.managed := by
  cases k with
  | deployment | statefulSet =>
    rcases c with ⟨_ | s, status⟩
    · rfl
    · exact congrArg some (PodTemplate.managed_withUnmanagedOf ..)
  | service | ingress =>
    rcases c with ⟨_ | s, status⟩ <;> rfl
  | persistentVolumeClaim | serviceAccount | secret | role | roleBinding | ingressRoute | submarine
  | configMap => rfl

end Content

namespace Object

def withUnmanagedOf (o other : Object k) : Object k :=
  ⟨other.metadata, o.content.withUnmanagedOf other.content⟩

theorem agreesWith_withUnmanagedOf (live desired live' desired' : Object k) :
    (live.withUnmanagedOf live').agreesWith (desired.withUnmanagedOf desired') =
      live.agreesWith desired := by
  rw [Bool.eq_iff_iff, agreesWith_iff, agreesWith_iff]
  simp only [withUnmanagedOf, Content.managed_withUnmanagedOf]

theorem agreesWith_equivalence (k : Kind) :
    Equivalence fun live desired : Object k ↦ live.agreesWith desired = true where
  refl _ := agreesWith_iff.2 rfl
  symm h := agreesWith_iff.2 (agreesWith_iff.1 h).symm
  trans h h' := agreesWith_iff.2 ((agreesWith_iff.1 h).trans (agreesWith_iff.1 h'))

/-- Objects of one kind agree exactly if all that is managed of them is equal. Agreement is an
equivalence; it does not change with the metadata or anything else that is unmanaged, on either
side, and an object keeps it just as long as what is managed of it stays the same. -/
theorem agreement (k : Kind) :
    (∀ live desired : Object k,
      live.agreesWith desired ↔ live.content.managed = desired.content.managed) ∧
    (Equivalence fun live desired : Object k ↦ live.agreesWith desired = true) ∧
    (∀ live desired live' desired' : Object k,
      (live.withUnmanagedOf live').agreesWith (desired.withUnmanagedOf desired') =
        live.agreesWith desired) ∧
    ∀ live live' desired : Object k, live.agreesWith desired →
      (live'.agreesWith desired ↔ live'.content.managed = live.content.managed) ∧
        (desired.agreesWith live' ↔ live'.content.managed = live.content.managed) := by
  refine ⟨fun _ _ ↦ agreesWith_iff, agreesWith_equivalence k, agreesWith_withUnmanagedOf, ?_⟩
  intro live live' desired hagrees
  rw [agreesWith_iff] at hagrees
  rw [agreesWith_iff, agreesWith_iff, hagrees]
  exact ⟨Iff.rfl, eq_comm⟩

/-- A pull secret that is added to the server shows from either side. -/
theorem agreement_of_pull_secret :
    let desired := Manifest.Server.deployment Root.sample
    let withSecret := Manifest.Server.deployment sampleWithSecret
    liveServer.agreesWith desired ∧ ¬ withSecret.agreesWith desired ∧
      ¬ desired.agreesWith withSecret := by
  intro desired withSecret
  have hagrees : liveServer.agreesWith desired := by decide +kernel
  have hchanged : withSecret.content.managed ≠ liveServer.content.managed := by
    intro h
    exact absurd (congrArg (Option.map ManagedWorkload.pullSecrets) h) (by decide +kernel)
  have hkept := (agreement .deployment).2.2.2 liveServer withSecret desired hagrees
  exact ⟨hagrees, fun h ↦ hchanged (hkept.1.1 h), fun h ↦ hchanged (hkept.2.1 h)⟩

end Object

end Submarine
