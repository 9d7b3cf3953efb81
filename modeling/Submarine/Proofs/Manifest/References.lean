import Submarine.Proofs.Manifest.Children

namespace Submarine

variable {k : Kind}

/-- The namespace is that in which the target is looked for. -/
inductive Reference where
  | object (group kind : String) (ns : Option String) (name : String)
  | secretKey (ns : Option String) (name key : String)
  | configMapKey (ns : Option String) (name key : String)
  | backend (ns : Option String) (service : String) (port : BackendPort)
  -- Pods with these labels, among others, that listen at all of these ports.
  | pods (ns : Option String) (labels : Table String String) (ports : List (Option TargetPort))

def Reference.named (k : Kind) (ns : Option String) (name : String) : Reference :=
  .object k.group k.name ns name

structure Workload where
  selector : Selector
  template : PodTemplate

namespace Workload

def labels (w : Workload) : Option (Table String String) := w.template.metadata.bind (·.labels)

def volumes (w : Workload) : List Volume := (w.template.spec.bind (·.volumes)).getD []

def mounts (w : Workload) : List VolumeMount :=
  w.template.containers.flatMap fun c ↦ c.volumeMounts.getD []

def ListensAt (w : Workload) (port : Int32) : Prop :=
  ∃ c ∈ w.template.containers, ∃ p ∈ c.ports.getD [], p.number = port

end Workload

namespace PodSpec

def references (ns : Option String) (p : PodSpec) : List Reference :=
  p.serviceAccountName.toList.map (.named .serviceAccount ns) ++
    (p.imagePullSecrets.getD []).map (.named .secret ns) ++
    ((p.volumes.getD []).filterMap (·.claim)).map (.named .persistentVolumeClaim ns ·.name) ++
    p.containers.flatMap fun c ↦ ((c.env.getD []).filterMap (·.source)).flatMap fun s ↦
      (s.secretKey.toList.map fun e ↦ .secretKey ns e.name e.key) ++
        s.configMapKey.toList.map fun e ↦ .configMapKey ns e.name e.key

end PodSpec

/-- The backends of its rules, after the one for what no rule applies to. -/
def IngressContent.backends (c : IngressContent) : List IngressBackend :=
  (c.spec.bind (·.defaultBackend)).toList ++
    (((c.spec.bind (·.rules)).getD []).flatMap fun r ↦ r.http.getD []).map (·.backend)

namespace Content

def workload? : {k : Kind} → Content k → Option Workload
  | .deployment, (c : DeploymentContent) => c.spec.map fun s ↦ ⟨s.selector, s.template⟩
  | .statefulSet, (c : StatefulSetContent) => c.spec.map fun s ↦ ⟨s.selector, s.template⟩
  | .submarine, _ | .configMap, _ | .service, _ | .serviceAccount, _ | .secret, _
  | .persistentVolumeClaim, _ | .ingress, _ | .role, _ | .roleBinding, _ | .ingressRoute, _ => none

/-- The service by which the pods of a stateful set are known. It may come later. -/
def governor? : {k : Kind} → Content k → Option String
  | .statefulSet, (c : StatefulSetContent) => c.spec.bind (·.serviceName)
  | _, _ => none

/-- What the content of an object in the namespace refers to, its governing service apart. -/
def references (ns : Option String) : {k : Kind} → Content k → List Reference
  | .deployment, (c : DeploymentContent) =>
    ((c.spec.bind (·.template.spec)).map (·.references ns)).getD []
  | .statefulSet, (c : StatefulSetContent) =>
    ((c.spec.bind (·.template.spec)).map (·.references ns)).getD []
  | .service, (c : ServiceContent) =>
    [.pods ns ((c.spec.bind (·.selector)).getD ∅)
      (((c.spec.bind (·.ports)).getD []).map (·.targetPort))]
  | .ingress, (c : IngressContent) =>
    c.backends.flatMap fun b ↦
      (b.service.toList.map fun s ↦ .backend ns s.name (s.port.getD {})) ++
        b.resource.toList.map fun r ↦ .object (r.apiGroup.getD "") r.kind ns r.name
  | .ingressRoute, (c : IngressRouteContent) =>
    (c.spec.routes.flatMap (·.services)).map fun s ↦ .backend ns s.name { number := some s.port }
  | .roleBinding, (c : RoleBindingContent) =>
    .object c.roleRef.apiGroup c.roleRef.kind ns c.roleRef.name ::
      (c.subjects.getD []).map fun s ↦ .object (s.apiGroup.getD "") s.kind s.ns s.name
  | .submarine, _ | .configMap, _ | .serviceAccount, _ | .secret, _ | .persistentVolumeClaim, _
  | .role, _ => []

end Content

namespace Object

def references (o : Object k) : List Reference := o.content.references o.metadata.ns

def IsAt (o : Object k) (ns : Option String) (name : String) : Prop :=
  o.metadata.name = some name ∧ o.metadata.ns = ns

def secretData (s : Object .secret) : Table String (List UInt8) :=
  let content : SecretContent := s.content
  content.data.getD ∅

def configData (m : Object .configMap) : Table String String :=
  let content : ConfigMapContent := m.content
  content.data.getD ∅

def servicePorts (s : Object .service) : List ServicePort :=
  let content : ServiceContent := s.content
  (content.spec.bind (·.ports)).getD []

end Object

/-- By number, or by name if there is no number. -/
def BackendPort.Picks (b : BackendPort) (p : ServicePort) : Prop :=
  b.number = some p.port ∨ b.number = none ∧ b.name.isSome ∧ b.name = p.name

namespace Reference

def FoundAmong (objects : List AnyObject) : Reference → Prop
  | object group kind ns name =>
    ∃ a ∈ objects, a.kind.group = group ∧ a.kind.name = kind ∧ a.object.IsAt ns name
  | secretKey ns name key =>
    ∃ s : Object .secret, ⟨_, s⟩ ∈ objects ∧ s.IsAt ns name ∧ s.secretData.contains key
  | configMapKey ns name key =>
    ∃ m : Object .configMap, ⟨_, m⟩ ∈ objects ∧ m.IsAt ns name ∧ m.configData.contains key
  | backend ns name port =>
    ∃ s : Object .service, ⟨_, s⟩ ∈ objects ∧ s.IsAt ns name ∧ ∃ p ∈ s.servicePorts, port.Picks p
  | pods ns labels ports =>
    labels ≠ ∅ ∧ ports ≠ [] ∧ ∃ a ∈ objects, a.object.metadata.ns = ns ∧
      ∃ w, a.object.content.workload? = some w ∧
        (∀ e ∈ labels.entries, e ∈ (w.labels.getD ∅).entries) ∧
        ∀ p ∈ ports, ∃ n, p = some (.number n) ∧ w.ListensAt n

end Reference

end Submarine
