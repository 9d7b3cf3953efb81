import Submarine.Object.Basic

namespace Submarine

namespace PodTemplate

def containers (t : PodTemplate) : List Container := (t.spec.map (·.containers)).getD []

def pullSecrets (t : PodTemplate) : List String := (t.spec.bind (·.imagePullSecrets)).getD []

end PodTemplate

namespace Drift

def containerAgrees (live desired : Container) : Bool :=
  live.image = desired.image && live.env.getD [] = desired.env.getD []

/-- Replicas, the number of containers, the first of them, and the pull secrets. -/
def workloadAgrees (liveReplicas desiredReplicas : Option Int32) (live desired : PodTemplate) :
    Bool :=
  live.containers.length = desired.containers.length &&
    liveReplicas.getD 1 = desiredReplicas.getD 1 &&
    (match live.containers.head?, desired.containers.head? with
      | some c, some d => containerAgrees c d
      | none, none => true
      | _, _ => false) &&
    live.pullSecrets = desired.pullSecrets

def deploymentAgrees (live desired : DeploymentContent) : Bool :=
  match live.spec, desired.spec with
  | some c, some d => workloadAgrees c.replicas d.replicas c.template d.template
  | none, none => true
  | _, _ => false

def statefulSetAgrees (live desired : StatefulSetContent) : Bool :=
  match live.spec, desired.spec with
  | some c, some d => workloadAgrees c.replicas d.replicas c.template d.template
  | none, none => true
  | _, _ => false

def serviceAgrees (live desired : ServiceContent) : Bool :=
  live.spec.map (·.selector) = desired.spec.map (·.selector) &&
    live.spec.map (·.ports) = desired.spec.map (·.ports)

end Drift

open Drift in
/-- Whether the live content needs no update. Claims and service accounts never do, for a bound
claim cannot be changed. -/
def Content.agreesWith : {k : Kind} → Content k → Content k → Bool
  | .deployment, live, desired => deploymentAgrees live desired
  | .statefulSet, live, desired => statefulSetAgrees live desired
  | .service, live, desired => serviceAgrees live desired
  | .secret, (live : SecretContent), (desired : SecretContent) => live.data = desired.data
  | .role, (live : RoleContent), (desired : RoleContent) => live.rules = desired.rules
  | .roleBinding, (live : RoleBindingContent), (desired : RoleBindingContent) =>
    live.roleRef = desired.roleRef && live.subjects = desired.subjects
  | .ingress, (live : IngressContent), (desired : IngressContent) =>
    live.spec.map (·.rules) = desired.spec.map (·.rules)
  | .ingressRoute, (live : IngressRouteContent), (desired : IngressRouteContent) =>
    live.spec = desired.spec
  | .persistentVolumeClaim, _, _ | .serviceAccount, _, _ => true
  | .submarine, live, desired | .configMap, live, desired => live = desired

def Object.agreesWith {k : Kind} (live desired : Object k) : Bool :=
  live.content.agreesWith desired.content

end Submarine
