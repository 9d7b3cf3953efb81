namespace Submarine

inductive Kind where
  | submarine
  | configMap
  | deployment
  | statefulSet
  | service
  | serviceAccount
  | secret
  | persistentVolumeClaim
  | ingress
  | role
  | roleBinding
  | ingressRoute
deriving DecidableEq, Repr

namespace Kind

def all : List Kind :=
  [.configMap, .deployment, .ingress, .ingressRoute, .persistentVolumeClaim, .role, .roleBinding,
    .secret, .service, .serviceAccount, .statefulSet, .submarine]

def name : Kind → String
  | submarine => "Submarine"
  | configMap => "ConfigMap"
  | deployment => "Deployment"
  | statefulSet => "StatefulSet"
  | service => "Service"
  | serviceAccount => "ServiceAccount"
  | secret => "Secret"
  | persistentVolumeClaim => "PersistentVolumeClaim"
  | ingress => "Ingress"
  | role => "Role"
  | roleBinding => "RoleBinding"
  | ingressRoute => "IngressRoute"

def group : Kind → String
  | submarine => "submarine.apache.org"
  | ingressRoute => "traefik.containo.us"
  | deployment | statefulSet => "apps"
  | ingress => "networking.k8s.io"
  | role | roleBinding => "rbac.authorization.k8s.io"
  | configMap | service | serviceAccount | secret | persistentVolumeClaim => ""

def version : Kind → String
  | submarine | ingressRoute => "v1alpha1"
  | _ => "v1"

def apiVersion (k : Kind) : String :=
  if k.group = "" then k.version else k.group ++ "/" ++ k.version

def plural : Kind → String
  | submarine => "submarines"
  | configMap => "configmaps"
  | deployment => "deployments"
  | statefulSet => "statefulsets"
  | service => "services"
  | serviceAccount => "serviceaccounts"
  | secret => "secrets"
  | persistentVolumeClaim => "persistentvolumeclaims"
  | ingress => "ingresses"
  | role => "roles"
  | roleBinding => "rolebindings"
  | ingressRoute => "ingressroutes"

def ofName? (name : String) : Option Kind := all.find? (·.name = name)

theorem name_injective {a b : Kind} (h : a.name = b.name) : a = b := by
  cases a <;> cases b <;> first | rfl | (revert h; decide)

theorem mem_all (k : Kind) : k ∈ all := by cases k <;> decide

end Kind

end Submarine
