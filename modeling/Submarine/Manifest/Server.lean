import Submarine.Manifest.Basic

namespace Submarine.Manifest.Server

def name : String := "submarine-server"

def ingressName : String := "submarine-server-ingress"

def port : Int32 := 8080

def image (root : Root) : String :=
  root.spec.server.image.getD ("apache/submarine:server-" ++ root.spec.version)

def serviceAccount (root : Root) : Object .serviceAccount where
  metadata := metadata root name
  content := show ServiceAccountContent from {}

def deployment (root : Root) : Object .deployment where
  metadata := metadata root name
  content := show DeploymentContent from {
    spec := some {
      replicas := some root.spec.server.replicas
      selector := selector name
      template := {
        metadata := some (podMetadata name)
        spec := some {
          serviceAccountName := some name
          imagePullSecrets := pullSecrets root
          containers := [{
            name
            image := some (image root)
            imagePullPolicy := some "IfNotPresent"
            env := some [
              { name := "SUBMARINE_SERVER_PORT", value := some "8080" },
              { name := "SUBMARINE_UID", value := root.metadata.uid }]
            ports := some [{ number := port }] }] } } } }

def service (root : Root) : Object .service := Manifest.service root name name port

def ingress (root : Root) : Object .ingress where
  metadata := metadata root ingressName
  content := show IngressContent from {
    spec := some {
      rules := some [{
        http := some [{
          path := some "/"
          pathType := "Prefix"
          backend := { service := some { name, port := some { number := some port } } } }] }] } }

def rule (apiGroup : String) (resources : List String) : PolicyRule where
  apiGroups := some [apiGroup]
  resources := some resources
  verbs := ["*"]

def role (root : Root) : Object .role where
  metadata := metadata root name
  content := show RoleContent from {
    rules := some [
      rule "kubeflow.org" ["tfjobs", "tfjobs/status", "pytorchjobs", "pytorchjobs/status",
        "notebooks", "notebooks/status"],
      rule "traefik.containo.us" ["ingressroutes"],
      rule "" ["pods", "pods/log", "services", "persistentvolumeclaims", "events", "configmaps"],
      rule "apps" ["deployments", "deployments/status"]] }

def roleBinding (root : Root) : Object .roleBinding where
  metadata := metadata root name
  content := show RoleBindingContent from {
    roleRef := { apiGroup := "rbac.authorization.k8s.io", kind := "Role", name }
    subjects := some [{ kind := "ServiceAccount", name, ns := root.metadata.ns }] }

end Submarine.Manifest.Server
