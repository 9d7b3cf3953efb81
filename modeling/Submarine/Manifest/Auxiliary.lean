import Submarine.Manifest.Basic

namespace Submarine.Manifest

structure Auxiliary where
  name : String
  port : Int32
  path : String
  mountPath : String
  image : Root → String
  args : List String := []
  env : List (String × String) := []
  settings : Root → AuxiliarySpec

namespace Auxiliary

def tensorboard : Auxiliary where
  name := "submarine-tensorboard"
  port := 6006
  path := "/tensorboard"
  mountPath := "/logs"
  image _ := "tensorflow/tensorflow:1.11.0"
  args := ["tensorboard", "--logdir=/logs", "--path_prefix=/tensorboard"]
  settings root := root.spec.tensorboard

def mlflow : Auxiliary where
  name := "submarine-mlflow"
  port := 5000
  path := "/mlflow"
  mountPath := "/logs"
  image root := "apache/submarine:mlflow-" ++ root.spec.version
  settings root := root.spec.mlflow

def minio : Auxiliary where
  name := "submarine-minio"
  port := 9000
  path := "/minio"
  mountPath := "/data"
  image _ := "minio/minio:RELEASE.2021-02-14T04-01-33Z"
  args := ["server", "/data"]
  env := [("MINIO_ACCESS_KEY", "submarine_minio"), ("MINIO_SECRET_KEY", "submarine_minio")]
  settings root := root.spec.minio

/-- In the order in which they are converged. -/
def all : List Auxiliary := [tensorboard, mlflow, minio]

def enabled (aux : Auxiliary) (root : Root) : Bool := (aux.settings root).enabled

def claimName (aux : Auxiliary) : String := aux.name ++ "-pvc"

def serviceName (aux : Auxiliary) : String := aux.name ++ "-service"

def routeName (aux : Auxiliary) : String := aux.name ++ "-ingressroute"

def persistentVolumeClaim (aux : Auxiliary) (root : Root) : Object .persistentVolumeClaim :=
  Manifest.persistentVolumeClaim root aux.claimName (aux.settings root).storageSize

def ifAny {α : Type} (l : List α) : Option (List α) := if l.isEmpty then none else some l

def deployment (aux : Auxiliary) (root : Root) : Object .deployment where
  metadata := metadata root aux.name
  content := show DeploymentContent from {
    spec := some {
      replicas := some 1
      selector := selector aux.name
      template := {
        metadata := some (podMetadata aux.name)
        spec := some {
          imagePullSecrets := pullSecrets root
          containers := [{
            name := aux.name
            image := some (aux.image root)
            imagePullPolicy := some "IfNotPresent"
            args := ifAny aux.args
            env := ifAny (aux.env.map fun e ↦ { name := e.1, value := some e.2 })
            ports := some [{ number := aux.port }]
            volumeMounts := some [{ name := volumeName, mountPath := aux.mountPath }] }]
          volumes := some [claimVolume aux.claimName] } } } }

def service (aux : Auxiliary) (root : Root) : Object .service :=
  Manifest.service root aux.serviceName aux.name aux.port

def ingressRoute (aux : Auxiliary) (root : Root) : Object .ingressRoute where
  metadata := metadata root aux.routeName
  content := show IngressRouteContent from {
    spec := {
      entryPoints := ["web"]
      routes := [{
        kind := "Rule"
        expression := "PathPrefix(`" ++ aux.path ++ "`)"
        services := [{ name := aux.serviceName, port := aux.port }] }] } }

end Auxiliary

end Submarine.Manifest
