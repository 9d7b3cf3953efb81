import Submarine.Object.Basic

namespace Submarine

/-- A declared object: the name it has in the root's namespace, and how it is built. -/
structure Child (k : Kind) where
  name : String
  build : Root → Object k

namespace Manifest

def defaultStorageClass (storageType : String) : String :=
  if storageType = "host" then "local-path" else "nfs-client"

/-- A workload, its pods and its service share these labels. -/
def labels (app : String) : Table String String := (∅ : Table String String).insert "app" app

def metadata (root : Root) (name : String) : Metadata :=
  { name := some name, ns := root.metadata.ns, labels := some (labels name) }

def selector (app : String) : Selector := { matchLabels := some (labels app) }

def podMetadata (app : String) : Metadata := { labels := some (labels app) }

def pullSecrets (root : Root) : Option (List String) :=
  match root.spec.common with
  | some common => if common.image.pullSecrets.isEmpty then none else some common.image.pullSecrets
  | none => none

def persistentVolumeClaim (root : Root) (name size : String) :
    Object .persistentVolumeClaim where
  metadata := metadata root name
  content := show ClaimContent from {
    spec := some {
      accessModes := some ["ReadWriteOnce"]
      storageClassName := some
        (root.spec.storage.storageClassName.getD
          (defaultStorageClass root.spec.storage.storageType))
      resources := some
        { requests := some ((∅ : Table String String).insert "storage" size) } } }

/-- A service that forwards the port to the pods of the application. Protocol and target port are
spelled out, as the API would fill them in. -/
def service (root : Root) (name app : String) (port : Int32) : Object .service where
  metadata := metadata root name
  content := show ServiceContent from {
    spec := some {
      selector := some (labels app)
      ports := some [{
        name := some "http"
        port
        protocol := some "TCP"
        targetPort := some (.number port) }] } }

def volumeName : String := "volume"

def claimVolume (claim : String) : Volume := { name := volumeName, claim := some { name := claim } }

end Manifest

end Submarine
