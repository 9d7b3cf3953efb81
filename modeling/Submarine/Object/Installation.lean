import Submarine.Object.Metadata

namespace Submarine

open Json

structure ServerSpec where
  image : Option String := none
  replicas : Int32 := 1
deriving DecidableEq, Inhabited

structure DatabaseSpec where
  image : Option String := none
  replicas : Int32 := 1
  storageSize : String := "1Gi"
  -- A secret of the user's that holds the root password; unset, one is created.
  rootPasswordSecret : Option String := none
deriving DecidableEq, Inhabited

structure AuxiliarySpec where
  enabled : Bool := true
  storageSize : String := "1Gi"
deriving DecidableEq, Inhabited

structure StorageSpec where
  storageType : String
  storageClassName : Option String := none
deriving DecidableEq, Inhabited

structure CommonImage where
  pullSecrets : List String := []
deriving DecidableEq, Inhabited

structure CommonSpec where
  image : CommonImage := {}
deriving DecidableEq, Inhabited

structure InstallationSpec where
  version : String
  server : ServerSpec := {}
  database : DatabaseSpec := {}
  tensorboard : AuxiliarySpec := {}
  mlflow : AuxiliarySpec := {}
  minio : AuxiliarySpec := {}
  storage : StorageSpec
  common : Option CommonSpec := none
deriving DecidableEq, Inhabited

inductive Phase where
  | creating
  | running
deriving DecidableEq, Inhabited, Repr

structure InstallationState where
  phase : Phase := .creating
  lastTransitionTime : Option Time.Instant := none
deriving DecidableEq, Inhabited

structure InstallationStatus where
  availableServerReplicas : Int32 := 0
  availableDatabaseReplicas : Int32 := 0
  state : InstallationState := {}
deriving DecidableEq, Inhabited

namespace ServerSpec

def toJson (s : ServerSpec) : Json :=
  record [("image", s.image.map .string), ("replicas", some (ofInt32 s.replicas))]

def reader : Reader ServerSpec :=
  .record <| ServerSpec.mk <$> .optional "image" .string <*> .withDefault "replicas" 1 .int32

end ServerSpec

namespace DatabaseSpec

def toJson (s : DatabaseSpec) : Json :=
  record [("image", s.image.map .string), ("replicas", some (ofInt32 s.replicas)),
    ("storageSize", some (.string s.storageSize)),
    ("mysqlRootPasswordSecret", s.rootPasswordSecret.map .string)]

def reader : Reader DatabaseSpec :=
  .record <| DatabaseSpec.mk <$> .optional "image" .string <*> .withDefault "replicas" 1 .int32 <*>
    .withDefault "storageSize" "1Gi" .string <*> .optional "mysqlRootPasswordSecret" .string

end DatabaseSpec

namespace AuxiliarySpec

def toJson (s : AuxiliarySpec) : Json :=
  record [("enabled", some (.bool s.enabled)), ("storageSize", some (.string s.storageSize))]

def reader : Reader AuxiliarySpec :=
  .record <| AuxiliarySpec.mk <$> .withDefault "enabled" true .bool <*>
    .withDefault "storageSize" "1Gi" .string

end AuxiliarySpec

namespace StorageSpec

def toJson (s : StorageSpec) : Json :=
  record [("storageType", some (.string s.storageType)),
    ("storageClassName", s.storageClassName.map .string)]

def reader : Reader StorageSpec :=
  .record <| StorageSpec.mk <$> .required "storageType" .string <*>
    .optional "storageClassName" .string

end StorageSpec

namespace CommonImage

def toJson (c : CommonImage) : Json := record [("pullSecrets", some (ofTexts c.pullSecrets))]

def reader : Reader CommonImage :=
  .record <| CommonImage.mk <$> .withDefault "pullSecrets" [] .texts

end CommonImage

namespace CommonSpec

def toJson (c : CommonSpec) : Json := record [("image", some c.image.toJson)]

def reader : Reader CommonSpec :=
  .record <| CommonSpec.mk <$> .withDefault "image" {} CommonImage.reader

end CommonSpec

namespace InstallationSpec

def toJson (s : InstallationSpec) : Json :=
  record [("version", some (.string s.version)), ("server", some s.server.toJson),
    ("database", some s.database.toJson), ("tensorboard", some s.tensorboard.toJson),
    ("mlflow", some s.mlflow.toJson), ("minio", some s.minio.toJson),
    ("storage", some s.storage.toJson), ("common", s.common.map CommonSpec.toJson)]

def reader : Reader InstallationSpec :=
  .record <| InstallationSpec.mk <$> .required "version" .string <*>
    .withDefault "server" {} ServerSpec.reader <*>
    .withDefault "database" {} DatabaseSpec.reader <*>
    .withDefault "tensorboard" {} AuxiliarySpec.reader <*>
    .withDefault "mlflow" {} AuxiliarySpec.reader <*>
    .withDefault "minio" {} AuxiliarySpec.reader <*> .required "storage" StorageSpec.reader <*>
    .optional "common" CommonSpec.reader

end InstallationSpec

namespace Phase

def name : Phase → String
  | creating => "Creating"
  | running => "Running"

/-- Earlier releases spell a phase in capitals. -/
def ofName? (s : String) : Option Phase :=
  if s = "Creating" ∨ s = "CREATING" then some creating
  else if s = "Running" ∨ s = "RUNNING" then some running
  else none

def toJson (p : Phase) : Json := .string p.name

def reader : Reader Phase := .oneOf ofName?

end Phase

namespace InstallationState

def toJson (s : InstallationState) : Json :=
  record [("state", some s.phase.toJson),
    ("lastTransitionTime", s.lastTransitionTime.map fun t ↦ .string (Time.Rfc3339.render t))]

def reader : Reader InstallationState :=
  .record <| InstallationState.mk <$> .required "state" Phase.reader <*>
    .optional "lastTransitionTime" .time

end InstallationState

namespace InstallationStatus

def toJson (s : InstallationStatus) : Json :=
  record [("availableServerReplicas", some (ofInt32 s.availableServerReplicas)),
    ("availableDatabaseReplicas", some (ofInt32 s.availableDatabaseReplicas)),
    ("submarineState", some s.state.toJson)]

def reader : Reader InstallationStatus :=
  .record <| InstallationStatus.mk <$> .withDefault "availableServerReplicas" 0 .int32 <*>
    .withDefault "availableDatabaseReplicas" 0 .int32 <*>
    .withDefault "submarineState" {} InstallationState.reader

end InstallationStatus

end Submarine
