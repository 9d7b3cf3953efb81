import Submarine.Object.Installation
import Submarine.Schema.Basic

namespace Submarine

open Presence

def imageMember (part : String) : SchemaMember Schema :=
  ⟨"image", some ("Full image reference, overrides \x60apache/submarine:" ++ part ++
    "-<version>\x60"), optional, .text⟩

def ServerSpec.schema : Schema :=
  .record [imageMember "server",
    ⟨"replicas", some "Number of server replicas",
      defaultsTo (Json.ofInt32 (ServerSpec.replicas {})), .int32⟩]

def DatabaseSpec.schema : Schema :=
  .record [imageMember "database",
    ⟨"replicas", some "Number of database replicas",
      defaultsTo (Json.ofInt32 (DatabaseSpec.replicas {})), .int32⟩,
    ⟨"storageSize", some "Requested size of the database volume",
      defaultsTo (.string (DatabaseSpec.storageSize {})), .text⟩,
    ⟨"mysqlRootPasswordSecret",
      some ("Name of a user-managed secret holding \x60MYSQL_ROOT_PASSWORD\x60.\n" ++
        "When unset the controller creates \x60submarine-database-secret\x60."), optional, .text⟩]

def AuxiliarySpec.schema : Schema :=
  .record [⟨"enabled", some "Whether the service is deployed",
      defaultsTo (.bool (AuxiliarySpec.enabled {})), .flag⟩,
    ⟨"storageSize", some "Requested size of the service volume",
      defaultsTo (.string (AuxiliarySpec.storageSize {})), .text⟩]

def StorageSpec.schema : Schema :=
  .record [⟨"storageType", some "Storage backend, one of \x60nfs\x60 or \x60host\x60", required,
      .text⟩,
    ⟨"storageClassName", some "Storage class for the claims, defaults by storage type", optional,
      .text⟩]

def CommonImage.schema : Schema :=
  .record [⟨"pullSecrets", some "Image pull secrets attached to every workload",
    defaultsTo (Json.ofTexts (CommonImage.pullSecrets {})), .list .text⟩]

def CommonSpec.schema : Schema :=
  .record [⟨"image", some "Image settings shared by every workload",
    defaultsTo (CommonSpec.image {}).toJson, CommonImage.schema⟩]

def auxiliaryMember (name description : String) : SchemaMember Schema :=
  ⟨name, some description, defaultsTo (AuxiliarySpec.toJson {}), AuxiliarySpec.schema⟩

def InstallationSpec.schema : Schema :=
  .record [⟨"version", some "Release used for the default image tags (e.g. \"0.8.0\")", required,
      .text⟩,
    ⟨"server", some "Submarine server settings", defaultsTo (ServerSpec.toJson {}),
      ServerSpec.schema⟩,
    ⟨"database", some "Database settings", defaultsTo (DatabaseSpec.toJson {}),
      DatabaseSpec.schema⟩,
    auxiliaryMember "tensorboard" "Tensorboard settings",
    auxiliaryMember "mlflow" "MLflow settings",
    auxiliaryMember "minio" "Minio settings",
    ⟨"storage", some "Backing storage for every persistent volume claim", required,
      StorageSpec.schema⟩,
    ⟨"common", some "Settings shared by every workload", optional, CommonSpec.schema⟩]

def InstallationState.schema : Schema :=
  .record [⟨"state", some "Current phase", required, .choice [Phase.creating.name,
      Phase.running.name]⟩,
    ⟨"lastTransitionTime", some "When \x60state\x60 last changed", optional, .time⟩]

def InstallationStatus.schema : Schema :=
  .record [⟨"availableServerReplicas", some "Available replicas of the server deployment",
      defaultsTo (Json.ofInt32 (InstallationStatus.availableServerReplicas {})), .int32⟩,
    ⟨"availableDatabaseReplicas", some "Available replicas of the database statefulset",
      defaultsTo (Json.ofInt32 (InstallationStatus.availableDatabaseReplicas {})), .int32⟩,
    ⟨"submarineState", some "Aggregated installation state",
      defaultsTo (InstallationState.toJson {}), InstallationState.schema⟩]

end Submarine
