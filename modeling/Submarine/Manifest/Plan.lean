import Submarine.Manifest.Auxiliary
import Submarine.Manifest.Database
import Submarine.Manifest.Server

namespace Submarine

structure AnyChild where
  kind : Kind
  child : Child kind

namespace Child

open Manifest

def serverAccount : Child .serviceAccount := ⟨Server.name, Server.serviceAccount⟩

def serverDeployment : Child .deployment := ⟨Server.name, Server.deployment⟩

def serverService : Child .service := ⟨Server.name, Server.service⟩

def databaseClaim : Child .persistentVolumeClaim :=
  ⟨Database.claimName, Database.persistentVolumeClaim⟩

def databaseSecret : Child .secret := ⟨Database.secretName, Database.secret⟩

def databaseSet : Child .statefulSet := ⟨Database.name, Database.statefulSet⟩

def databaseService : Child .service := ⟨Database.name, Database.service⟩

def serverIngress : Child .ingress := ⟨Server.ingressName, Server.ingress⟩

def serverRole : Child .role := ⟨Server.name, Server.role⟩

def serverRoleBinding : Child .roleBinding := ⟨Server.name, Server.roleBinding⟩

def auxiliaryClaim (aux : Auxiliary) : Child .persistentVolumeClaim :=
  ⟨aux.claimName, aux.persistentVolumeClaim⟩

def auxiliaryDeployment (aux : Auxiliary) : Child .deployment := ⟨aux.name, aux.deployment⟩

def auxiliaryService (aux : Auxiliary) : Child .service := ⟨aux.serviceName, aux.service⟩

def auxiliaryRoute (aux : Auxiliary) : Child .ingressRoute := ⟨aux.routeName, aux.ingressRoute⟩

end Child

namespace Plan

open Child Manifest

def server : List AnyChild :=
  [⟨_, serverAccount⟩, ⟨_, serverDeployment⟩, ⟨_, serverService⟩]

def database (root : Root) : List AnyChild :=
  [⟨_, databaseClaim⟩] ++ (if Database.managesSecret root then [⟨_, databaseSecret⟩] else []) ++
    [⟨_, databaseSet⟩, ⟨_, databaseService⟩]

def access : List AnyChild :=
  [⟨_, serverIngress⟩, ⟨_, serverRole⟩, ⟨_, serverRoleBinding⟩]

def auxiliary (aux : Auxiliary) : List AnyChild :=
  [⟨_, auxiliaryClaim aux⟩, ⟨_, auxiliaryDeployment aux⟩, ⟨_, auxiliaryService aux⟩,
    ⟨_, auxiliaryRoute aux⟩]

def auxiliaries (root : Root) : List AnyChild :=
  ([.tensorboard, .mlflow, .minio].filter (·.enabled root)).flatMap auxiliary

end Plan

def plan (root : Root) : List AnyChild :=
  Plan.server ++ Plan.database root ++ Plan.access ++ Plan.auxiliaries root

end Submarine
