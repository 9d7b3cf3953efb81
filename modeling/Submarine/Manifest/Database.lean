import Submarine.Manifest.Basic

namespace Submarine.Manifest.Database

def name : String := "submarine-database"

def claimName : String := "submarine-database-pvc"

def secretName : String := "submarine-database-secret"

def passwordKey : String := "MYSQL_ROOT_PASSWORD"

def port : Int32 := 3306

/-- The bytes of `password`. -/
def defaultPassword : List UInt8 := [112, 97, 115, 115, 119, 111, 114, 100]

def image (root : Root) : String :=
  root.spec.database.image.getD ("apache/submarine:database-" ++ root.spec.version)

/-- Whether the secret is declared, which it is unless the user names one. -/
def managesSecret (root : Root) : Bool := root.spec.database.rootPasswordSecret.isNone

def passwordSecretName (root : Root) : String :=
  root.spec.database.rootPasswordSecret.getD secretName

def persistentVolumeClaim (root : Root) : Object .persistentVolumeClaim :=
  Manifest.persistentVolumeClaim root claimName root.spec.database.storageSize

def secret (root : Root) : Object .secret where
  metadata := metadata root secretName
  content := show SecretContent from {
    type := some "Opaque"
    data := some ((∅ : Table String (List UInt8)).insert passwordKey defaultPassword) }

def statefulSet (root : Root) : Object .statefulSet where
  metadata := metadata root name
  content := show StatefulSetContent from {
    spec := some {
      replicas := some root.spec.database.replicas
      serviceName := some name
      selector := selector name
      template := {
        metadata := some (podMetadata name)
        spec := some {
          imagePullSecrets := pullSecrets root
          containers := [{
            name
            image := some (image root)
            imagePullPolicy := some "IfNotPresent"
            env := some [{
              name := passwordKey
              source := some
                { secretKey := some { name := passwordSecretName root, key := passwordKey } } }]
            ports := some [{ number := port }]
            volumeMounts := some
              [{ name := volumeName, mountPath := "/var/lib/mysql", subPath := some "mysql" }] }]
          volumes := some [claimVolume claimName] } } } }

def service (root : Root) : Object .service := Manifest.service root name name port

end Submarine.Manifest.Database
