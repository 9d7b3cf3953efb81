import Submarine.Object.Metadata

namespace Submarine

structure EntryKey where
  name : String
  key : String
  isOptional : Option Bool := none
deriving DecidableEq, Inhabited

structure PodField where
  path : String
  apiVersion : Option String := none
deriving DecidableEq, Inhabited

/-- What a container may use of a resource, in units of the divisor. -/
structure ResourceField where
  resource : String
  containerName : Option String := none
  divisor : Option String := none
deriving DecidableEq, Inhabited

structure EnvSource where
  secretKey : Option EntryKey := none
  configMapKey : Option EntryKey := none
  field : Option PodField := none
  resourceField : Option ResourceField := none
deriving DecidableEq, Inhabited

structure EnvVar where
  name : String
  value : Option String := none
  source : Option EnvSource := none
deriving DecidableEq, Inhabited

structure VolumeMount where
  name : String
  mountPath : String
  subPath : Option String := none
  others : Remainder ["mountPropagation", "readOnly", "recursiveReadOnly", "subPathExpr"] := .none _
deriving DecidableEq, Inhabited

structure ContainerPort where
  number : Int32
  others : Remainder ["hostIP", "hostPort", "name", "protocol"] := .none _
deriving DecidableEq, Inhabited

structure Container where
  name : String
  image : Option String := none
  imagePullPolicy : Option String := none
  args : Option (List String) := none
  command : Option (List String) := none
  env : Option (List EnvVar) := none
  ports : Option (List ContainerPort) := none
  volumeMounts : Option (List VolumeMount) := none
  others : Remainder ["envFrom", "lifecycle", "livenessProbe", "readinessProbe", "resizePolicy",
    "resources", "restartPolicy", "securityContext", "startupProbe", "stdin", "stdinOnce",
    "terminationMessagePath", "terminationMessagePolicy", "tty", "volumeDevices", "workingDir"] :=
    .none _
deriving DecidableEq, Inhabited

structure ClaimSource where
  name : String
  isReadOnly : Option Bool := none
deriving DecidableEq, Inhabited

structure Volume where
  name : String
  claim : Option ClaimSource := none
  others : Remainder ["awsElasticBlockStore", "azureDisk", "azureFile", "cephfs", "cinder",
    "configMap", "csi", "downwardAPI", "emptyDir", "ephemeral", "fc", "flexVolume", "flocker",
    "gcePersistentDisk", "gitRepo", "glusterfs", "hostPath", "iscsi", "nfs", "photonPersistentDisk",
    "portworxVolume", "projected", "quobyte", "rbd", "scaleIO", "secret", "storageos",
    "vsphereVolume"] := .none _
deriving DecidableEq, Inhabited

structure PodSpec where
  containers : List Container
  serviceAccountName : Option String := none
  restartPolicy : Option String := none
  imagePullSecrets : Option (List String) := none
  volumes : Option (List Volume) := none
  others : Remainder ["activeDeadlineSeconds", "affinity", "automountServiceAccountToken",
    "dnsConfig", "dnsPolicy", "enableServiceLinks", "ephemeralContainers", "hostAliases", "hostIPC",
    "hostNetwork", "hostPID", "hostUsers", "hostname", "initContainers", "nodeName", "nodeSelector",
    "os", "overhead", "preemptionPolicy", "priority", "priorityClassName", "readinessGates",
    "resourceClaims", "runtimeClassName", "schedulerName", "schedulingGates", "securityContext",
    "serviceAccount", "setHostnameAsFQDN", "shareProcessNamespace", "subdomain",
    "terminationGracePeriodSeconds", "tolerations", "topologySpreadConstraints"] := .none _
deriving DecidableEq, Inhabited

structure PodTemplate where
  metadata : Option Metadata := none
  spec : Option PodSpec := none
deriving DecidableEq, Inhabited

structure Selector where
  matchLabels : Option (Table String String) := none
  others : Remainder ["matchExpressions"] := .none _
deriving DecidableEq, Inhabited

open Json

def namedText (member : String) (s : String) : Json := record [(member, some (.string s))]

def namedTextReader (member : String) : Reader String := .resource <| .text member

namespace EntryKey

def toJson (r : EntryKey) : Json :=
  record [("name", some (.string r.name)), ("key", some (.string r.key)),
    ("optional", r.isOptional.map .bool)]

def reader : Reader EntryKey :=
  .resource <| EntryKey.mk <$> .text "name" <*> .text "key" <*> .optional "optional" .bool

end EntryKey

namespace PodField

def toJson (r : PodField) : Json :=
  record [("fieldPath", some (.string r.path)), ("apiVersion", r.apiVersion.map .string)]

def reader : Reader PodField :=
  .resource <| PodField.mk <$> .text "fieldPath" <*> .optional "apiVersion" .string

end PodField

namespace ResourceField

def toJson (r : ResourceField) : Json :=
  record [("resource", some (.string r.resource)), ("containerName", r.containerName.map .string),
    ("divisor", r.divisor.map .string)]

def reader : Reader ResourceField :=
  .resource <| ResourceField.mk <$> .text "resource" <*> .optional "containerName" .string <*>
    .optional "divisor" .quantity

end ResourceField

namespace EnvSource

def toJson (s : EnvSource) : Json :=
  record [("secretKeyRef", s.secretKey.map EntryKey.toJson),
    ("configMapKeyRef", s.configMapKey.map EntryKey.toJson),
    ("fieldRef", s.field.map PodField.toJson),
    ("resourceFieldRef", s.resourceField.map ResourceField.toJson)]

def reader : Reader EnvSource :=
  .resource <| EnvSource.mk <$> .optional "secretKeyRef" EntryKey.reader <*>
    .optional "configMapKeyRef" EntryKey.reader <*> .optional "fieldRef" PodField.reader <*>
    .optional "resourceFieldRef" ResourceField.reader

end EnvSource

namespace EnvVar

def toJson (e : EnvVar) : Json :=
  record [("name", some (.string e.name)), ("value", e.value.map .string),
    ("valueFrom", e.source.map EnvSource.toJson)]

def reader : Reader EnvVar :=
  .resource <| EnvVar.mk <$> .text "name" <*> .optional "value" .string <*>
    .optional "valueFrom" EnvSource.reader

end EnvVar

namespace VolumeMount

def toJson (v : VolumeMount) : Json :=
  record ([("name", some (.string v.name)), ("mountPath", some (.string v.mountPath)),
    ("subPath", v.subPath.map .string)] ++ v.others.members)

def reader : Reader VolumeMount :=
  .resource <| VolumeMount.mk <$> .text "name" <*> .text "mountPath" <*>
    .optional "subPath" .string <*> Remainder.fields _

end VolumeMount

namespace ContainerPort

def toJson (p : ContainerPort) : Json :=
  record (("containerPort", some (ofInt32 p.number)) :: p.others.members)

def reader : Reader ContainerPort :=
  .resource <| ContainerPort.mk <$> .orElse "containerPort" 0 .int32 <*> Remainder.fields _

end ContainerPort

namespace Container

def toJson (c : Container) : Json :=
  record ([("name", some (.string c.name)), ("image", c.image.map .string),
    ("imagePullPolicy", c.imagePullPolicy.map .string), ("args", c.args.map ofTexts),
    ("command", c.command.map ofTexts), ("env", c.env.map (ofList EnvVar.toJson)),
    ("ports", c.ports.map (ofList ContainerPort.toJson)),
    ("volumeMounts", c.volumeMounts.map (ofList VolumeMount.toJson))] ++ c.others.members)

def reader : Reader Container :=
  .resource <| Container.mk <$> .text "name" <*> .optional "image" .string <*>
    .optional "imagePullPolicy" .string <*> .optional "args" .texts <*>
    .optional "command" .texts <*> .optional "env" (.list EnvVar.reader) <*>
    .optional "ports" (.list ContainerPort.reader) <*>
    .optional "volumeMounts" (.list VolumeMount.reader) <*> Remainder.fields _

end Container

namespace ClaimSource

def toJson (s : ClaimSource) : Json :=
  record [("claimName", some (.string s.name)), ("readOnly", s.isReadOnly.map .bool)]

def reader : Reader ClaimSource :=
  .resource <| ClaimSource.mk <$> .text "claimName" <*> .optional "readOnly" .bool

end ClaimSource

namespace Volume

def toJson (v : Volume) : Json :=
  record ([("name", some (.string v.name)),
    ("persistentVolumeClaim", v.claim.map ClaimSource.toJson)] ++ v.others.members)

def reader : Reader Volume :=
  .resource <| Volume.mk <$> .text "name" <*>
    .optional "persistentVolumeClaim" ClaimSource.reader <*> Remainder.fields _

end Volume

namespace PodSpec

def toJson (p : PodSpec) : Json :=
  record ([("containers", some (ofList Container.toJson p.containers)),
    ("serviceAccountName", p.serviceAccountName.map .string),
    ("restartPolicy", p.restartPolicy.map .string),
    ("imagePullSecrets", p.imagePullSecrets.map (ofList (namedText "name"))),
    ("volumes", p.volumes.map (ofList Volume.toJson))] ++ p.others.members)

def reader : Reader PodSpec :=
  .resource <| PodSpec.mk <$> .orElse "containers" [] (.list Container.reader) <*>
    .optional "serviceAccountName" .string <*> .optional "restartPolicy" .string <*>
    .optional "imagePullSecrets" (.list (namedTextReader "name")) <*>
    .optional "volumes" (.list Volume.reader) <*> Remainder.fields _

end PodSpec

namespace PodTemplate

def toJson (t : PodTemplate) : Json :=
  record [("metadata", t.metadata.map Metadata.toJson), ("spec", t.spec.map PodSpec.toJson)]

def reader : Reader PodTemplate :=
  .resource <| PodTemplate.mk <$> .optional "metadata" Metadata.reader <*>
    .optional "spec" PodSpec.reader

end PodTemplate

namespace Selector

def toJson (s : Selector) : Json :=
  record (("matchLabels", s.matchLabels.map ofTextTable) :: s.others.members)

def reader : Reader Selector :=
  .resource <| Selector.mk <$> .optional "matchLabels" .textTable <*> Remainder.fields _

end Selector

end Submarine
