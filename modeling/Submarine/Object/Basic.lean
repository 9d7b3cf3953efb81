import Submarine.Kind
import Submarine.Object.Access
import Submarine.Object.Claim
import Submarine.Object.Ingress
import Submarine.Object.IngressRoute
import Submarine.Object.Installation
import Submarine.Object.Service
import Submarine.Object.Workload
import Submarine.Text.Base64

namespace Submarine

open Json

structure InstallationContent where
  spec : InstallationSpec
  status : Option InstallationStatus := none
deriving DecidableEq, Inhabited

structure ConfigMapContent where
  data : Option (Table String String) := none
  others : Remainder ["binaryData", "immutable"] := .none _
deriving DecidableEq, Inhabited

structure DeploymentContent where
  spec : Option DeploymentSpec := none
  status : Option DeploymentStatus := none
deriving DecidableEq, Inhabited

structure StatefulSetContent where
  spec : Option StatefulSetSpec := none
  status : Option StatefulSetStatus := none
deriving DecidableEq, Inhabited

structure ServiceContent where
  spec : Option ServiceSpec := none
  status : Option (Remainder ["conditions", "loadBalancer"]) := none
deriving DecidableEq, Inhabited

structure ServiceAccountContent where
  automountToken : Option Bool := none
  others : Remainder ["imagePullSecrets", "secrets"] := .none _
deriving DecidableEq, Inhabited

structure SecretContent where
  type : Option String := none
  immutable : Option Bool := none
  stringData : Option (Table String String) := none
  data : Option (Table String (List UInt8)) := none
deriving DecidableEq, Inhabited

structure ClaimContent where
  spec : Option ClaimSpec := none
  status : Option (Remainder ["accessModes", "allocatedResourceStatuses", "allocatedResources",
    "capacity", "conditions", "currentVolumeAttributesClassName", "modifyVolumeStatus", "phase"]) :=
    none
deriving DecidableEq, Inhabited

structure IngressContent where
  spec : Option IngressSpec := none
  status : Option (Remainder ["loadBalancer"]) := none
deriving DecidableEq, Inhabited

structure RoleContent where
  rules : Option (List PolicyRule) := none
deriving DecidableEq, Inhabited

structure RoleBindingContent where
  roleRef : RoleRef := {}
  subjects : Option (List Subject) := none
deriving DecidableEq, Inhabited

structure IngressRouteContent where
  spec : IngressRouteSpec
deriving DecidableEq, Inhabited

/-- What an object of the kind holds besides its metadata. -/
def Content : Kind → Type
  | .submarine => InstallationContent
  | .configMap => ConfigMapContent
  | .deployment => DeploymentContent
  | .statefulSet => StatefulSetContent
  | .service => ServiceContent
  | .serviceAccount => ServiceAccountContent
  | .secret => SecretContent
  | .persistentVolumeClaim => ClaimContent
  | .ingress => IngressContent
  | .role => RoleContent
  | .roleBinding => RoleBindingContent
  | .ingressRoute => IngressRouteContent

instance : (k : Kind) → DecidableEq (Content k)
  | .submarine => inferInstanceAs (DecidableEq InstallationContent)
  | .configMap => inferInstanceAs (DecidableEq ConfigMapContent)
  | .deployment => inferInstanceAs (DecidableEq DeploymentContent)
  | .statefulSet => inferInstanceAs (DecidableEq StatefulSetContent)
  | .service => inferInstanceAs (DecidableEq ServiceContent)
  | .serviceAccount => inferInstanceAs (DecidableEq ServiceAccountContent)
  | .secret => inferInstanceAs (DecidableEq SecretContent)
  | .persistentVolumeClaim => inferInstanceAs (DecidableEq ClaimContent)
  | .ingress => inferInstanceAs (DecidableEq IngressContent)
  | .role => inferInstanceAs (DecidableEq RoleContent)
  | .roleBinding => inferInstanceAs (DecidableEq RoleBindingContent)
  | .ingressRoute => inferInstanceAs (DecidableEq IngressRouteContent)

structure Object (k : Kind) where
  metadata : Metadata
  content : Content k
deriving DecidableEq

/-- The object that declares an installation; its children refer to it as their owner. -/
abbrev Root := Object .submarine

abbrev Root.spec (root : Root) : InstallationSpec := root.content.spec

abbrev Root.status (root : Root) : Option InstallationStatus := root.content.status

def bytesToJson (bytes : List UInt8) : Json := .string (String.ofList (Text.Base64.encode bytes))

/-- Bytes are given in base64; a null stands for none. -/
def bytesReader : Reader (List UInt8) := .scalar fun j ↦ match j with
  | .string s => Text.Base64.decode? s.toList
  | .null => some []
  | _ => none

namespace Content

def members : {k : Kind} → Content k → List (String × Option Json)
  | .submarine, (c : InstallationContent) =>
    [("spec", some c.spec.toJson), ("status", c.status.map InstallationStatus.toJson)]
  | .configMap, (c : ConfigMapContent) =>
    ("data", c.data.map ofTextTable) :: c.others.members
  | .deployment, (c : DeploymentContent) =>
    [("spec", c.spec.map DeploymentSpec.toJson), ("status", c.status.map DeploymentStatus.toJson)]
  | .statefulSet, (c : StatefulSetContent) =>
    [("spec", c.spec.map StatefulSetSpec.toJson), ("status", c.status.map StatefulSetStatus.toJson)]
  | .service, (c : ServiceContent) =>
    [("spec", c.spec.map ServiceSpec.toJson), ("status", c.status.map Remainder.toJson)]
  | .serviceAccount, (c : ServiceAccountContent) =>
    ("automountServiceAccountToken", c.automountToken.map .bool) :: c.others.members
  | .secret, (c : SecretContent) =>
    [("type", c.type.map .string), ("immutable", c.immutable.map .bool),
      ("stringData", c.stringData.map ofTextTable), ("data", c.data.map (ofTable bytesToJson))]
  | .persistentVolumeClaim, (c : ClaimContent) =>
    [("spec", c.spec.map ClaimSpec.toJson), ("status", c.status.map Remainder.toJson)]
  | .ingress, (c : IngressContent) =>
    [("spec", c.spec.map IngressSpec.toJson), ("status", c.status.map Remainder.toJson)]
  | .role, (c : RoleContent) => [("rules", c.rules.map (ofList PolicyRule.toJson))]
  | .roleBinding, (c : RoleBindingContent) =>
    [("roleRef", some c.roleRef.toJson), ("subjects", c.subjects.map (ofList Subject.toJson))]
  | .ingressRoute, (c : IngressRouteContent) => [("spec", some c.spec.toJson)]

def fields : (k : Kind) → Fields (Content k)
  | .submarine => InstallationContent.mk <$> .required "spec" InstallationSpec.reader <*>
      .optional "status" InstallationStatus.reader
  | .configMap => ConfigMapContent.mk <$> .optional "data" .textTable <*> Remainder.fields _
  | .deployment => DeploymentContent.mk <$> .optional "spec" DeploymentSpec.reader <*>
      .optional "status" DeploymentStatus.reader
  | .statefulSet => StatefulSetContent.mk <$> .optional "spec" StatefulSetSpec.reader <*>
      .optional "status" StatefulSetStatus.reader
  | .service => ServiceContent.mk <$> .optional "spec" ServiceSpec.reader <*>
      .optional "status" Remainder.reader
  | .serviceAccount =>
    ServiceAccountContent.mk <$> .optional "automountServiceAccountToken" .bool <*>
      Remainder.fields _
  | .secret => SecretContent.mk <$> .optional "type" .string <*> .optional "immutable" .bool <*>
      .optional "stringData" .textTable <*> .optional "data" (.table bytesReader)
  | .persistentVolumeClaim => ClaimContent.mk <$> .optional "spec" ClaimSpec.reader <*>
      .optional "status" Remainder.reader
  | .ingress => IngressContent.mk <$> .optional "spec" IngressSpec.reader <*>
      .optional "status" Remainder.reader
  | .role => RoleContent.mk <$> .optional "rules" (.list PolicyRule.reader)
  | .roleBinding => RoleBindingContent.mk <$> .orElse "roleRef" {} RoleRef.reader <*>
      .optional "subjects" (.list Subject.reader)
  | .ingressRoute => IngressRouteContent.mk <$> .required "spec" IngressRouteSpec.reader

def sameSpec : {k : Kind} → Content k → Content k → Bool
  | .submarine, (a : InstallationContent), (b : InstallationContent) => a.spec = b.spec
  | .deployment, (a : DeploymentContent), (b : DeploymentContent) => a.spec = b.spec
  | .statefulSet, (a : StatefulSetContent), (b : StatefulSetContent) => a.spec = b.spec
  | .service, (a : ServiceContent), (b : ServiceContent) => a.spec = b.spec
  | .persistentVolumeClaim, (a : ClaimContent), (b : ClaimContent) => a.spec = b.spec
  | .ingress, (a : IngressContent), (b : IngressContent) => a.spec = b.spec
  | .ingressRoute, (a : IngressRouteContent), (b : IngressRouteContent) => a.spec = b.spec
  | .configMap, _, _ | .serviceAccount, _, _ | .secret, _, _ | .role, _, _ | .roleBinding, _, _ =>
    true

def withStatusOf : {k : Kind} → Content k → Content k → Content k
  | .submarine, (a : InstallationContent), (b : InstallationContent) =>
    { a with status := b.status }
  | .deployment, (a : DeploymentContent), (b : DeploymentContent) => { a with status := b.status }
  | .statefulSet, (a : StatefulSetContent), (b : StatefulSetContent) =>
    { a with status := b.status }
  | .service, (a : ServiceContent), (b : ServiceContent) => { a with status := b.status }
  | .persistentVolumeClaim, (a : ClaimContent), (b : ClaimContent) => { a with status := b.status }
  | .ingress, (a : IngressContent), (b : IngressContent) => { a with status := b.status }
  | .configMap, a, _ | .serviceAccount, a, _ | .secret, a, _ | .role, a, _ | .roleBinding, a, _
  | .ingressRoute, a, _ => a

end Content

/-- Kinds whose objects name their own type freely, must have metadata, and may be given as an
array of their members. -/
def Kind.isCustom : Kind → Bool
  | .submarine | .ingressRoute => true
  | _ => false

namespace Object

variable {k : Kind}

abbrev name (o : Object k) : Option String := o.metadata.name

abbrev ns (o : Object k) : Option String := o.metadata.ns

def toJson (o : Object k) : Json :=
  record ([("apiVersion", some (.string k.apiVersion)), ("kind", some (.string k.name)),
    ("metadata", some o.metadata.toJson)] ++ o.content.members)

/-- Who names a type has to name this one. -/
def typeFields (apiVersion kind : String) : Fields Unit :=
  (fun _ _ ↦ ()) <$> .withDefault "apiVersion" () (.exactly apiVersion) <*>
    .withDefault "kind" () (.exactly kind)

def reader (k : Kind) : Reader (Object k) :=
  if k.isCustom then
    .record (mk <$> .required "metadata" Metadata.reader <*> Content.fields k) true
  else
    .resource <| (fun _ metadata content ↦ mk metadata content) <$>
      typeFields k.apiVersion k.name <*> .orElse "metadata" {} Metadata.reader <*> Content.fields k

def ofJson? (k : Kind) (j : Json) : Option (Object k) := (reader k).read? j

end Object

structure AnyObject where
  kind : Kind
  object : Object kind
deriving DecidableEq

namespace AnyObject

def toJson (a : AnyObject) : Json := a.object.toJson

def as? (k : Kind) (a : AnyObject) : Option (Object k) :=
  if h : a.kind = k then some (h ▸ a.object) else none

@[simp] theorem as?_mk {k : Kind} (o : Object k) : (AnyObject.mk k o).as? k = some o := by
  simp [as?]

end AnyObject

end Submarine
