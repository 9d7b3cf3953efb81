import Submarine.Object.Remainder
import Submarine.Time.Rfc3339

namespace Submarine

structure OwnerReference where
  apiVersion : String
  kind : String
  name : String
  uid : String
  controller : Option Bool
  blockOwnerDeletion : Option Bool
deriving DecidableEq, Inhabited

structure Metadata where
  name : Option String := none
  ns : Option String := none
  generateName : Option String := none
  uid : Option String := none
  resourceVersion : Option String := none
  generation : Option Int64 := none
  labels : Option (Table String String) := none
  annotations : Option (Table String String) := none
  finalizers : Option (List String) := none
  deletionTimestamp : Option Time.Instant := none
  ownerReferences : Option (List OwnerReference) := none
  rest : Remainder ["creationTimestamp", "deletionGracePeriodSeconds", "managedFields",
    "selfLink"] := .none _
deriving DecidableEq, Inhabited

open Json

namespace OwnerReference

def toJson (r : OwnerReference) : Json :=
  record [("apiVersion", some (.string r.apiVersion)), ("kind", some (.string r.kind)),
    ("name", some (.string r.name)), ("uid", some (.string r.uid)),
    ("controller", r.controller.map .bool), ("blockOwnerDeletion", r.blockOwnerDeletion.map .bool)]

def reader : Reader OwnerReference :=
  .resource <| OwnerReference.mk <$> .text "apiVersion" <*> .text "kind" <*> .text "name" <*>
    .text "uid" <*> .optional "controller" .bool <*> .optional "blockOwnerDeletion" .bool

end OwnerReference

def Json.Reader.time : Reader Time.Instant :=
  .scalar fun j ↦ j.string?.bind Time.Rfc3339.parse?

/-- Times of day in metadata are whole seconds. -/
def Json.Reader.wholeSeconds : Reader Time.Instant := Reader.time.map (·.truncate)

/-- A quantity may be given as an integer, which stands for its digits. -/
def Json.Reader.quantity : Reader String := .scalar fun j ↦ match j with
  | .string s => some s
  | .integer n => some (toString n)
  | _ => none

namespace Metadata

def members (m : Metadata) : List (String × Option Json) :=
  [("name", m.name.map .string), ("namespace", m.ns.map .string),
    ("generateName", m.generateName.map .string), ("uid", m.uid.map .string),
    ("resourceVersion", m.resourceVersion.map .string), ("generation", m.generation.map ofInt64),
    ("labels", m.labels.map ofTextTable), ("annotations", m.annotations.map ofTextTable),
    ("finalizers", m.finalizers.map ofTexts),
    ("deletionTimestamp", m.deletionTimestamp.map fun t ↦ .string (Time.Rfc3339.render t)),
    ("ownerReferences", m.ownerReferences.map (ofList OwnerReference.toJson))] ++ m.rest.members

def toJson (m : Metadata) : Json := record m.members

def reader : Reader Metadata :=
  .resource <| Metadata.mk <$> .optional "name" .string <*> .optional "namespace" .string <*>
    .optional "generateName" .string <*> .optional "uid" .string <*>
    .optional "resourceVersion" .string <*> .optional "generation" .int64 <*>
    .optional "labels" .textTable <*> .optional "annotations" .textTable <*>
    .optional "finalizers" .texts <*> .optional "deletionTimestamp" .wholeSeconds <*>
    .optional "ownerReferences" (.list OwnerReference.reader) <*> Remainder.fields _

end Metadata

end Submarine
