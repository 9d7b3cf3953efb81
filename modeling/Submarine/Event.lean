import Submarine.Object.Basic

namespace Submarine

structure ObjectReference where
  apiVersion : Option String := none
  fieldPath : Option String := none
  kind : Option String := none
  name : Option String := none
  ns : Option String := none
  resourceVersion : Option String := none
  uid : Option String := none
deriving DecidableEq, Inhabited

open Json

namespace ObjectReference

def toJson (r : ObjectReference) : Json :=
  record [("apiVersion", r.apiVersion.map .string), ("fieldPath", r.fieldPath.map .string),
    ("kind", r.kind.map .string), ("name", r.name.map .string), ("namespace", r.ns.map .string),
    ("resourceVersion", r.resourceVersion.map .string), ("uid", r.uid.map .string)]

def reader : Reader ObjectReference :=
  .resource <| ObjectReference.mk <$> .optional "apiVersion" .string <*>
    .optional "fieldPath" .string <*> .optional "kind" .string <*> .optional "name" .string <*>
    .optional "namespace" .string <*> .optional "resourceVersion" .string <*>
    .optional "uid" .string

end ObjectReference

def Object.reference {k : Kind} (o : Object k) : ObjectReference where
  apiVersion := some k.apiVersion
  kind := some k.name
  name := o.metadata.name
  ns := o.metadata.ns
  uid := o.metadata.uid

inductive EventType where
  | normal
  | warning
deriving DecidableEq, Repr

def EventType.name : EventType → String
  | normal => "Normal"
  | warning => "Warning"

structure Event where
  regarding : ObjectReference
  type : EventType
  reason : String
  note : String
deriving DecidableEq

namespace Event

def toJson (e : Event) : Json :=
  .object [("regarding", e.regarding.toJson), ("type", .string e.type.name),
    ("reason", .string e.reason), ("note", .string e.note)]

def nameTakenNote (name : String) : String :=
  "Resource \"" ++ name ++ "\" already exists and is not managed by Submarine"

def synced (root : Root) : Event :=
  ⟨root.reference, .normal, "Synced", "Submarine synced successfully"⟩

def nameTaken (root : Root) (name : String) : Event :=
  ⟨root.reference, .warning, "ErrResourceExists", nameTakenNote name⟩

def invalidSpec (root : Root) (message : String) : Event :=
  ⟨root.reference, .warning, "InvalidSpec", message⟩

end Event

end Submarine
