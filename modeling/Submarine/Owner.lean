import Submarine.Failure
import Submarine.Object.Basic

namespace Submarine

inductive SpecFault where
  | unknownStorageType (storageType : String)
  | negativeReplicas
  | noNamespace
  -- Without name and uid an object cannot own another.
  | noIdentity (kind name : String)
deriving DecidableEq, Repr

namespace SpecFault

def message : SpecFault → String
  | unknownStorageType storageType =>
    "invalid storageType '" ++ storageType ++
      "', nothing will be created. Valid storage types are nfs, host"
  | negativeReplicas => "replica counts must not be negative"
  | noNamespace => "Submarine without namespace"
  | noIdentity kind name => kind ++ " " ++ name ++ " has no uid yet, cannot own children"

def toFailure (f : SpecFault) : Failure := .invalidSpec f.message

end SpecFault

structure OwnerLink where
  apiVersion : String
  kind : String
  name : String
  uid : String
deriving DecidableEq, Inhabited

namespace OwnerReference

def isController (r : OwnerReference) : Bool := r.controller = some true

def link (r : OwnerReference) : OwnerLink := ⟨r.apiVersion, r.kind, r.name, r.uid⟩

end OwnerReference

namespace OwnerLink

def pointsTo {k : Kind} (link : OwnerLink) (owner : Object k) : Bool :=
  link.kind = k.name && some link.name = owner.metadata.name &&
    some link.uid = owner.metadata.uid

end OwnerLink

namespace Metadata

def controller? (m : Metadata) : Option OwnerLink :=
  ((m.ownerReferences.getD []).find? OwnerReference.isController).map OwnerReference.link

/-- Other controllers are dropped, other owners kept. -/
def withController (m : Metadata) (r : OwnerReference) : Metadata :=
  { m with
    ownerReferences :=
      some ((m.ownerReferences.getD []).filter (fun o ↦ ¬ o.isController) ++ [r]) }

end Metadata

namespace Object

variable {k : Kind}

abbrev controller? (o : Object k) : Option OwnerLink := o.metadata.controller?

def controllerReference? (o : Object k) : Option OwnerReference := do
  let name ← o.metadata.name
  let uid ← o.metadata.uid
  return {
    apiVersion := k.apiVersion
    kind := k.name
    name
    uid
    controller := some true
    blockOwnerDeletion := some true }

def setOwner {j : Kind} (o : Object j) (owner : Object k) : Except SpecFault (Object j) :=
  match owner.controllerReference? with
  | some r => .ok { o with metadata := o.metadata.withController r }
  | none => .error (.noIdentity k.name (owner.metadata.name.getD ""))

def isControlledBy {j : Kind} (o : Object j) (owner : Object k) : Bool :=
  o.controller?.any (·.pointsTo owner)

end Object

end Submarine
