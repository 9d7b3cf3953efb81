import Submarine.Cluster.Call
import Submarine.Json.MergePatch

namespace Submarine.Cluster

variable {k : Kind}

/-- Stores the object as it is, with a uid if it has none, over any that stands in its place. An
object without name or namespace has no place, and a broken cluster stores nothing. -/
def insert? (c : Cluster) (o : Object k) : Option (Object k × Cluster) :=
  match o.place with
  | .error _ => none
  | .ok p =>
    if c.isBroken then none
    else match o.metadata.uid with
      | some _ => some (c.commit p o)
      | none =>
        let (uid, c) := c.giveUid
        some (c.commit p { o with metadata := { o.metadata with uid := some uid } })

/-- What an edit stores. A change of the spec moves the generation on from the stored one. -/
def edited? (stored after : Object k) : Option (Object k) :=
  if stored.content.sameSpec after.content then some after
  else (generationAfter? stored after).map fun generation ↦
    { after with metadata := { after.metadata with generation := some generation } }

inductive EditFault where
  | missing
  | refused
  | brokenOff
deriving DecidableEq, Repr

/-- Replaces a stored object by what the edit makes of it. It stays in its place. Where there is no
object the edit breaks off, and with it the cluster. -/
def modify (c : Cluster) (p : Place) (edit : Object k → Option (Object k)) :
    Except EditFault (Object k) × Cluster :=
  if c.isBroken then (.error .brokenOff, c)
  else match c.find? k p with
    | none => (.error .brokenOff, c.breakOff)
    | some stored =>
      match edit stored with
      | none => (.error .refused, c)
      | some after =>
        match edited? stored after with
        | none => (.error .brokenOff, c.breakOff)
        | some o =>
          let (stored, c) := c.commit p o
          (.ok stored, c)

def patch (c : Cluster) (k : Kind) (p : Place) (patch : Json) :
    Except EditFault (Object k) × Cluster :=
  if !c.isBroken && (c.find? k p).isNone then (.error .missing, c)
  else c.modify p fun stored ↦ Object.ofJson? k (stored.toJson.mergePatch patch)

def remove? (c : Cluster) (k : Kind) (p : Place) : Option (Option (Object k) × Cluster) :=
  if c.isBroken then none
  else match c.find? k p with
    | none => some (none, c)
    | some o =>
      some (some o,
        { c.withObjects k ((c.objects k).erase p) with log := c.log ++ [⟨⟨k, o⟩, true⟩] })

end Submarine.Cluster
