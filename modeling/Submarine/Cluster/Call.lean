import Submarine.Cluster.Basic

namespace Submarine

def Outage.error (outage : Outage) (what : String) : ApiError :=
  match outage with
  | conflict => .conflict what
  | alreadyExists => .alreadyExists what
  | unavailable => .rejected 503 ("injected failure for " ++ what)

/-- The first outage that meets the call, and the others. -/
def takeOutage (verb : Verb) (k : Kind) : List PendingOutage → Option (Outage × List PendingOutage)
  | [] => none
  | f :: rest =>
    if f.verb = verb ∧ f.kind = k then some (f.outage, rest)
    else (takeOutage verb k rest).map fun r ↦ (r.1, f :: r.2)

namespace Cluster

variable {k : Kind}

def note (c : Cluster) (verb : Verb) (k : Kind) (p : Place) : Option ApiError × Cluster :=
  let c := { c with calls := c.calls ++ [⟨verb, k, p⟩] }
  match takeOutage verb k c.outages with
  | some (outage, outages) => (some (outage.error (describe k p)), { c with outages })
  | none => (none, c)

def get (c : Cluster) (k : Kind) (p : Place) : Reply k × Cluster :=
  if c.isBroken then (none, c)
  else match c.note .get k p with
    | (some e, c) => (some (.error e), c)
    | (none, c) =>
      match c.find? k p with
      | some o => (some (.ok o), c)
      | none => (some (.error (.notFound (describe k p))), c)

def create (c : Cluster) (o : Object k) : Reply k × Cluster :=
  match o.place with
  | .error e => (some (.error e), c)
  | .ok p =>
    if c.isBroken then (none, c)
    else match c.note .create k p with
      | (some e, c) => (some (.error e), c)
      | (none, c) =>
        if (c.find? k p).isSome then (some (.error (.alreadyExists (describe k p))), c)
        else
          let (uid, c) := c.giveUid
          let born :=
            { o with metadata := { o.metadata with uid := some uid, generation := some 1 } }
          let (stored, c) := c.commit p born
          (some (.ok stored), c)

/-- A write that names no version is made against any. -/
def versionAgrees (incoming stored : Object k) : Bool :=
  incoming.metadata.resourceVersion.isNone ||
    incoming.metadata.resourceVersion = stored.metadata.resourceVersion

/-- The generation counts the changes of the spec. None comes after the largest. -/
def generationAfter? (stored incoming : Object k) : Option Int64 :=
  let current := stored.metadata.generation.getD 1
  if stored.content.sameSpec incoming.content then some current
  else if current = Int64.maxValue then none
  else some (current + 1)

/-- What a write stores: all that it brings, but the uid and the status that were stored. -/
def replaced? (stored incoming : Object k) : Option (Object k) :=
  (generationAfter? stored incoming).map fun generation ↦ {
    metadata :=
      { incoming.metadata with uid := stored.metadata.uid, generation := some generation }
    content := incoming.content.withStatusOf stored.content }

def withStatus (stored incoming : Object k) : Object k :=
  { stored with content := stored.content.withStatusOf incoming.content }

/-- A write on a stored object. `merge?` makes the object to store from the stored one and the one
written; the write breaks off if there is none. -/
def write (c : Cluster) (verb : Verb) (merge? : Object k → Object k → Option (Object k))
    (o : Object k) : Reply k × Cluster :=
  match o.place with
  | .error e => (some (.error e), c)
  | .ok p =>
    if c.isBroken then (none, c)
    else match c.note verb k p with
      | (some e, c) => (some (.error e), c)
      | (none, c) =>
        match c.find? k p with
        | none => (some (.error (.notFound (describe k p))), c)
        | some stored =>
          if versionAgrees o stored then
            match merge? stored o with
            | none => (none, c.breakOff)
            | some merged =>
              let (stored, c) := c.commit p merged
              (some (.ok stored), c)
          else (some (.error (.conflict (describe k p))), c)

def update (c : Cluster) (o : Object k) : Reply k × Cluster := c.write .update replaced? o

def updateStatus (c : Cluster) (o : Object k) : Reply k × Cluster :=
  c.write .updateStatus (fun stored incoming ↦ some (withStatus stored incoming)) o

def failNext (c : Cluster) (verb : Verb) (k : Kind) (outage : Outage) : Cluster :=
  { c with outages := c.outages ++ [⟨verb, k, outage⟩] }

def writes (c : Cluster) : List Call := c.calls.filter (·.verb.isWrite)

def callCount (c : Cluster) (verb : Verb) (k : Kind) : Nat :=
  c.calls.countP fun call ↦ call.verb = verb ∧ call.kind = k

def clearCalls (c : Cluster) : Cluster := { c with calls := [] }

end Cluster

end Submarine
