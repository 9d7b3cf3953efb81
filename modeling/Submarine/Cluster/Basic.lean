import Submarine.Failure
import Submarine.Object.Basic

namespace Submarine

structure Place where
  ns : String
  name : String
deriving DecidableEq, Repr

instance : Keyed Place where
  path p := [p.ns, p.name]
  path_injective {a b} h := by cases a; cases b; simp_all

inductive Verb where
  | get
  | create
  | update
  | updateStatus
deriving DecidableEq, Repr

namespace Verb

def isWrite (v : Verb) : Bool := v ≠ .get

def name : Verb → String
  | get => "Get"
  | create => "Create"
  | update => "Update"
  | updateStatus => "UpdateStatus"

def ofName? (name : String) : Option Verb :=
  [get, create, update, updateStatus].find? (·.name = name)

end Verb

structure Call where
  verb : Verb
  kind : Kind
  place : Place
deriving DecidableEq, Repr

inductive Outage where
  | conflict
  | alreadyExists
  | unavailable
deriving DecidableEq, Repr

structure PendingOutage where
  verb : Verb
  kind : Kind
  outage : Outage
deriving DecidableEq, Repr

/-- An object as it was stored, or as it last was before it was removed. -/
structure Change where
  object : AnyObject
  isRemoval : Bool

structure Cluster where
  objects : (k : Kind) → Table Place (Object k)
  calls : List Call
  outages : List PendingOutage
  -- The resource version given last.
  version : Nat
  uids : Nat
  -- Every change, the first one first.
  log : List Change
  -- Whether a write broke off. From then on every call breaks off.
  isBroken : Bool

/-- What a call comes to; none if it breaks off. -/
abbrev Reply (k : Kind) := Option (Except ApiError (Object k))

def describe (k : Kind) (p : Place) : String := k.name ++ " " ++ p.ns ++ "/" ++ p.name

namespace Object

variable {k : Kind}

/-- Where the object is to be stored. The name is asked for first. -/
def place (o : Object k) : Except ApiError Place :=
  match o.metadata.name, o.metadata.ns with
  | none, _ => .error (.invalidObject (k.name ++ " without metadata.name"))
  | some name, none =>
    .error (.invalidObject (k.name ++ " " ++ name ++ " without metadata.namespace"))
  | some name, some ns => .ok ⟨ns, name⟩

def withVersion (o : Object k) (version : Nat) : Object k :=
  { o with metadata := { o.metadata with resourceVersion := some (toString version) } }

end Object

namespace Cluster

def empty : Cluster := ⟨fun _ ↦ ∅, [], [], 0, 0, [], false⟩

instance : Inhabited Cluster := ⟨empty⟩

variable {k : Kind}

def find? (c : Cluster) (k : Kind) (p : Place) : Option (Object k) := (c.objects k).get? p

def count (c : Cluster) (k : Kind) : Nat := (c.objects k).size

def all (c : Cluster) : List AnyObject :=
  Kind.all.flatMap fun k ↦ (c.objects k).values.map (AnyObject.mk k)

def size (c : Cluster) : Nat := (Kind.all.map c.count).foldl Nat.add 0

def withObjects (c : Cluster) (k : Kind) (t : Table Place (Object k)) : Cluster :=
  { c with objects := fun j ↦ if h : j = k then h ▸ t else c.objects j }

def commit (c : Cluster) (p : Place) (o : Object k) : Object k × Cluster :=
  let stored := o.withVersion (c.version + 1)
  (stored,
    { c.withObjects k ((c.objects k).insert p stored) with
      version := c.version + 1
      log := c.log ++ [⟨⟨k, stored⟩, false⟩] })

def uidStart : String := "5d0b1f3a-8c27-4e6d-9a41-"

/-- A uid that was never given before. Its last digits count. -/
def nextUid (c : Cluster) : String :=
  let digits := toString (c.uids + 1)
  uidStart ++ String.ofList (List.replicate (12 - digits.length) '0') ++ digits

def breakOff (c : Cluster) : Cluster := { c with isBroken := true }

def giveUid (c : Cluster) : String × Cluster := (c.nextUid, { c with uids := c.uids + 1 })

@[simp] theorem objects_withObjects_self (c : Cluster) (t : Table Place (Object k)) :
    (c.withObjects k t).objects k = t := by
  simp [withObjects]

theorem objects_withObjects_of_ne (c : Cluster) (t : Table Place (Object k)) {j : Kind}
    (h : j ≠ k) : (c.withObjects k t).objects j = c.objects j := by
  simp [withObjects, h]

theorem find?_commit_self (c : Cluster) (p q : Place) (o : Object k) :
    (c.commit p o).2.find? k q =
      if q = p then some (o.withVersion (c.version + 1)) else c.find? k q := by
  rw [find?, show (c.commit p o).2.objects k =
    (c.objects k).insert p (o.withVersion (c.version + 1)) from objects_withObjects_self ..,
    Table.get?_insert]
  rfl

theorem find?_commit_of_ne (c : Cluster) (p q : Place) (o : Object k) {j : Kind} (h : j ≠ k) :
    (c.commit p o).2.find? j q = c.find? j q :=
  congrArg (Table.get? · q) (objects_withObjects_of_ne c _ h)

end Cluster

end Submarine
