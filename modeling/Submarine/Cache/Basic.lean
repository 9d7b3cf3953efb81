import Submarine.Key
import Submarine.Object.Basic

namespace Submarine

/-- A change seen on a watch. A listing stands between `relistStarted` and `relistDone`; what it
does not list is gone. -/
inductive WatchEvent (k : Kind) where
  | applied (object : Object k)
  | deleted (object : Object k)
  | relistStarted
  | listed (object : Object k)
  | relistDone
deriving DecidableEq

inductive Tombstone (k : Kind) where
  | known (object : Object k)
  -- The object was missing from a listing; its deletion was not seen.
  | vanished (key : String) (last : Object k)
deriving DecidableEq

def Tombstone.object {k : Kind} : Tombstone k → Object k
  | known object => object
  | vanished _ last => last

inductive Notification (k : Kind) where
  | added (new : Object k)
  | updated (old new : Object k)
  | deleted (tombstone : Tombstone k)
deriving DecidableEq

structure Cache (k : Kind) where
  objects : Table String (Object k)
  -- The keys listed since the listing under way began.
  relisting : Option (List String)
  synced : Bool
deriving DecidableEq

/-- An object without a name goes by the name it is to be generated from. -/
def Object.cacheKey {k : Kind} (o : Object k) : String :=
  objectKey (o.metadata.ns.getD "") ((o.metadata.name.or o.metadata.generateName).getD "")

namespace Cache

variable {k : Kind}

def empty : Cache k := ⟨∅, none, false⟩

instance : Inhabited (Cache k) := ⟨empty⟩

def get? (c : Cache k) (ns name : String) : Option (Object k) := c.objects.get? (objectKey ns name)

def size (c : Cache k) : Nat := c.objects.size

def put (c : Cache k) (o : Object k) : Cache k :=
  { c with objects := c.objects.insert o.cacheKey o }

def putNotification (c : Cache k) (o : Object k) : Notification k :=
  match c.objects.get? o.cacheKey with
  | some old => .updated old o
  | none => .added o

def markListed (c : Cache k) (key : String) : Cache k :=
  { c with relisting := c.relisting.map (key :: ·) }

def isListed (c : Cache k) (key : String) : Bool := (c.relisting.getD []).contains key

/-- Applies a watch event. What vanished is reported in the order of the keys. -/
def apply (c : Cache k) : WatchEvent k → Cache k × List (Notification k)
  | .applied o => (c.put o, [c.putNotification o])
  | .listed o => ((c.markListed o.cacheKey).put o, [c.putNotification o])
  | .deleted o => ({ c with objects := c.objects.erase o.cacheKey }, [.deleted (.known o)])
  | .relistStarted => ({ c with relisting := some [] }, [])
  | .relistDone =>
    let gone := c.objects.filterKeys fun key ↦ !c.isListed key
    ({ objects := c.objects.filterKeys c.isListed, relisting := none, synced := true },
      gone.entries.map fun e ↦ .deleted (.vanished e.1 e.2))

def applyAll (c : Cache k) : List (WatchEvent k) → Cache k × List (Notification k)
  | [] => (c, [])
  | e :: rest =>
    let (c, changes) := c.apply e
    let (c, later) := c.applyAll rest
    (c, changes ++ later)

theorem get?_relistDone (c : Cache k) (key : String) :
    (c.apply .relistDone).1.objects.get? key =
      if c.isListed key then c.objects.get? key else none :=
  Table.get?_filterKeys ..

theorem synced_apply (c : Cache k) (e : WatchEvent k) :
    (c.apply e).1.synced = (c.synced || e == .relistDone) := by
  cases e <;> simp [apply, put, markListed]

end Cache

end Submarine
