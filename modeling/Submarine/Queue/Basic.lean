import Submarine.Table

namespace Submarine

structure Queue where
  -- Keys to be handed out, in the order in which they became ready.
  ready : List String
  dirty : List String
  held : List String
  failures : Table String Nat
  isShutDown : Bool
deriving DecidableEq

inductive Handout where
  | key (key : String)
  | nothing
  | closed
deriving DecidableEq, Repr

namespace Queue

def empty : Queue := ⟨[], [], [], ∅, false⟩

instance : Inhabited Queue := ⟨empty⟩

def maxFailures : Nat := 4294967295

def admits (q : Queue) (key : String) : Bool :=
  !q.isShutDown && !q.dirty.contains key && !q.held.contains key

/-- Marks the key, and makes it ready unless it is held. Once shut down, nothing is added. -/
def add (q : Queue) (key : String) : Queue :=
  if q.isShutDown ∨ key ∈ q.dirty then q
  else if key ∈ q.held then { q with dirty := q.dirty ++ [key] }
  else { q with ready := q.ready ++ [key], dirty := q.dirty ++ [key] }

def take (q : Queue) : Handout × Queue :=
  if q.isShutDown then (.closed, q)
  else match q.ready with
    | [] => (.nothing, q)
    | key :: rest =>
      (.key key,
        { q with ready := rest, dirty := q.dirty.filter (· != key), held := q.held.insert key })

/-- Whether releasing the key makes it ready again. -/
def readmits (q : Queue) (key : String) : Bool := !q.isShutDown && q.dirty.contains key

/-- Releases a key. If it was added while it was held, it is ready again. -/
def done (q : Queue) (key : String) : Queue :=
  { q with
    held := q.held.filter (· != key)
    ready := if q.readmits key then q.ready ++ [key] else q.ready }

def forget (q : Queue) (key : String) : Queue := { q with failures := q.failures.erase key }

def failureCount (q : Queue) (key : String) : Nat := (q.failures.get? key).getD 0

def countFailure (q : Queue) (key : String) : Queue :=
  { q with failures := q.failures.insert key (min (q.failureCount key + 1) maxFailures) }

def shutDown (q : Queue) : Queue := { q with isShutDown := true }

def size (q : Queue) : Nat := q.ready.length

def isEmpty (q : Queue) : Bool := q.ready.isEmpty

theorem failureCount_forget (q : Queue) (key j : String) :
    (q.forget key).failureCount j = if j = key then 0 else q.failureCount j := by
  simp only [failureCount, forget, Table.get?_erase]
  split <;> rfl

theorem failureCount_countFailure (q : Queue) (key j : String) :
    (q.countFailure key).failureCount j =
      if j = key then min (q.failureCount key + 1) maxFailures else q.failureCount j := by
  simp only [failureCount, countFailure, Table.get?_insert]
  split <;> rfl

end Queue

end Submarine
