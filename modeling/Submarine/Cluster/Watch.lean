import Submarine.Cache.Basic
import Submarine.Cluster.Basic

namespace Submarine

def Cluster.backlog : Nat := 1024

structure Watch (k : Kind) where
  listing : List (WatchEvent k)
  position : Nat

namespace Watch

variable {k : Kind}

def start (k : Kind) (c : Cluster) : Watch k where
  listing := [.relistStarted] ++ (c.objects k).values.map .listed ++ [.relistDone]
  position := c.log.length

/-- The event that a change is to a watch on the kind. -/
def eventOf? (k : Kind) (change : Change) : Option (WatchEvent k) :=
  (change.object.as? k).map fun o ↦ if change.isRemoval then .deleted o else .applied o

/-- Reads one change. It may be no event for this kind, and a reader that lost changes first finds
that out. -/
def readLog? (w : Watch k) (c : Cluster) : Option (Option (WatchEvent k) × Watch k) :=
  let oldest := c.log.length - Cluster.backlog
  if w.position < oldest then some (none, { w with position := oldest })
  else (c.log[w.position]?).map fun change ↦
    (eventOf? k change, { w with position := w.position + 1 })

/-- Reads on; none if all has been read. -/
def read? (w : Watch k) (c : Cluster) : Option (Option (WatchEvent k) × Watch k) :=
  match w.listing with
  | e :: listing => some (some e, { w with listing })
  | [] => w.readLog? c

/-- Reads at most so many changes from the log. Tells the events, and how many changes more could
have been read. -/
def readLogUpTo (w : Watch k) (c : Cluster) : Nat → List (WatchEvent k) × Watch k × Nat
  | 0 => ([], w, 0)
  | allowance + 1 =>
    match w.readLog? c with
    | none => ([], w, allowance + 1)
    | some (event?, w) =>
      let (events, w, left) := w.readLogUpTo c allowance
      (event?.toList ++ events, w, left)

def poll (w : Watch k) (c : Cluster) (allowance : Nat) : List (WatchEvent k) × Watch k × Nat :=
  let (events, after, left) := { w with listing := [] }.readLogUpTo c allowance
  (w.listing ++ events, after, left)

end Watch

/-- How often a task may read a change or take a lock before it has to let others run. What does
not wait stops once this is used up; what waits goes on with a fresh allowance. -/
structure Allowance where
  left : Nat
deriving DecidableEq, Repr

namespace Allowance

def full : Allowance := ⟨128⟩

def lock (a : Allowance) : Allowance := ⟨(if a.left = 0 then full.left else a.left) - 1⟩

end Allowance

end Submarine
