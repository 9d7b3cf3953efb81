namespace Submarine

structure Gate where
  -- A signal that found nobody asleep.
  permit : Bool
  round : Nat
  -- Who sleeps, the longest sleeper first.
  sleepers : List Nat
deriving DecidableEq, Inhabited, Repr

namespace Gate

def initial : Gate := ⟨false, 0, []⟩

/-- Wakes the longest sleeper, or keeps the signal. -/
def signal (g : Gate) : Gate × Option Nat :=
  match g.sleepers with
  | [] => ({ g with permit := true }, none)
  | id :: rest => ({ g with sleepers := rest }, some id)

def signalAll (g : Gate) : Gate × List Nat :=
  ({ g with round := g.round + 1, sleepers := [] }, g.sleepers)

/-- Falls asleep, unless a signal was kept or a signal to all came since the ticket was drawn.
Tells whether the taker goes straight on. -/
def park (g : Gate) (id ticket : Nat) : Gate × Bool :=
  if g.permit then ({ g with permit := false }, true)
  else if g.round ≠ ticket then (g, true)
  else ({ g with sleepers := g.sleepers ++ [id] }, false)

def leave (g : Gate) (id : Nat) : Gate := { g with sleepers := g.sleepers.filter (· != id) }

end Gate

end Submarine
