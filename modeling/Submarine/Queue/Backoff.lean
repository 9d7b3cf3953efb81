import Submarine.Time.Delay

namespace Submarine

structure Backoff where
  base : Nat
  max : Nat
deriving DecidableEq, Repr

namespace Backoff

/-- The delay after so many earlier failures. From the 31st failure on it doubles no further, and a
delay that is no length of time is the longest one allowed. -/
def delay (b : Backoff) (failures : Nat) : Nat :=
  let product := b.base * Nat.pow 2 (min failures 31)
  if Time.maxDelay < product then b.max else min product b.max

theorem delay_le_max (b : Backoff) (failures : Nat) : b.delay failures ≤ b.max := by
  rw [delay]
  split
  · exact Nat.le_refl _
  · exact Nat.min_le_right _ _

end Backoff

end Submarine
