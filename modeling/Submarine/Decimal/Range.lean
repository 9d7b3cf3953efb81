import Submarine.Decimal.Shortest

namespace Submarine.Decimal

def digitValue (d : Char) : Nat := d.toNat - 48

/-- Takes digits as long as they fit. Tells how many were taken. -/
def takeDigits (n : Nat) : List Char → Nat × Nat
  | [] => (n, 0)
  | d :: ds =>
    if n * 10 + digitValue d < Nat.pow 2 64 then
      let (n, count) := takeDigits (n * 10 + digitValue d) ds
      (n, count + 1)
    else (n, 0)

def maxPower : Nat := 308

/-- The least product that is too large for a double. -/
def limit : Nat := Nat.pow 2 1024 - Nat.pow 2 970

/-- Whether a number with these digits before and after the point, times that power of ten, is
within the range of doubles. -/
def isInRange (whole frac : List Char) (power : Int) : Bool :=
  let (n, taken) := takeDigits 0 whole
  let (n, places) := takeDigits n frac
  let power := power + (whole.length - taken : Nat) - places
  n = 0 || power < 0 || (power ≤ maxPower &&
    (Binary.nearest n).value * (Binary.nearest (Nat.pow 10 power.toNat)).value < limit)

end Submarine.Decimal
