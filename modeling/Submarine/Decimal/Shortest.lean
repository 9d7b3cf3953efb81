namespace Submarine.Decimal

def precision : Nat := 53

/-- The quotient rounded to the nearest whole number; a half goes to the even neighbour. -/
def roundHalfEven (n d : Nat) : Nat :=
  let q := n / d
  let r := n % d
  if 2 * r < d then q else if d < 2 * r then q + 1 else q + q % 2

/-- `significand * 2 ^ exponent`. -/
structure Binary where
  significand : Nat
  exponent : Nat
deriving DecidableEq, Repr

namespace Binary

def value (b : Binary) : Nat := b.significand * Nat.pow 2 b.exponent

def nearest (n : Nat) : Binary :=
  let e := n.log2 + 1 - precision
  let m := roundHalfEven n (Nat.pow 2 e)
  if m = Nat.pow 2 precision then ⟨Nat.pow 2 (precision - 1), e + 1⟩ else ⟨m, e⟩

/-- Whether the number rounds to `b`. The neighbour below a power of two is only half as far, and a
number halfway between two doubles rounds to the even one. -/
def covers (b : Binary) (n : Nat) : Bool :=
  let below := if b.significand = Nat.pow 2 (precision - 1) then 1 else 2
  let low := (4 * b.significand - below) * Nat.pow 2 b.exponent
  let high := (4 * b.significand + 2) * Nat.pow 2 b.exponent
  if b.significand % 2 = 0 then low ≤ 4 * n && 4 * n ≤ high else low < 4 * n && 4 * n < high

/-- The multiple of `10 ^ k` that is nearest to `b` among those that round to it, for the largest
such `k` not above the given one. -/
def coarsest (b : Binary) : Nat → Nat
  | 0 => b.value
  | k + 1 =>
    let unit := Nat.pow 10 (k + 1)
    let down := b.value / unit * unit
    let up := down + unit
    match b.covers down, b.covers up with
    | true, true => if up - b.value ≤ b.value - down then up else down
    | true, false => down
    | false, true => up
    | false, false => b.coarsest k

end Binary

/-- The number that stands for `n` once it went through a double. -/
def throughDouble (n : Nat) : Nat :=
  if n < Nat.pow 2 precision then n
  else
    let b := Binary.nearest n
    b.coarsest (toString b.value).length

def render (i : Int) : String :=
  (if i < 0 then "-" else "") ++ toString (throughDouble i.natAbs)

end Submarine.Decimal
