namespace Submarine.Text

inductive NumberFault where
  | empty
  | invalidDigit
  | tooLarge
deriving DecidableEq, Repr

def NumberFault.message : NumberFault → String
  | .empty => "cannot parse integer from empty string"
  | .invalidDigit => "invalid digit found in string"
  | .tooLarge => "number too large to fit in target type"

def digitValue? (c : Char) : Option Nat :=
  if '0' ≤ c ∧ c ≤ '9' then some (c.toNat - 48) else none

/-- Continues the number read so far. The first digit at which the limit is passed, or the first
character that is no digit, decides the fault. -/
def unsignedFrom (limit : Nat) (n : Nat) : List Char → Except NumberFault Nat
  | [] => .ok n
  | c :: rest =>
    match digitValue? c with
    | none => .error .invalidDigit
    | some d =>
      if limit < n * 10 + d then .error .tooLarge else unsignedFrom limit (n * 10 + d) rest

/-- One leading plus sign is allowed, but not alone. -/
def unsigned? (limit : Nat) : List Char → Except NumberFault Nat
  | [] => .error .empty
  | ['+'] => .error .invalidDigit
  | '+' :: rest => unsignedFrom limit 0 rest
  | cs => unsignedFrom limit 0 cs

end Submarine.Text
