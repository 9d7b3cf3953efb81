namespace Submarine.Time

structure Date where
  year : Int
  month : Nat
  day : Nat
deriving DecidableEq, Repr

def isLeapYear (year : Int) : Bool := year % 4 = 0 && (year % 100 ≠ 0 || year % 400 = 0)

def daysInMonth (year : Int) (month : Nat) : Nat :=
  if month = 2 then if isLeapYear year then 29 else 28
  else if month = 4 ∨ month = 6 ∨ month = 9 ∨ month = 11 then 30
  else 31

def firstYear : Int := -262143

def lastYear : Int := 262142

namespace Date

def isValid (d : Date) : Bool :=
  1 ≤ d.month && d.month ≤ 12 && 1 ≤ d.day && d.day ≤ daysInMonth d.year d.month

def isInRange (d : Date) : Bool := firstYear ≤ d.year && d.year ≤ lastYear

/-- Days between 0000-03-01 and the date. Counted from there, a leap day ends its year. -/
def toDays (d : Date) : Int :=
  let y := if d.month ≤ 2 then d.year - 1 else d.year
  let m : Int := (d.month + 9) % 12
  365 * y + y / 4 - y / 100 + y / 400 + (153 * m + 2) / 5 + d.day - 1

def ofDays (n : Int) : Date :=
  let era := n / 146097
  let dayOfEra := n % 146097
  let yearOfEra := (dayOfEra - dayOfEra / 1460 + dayOfEra / 36524 - dayOfEra / 146096) / 365
  let dayOfYear := dayOfEra - (365 * yearOfEra + yearOfEra / 4 - yearOfEra / 100)
  let m := (5 * dayOfYear + 2) / 153
  let day := dayOfYear - (153 * m + 2) / 5 + 1
  let month := if m < 10 then m + 3 else m - 9
  let year := yearOfEra + era * 400 + if month ≤ 2 then 1 else 0
  ⟨year, month.toNat, day.toNat⟩

end Date

def epochDay : Int := 719468

def dateAt (seconds : Int) : Date := Date.ofDays (seconds / 86400 + epochDay)

def secondOfDay (seconds : Int) : Nat := (seconds % 86400).toNat

/-- Seconds since 1970-01-01T00:00:00Z. A leap second has the number of the second before it, which
is the last one of a minute. -/
structure Second where
  number : Int
  isLeap : Bool
  isInRange : (dateAt number).isInRange = true
  endsMinute : isLeap = true → number % 60 = 59
deriving DecidableEq, Repr

namespace Second

def of? (number : Int) (isLeap : Bool) : Option Second :=
  if h : (dateAt number).isInRange = true ∧ (isLeap = true → number % 60 = 59) then
    some ⟨number, isLeap, h.1, h.2⟩
  else none

instance : Inhabited Second := ⟨⟨0, false, by decide, by decide⟩⟩

instance (n : Nat) : OfNat Second n := ⟨(of? n false).getD default⟩

end Second

-- Found before any other, so that a literal fraction is the same term in every module.
instance (priority := 2000) neZero_fraction : @NeZero Nat Zero.ofOfNat0 1000000000 :=
  ⟨Nat.succ_ne_zero _⟩

structure Instant where
  second : Second
  fraction : Fin 1000000000
deriving DecidableEq, Inhabited, Repr

namespace Instant

abbrev seconds (t : Instant) : Int := t.second.number

/-- The nanoseconds of a leap second run on from those of the second before it. -/
def nanos (t : Instant) : Nat := if t.second.isLeap then 1000000000 + t.fraction else t.fraction

/-- Drops the fraction of the second, not a leap second. -/
def truncate (t : Instant) : Instant := ⟨t.second, 0⟩

abbrev date (t : Instant) : Date := dateAt t.seconds

end Instant

example : (Date.mk 1970 1 1).toDays = epochDay := by decide

example : Date.ofDays (epochDay + 19782) = ⟨2024, 2, 29⟩ := by decide

example : dateAt (-1) = ⟨1969, 12, 31⟩ := by decide

end Submarine.Time
