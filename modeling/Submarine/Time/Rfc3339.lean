import Submarine.Text.Blank
import Submarine.Time.Instant

namespace Submarine.Time.Rfc3339

open Submarine.Text (isBlank trimStart)

def digits (most : Nat) (cs : List Char) : Option (Nat × List Char) :=
  let ds := (cs.take most).takeWhile Char.isDigit
  if ds.isEmpty then none
  else some (ds.foldl (fun n d ↦ n * 10 + (d.toNat - 48)) 0, cs.drop ds.length)

def number (most : Nat) (cs : List Char) : Option (Nat × List Char) := digits most (trimStart cs)

def allDigits (cs : List Char) : Option (Nat × List Char) := digits cs.length cs

/-- Four digits at most, or any number of them after a sign. -/
def year (cs : List Char) : Option (Int × List Char) :=
  match trimStart cs with
  | '-' :: rest => (allDigits rest).map fun r ↦ (-(r.1 : Int), r.2)
  | '+' :: rest => (allDigits rest).map fun r ↦ ((r.1 : Int), r.2)
  | cs => (digits 4 cs).map fun r ↦ ((r.1 : Int), r.2)

def literal (c : Char) (cs : List Char) : Option (List Char) :=
  match trimStart cs with
  | [] => none
  | d :: rest => if c = d then some rest else none

/-- Nanoseconds from up to nine digits after the point; further digits are dropped. -/
def fraction (cs : List Char) : Option (Nat × List Char) :=
  match cs with
  | '.' :: rest => do
    let (n, after) ← digits 9 rest
    return (n * Nat.pow 10 (9 - (rest.length - after.length)), after.dropWhile Char.isDigit)
  | _ => some (0, cs)

def twoDigits (cs : List Char) : Option (Nat × List Char) :=
  match cs with
  | a :: b :: rest =>
    if a.isDigit ∧ b.isDigit then some ((a.toNat - 48) * 10 + (b.toNat - 48), rest) else none
  | _ => none

/-- Seconds east of UTC: `Z`, `UTC`, or hours and minutes after a sign. -/
def offset (cs : List Char) : Option (Int × List Char) :=
  let magnitude (cs : List Char) : Option (Nat × List Char) := do
    let (hours, cs) ← twoDigits cs
    let (minutes, cs) ← twoDigits (cs.dropWhile fun c ↦ c = ':' || isBlank c)
    if minutes < 60 ∧ hours < 24 then return (hours * 3600 + minutes * 60, cs) else none
  match cs with
  | [] => none
  | c :: rest =>
    if (cs.take 3).map Char.toUpper = ['U', 'T', 'C'] then some (0, cs.drop 3)
    else if c = 'Z' ∨ c = 'z' then some (0, rest)
    else if c = '+' then (magnitude rest).map fun r ↦ ((r.1 : Int), r.2)
    else if c = '-' ∨ c = '\u2212' then (magnitude rest).map fun r ↦ (-(r.1 : Int), r.2)
    else none

def separator (cs : List Char) : Option (List Char) :=
  match cs with
  | c :: rest => if c = 'T' ∨ c = 't' ∨ c = ' ' then some rest else none
  | [] => none

/-- The instant of a date and a time of day. The 60th second is a leap second. -/
def instant? (date : Date) (hour minute second nanos : Nat) (offset : Int) : Option Instant :=
  if date.isValid ∧ date.isInRange ∧ hour < 24 ∧ minute < 60 ∧ second ≤ 60 then
    let ofDay := hour * 3600 + minute * 60 + min second 59
    let number := (date.toDays - epochDay) * 86400 + ofDay - offset
    (Second.of? number (second = 60)).map fun s ↦ ⟨s, Fin.ofNat _ nanos⟩
  else none

def read? (cs : List Char) : Option Instant := do
  let (year, cs) ← year cs
  let cs ← literal '-' cs
  let (month, cs) ← number 2 cs
  let cs ← literal '-' cs
  let (day, cs) ← number 2 cs
  let cs ← separator cs
  let (hour, cs) ← number 2 cs
  let cs ← literal ':' cs
  let (minute, cs) ← number 2 cs
  let cs ← literal ':' cs
  let (second, cs) ← number 2 cs
  let (nanos, cs) ← fraction cs
  let (offset, cs) ← offset (trimStart cs)
  if (trimStart cs).isEmpty then instant? ⟨year, month, day⟩ hour minute second nanos offset
  else none

def parse? (text : String) : Option Instant := read? text.toList

def padded : Nat → Nat → List Char
  | 0, _ => []
  | width + 1, n => padded width (n / 10) ++ [Char.ofNat (48 + n % 10)]

/-- Years outside 0 to 9999 carry a sign. -/
def writeYear (year : Int) : List Char :=
  let size := year.natAbs
  if 0 ≤ year ∧ year ≤ 9999 then padded 4 size
  else (if year < 0 then '-' else '+') :: padded (max 4 (Nat.toDigits 10 size).length) size

/-- Three, six or nine digits after the point, the fewest that are exact. -/
def writeFraction (nanos : Nat) : List Char :=
  if nanos = 0 then []
  else if nanos % 1000000 = 0 then '.' :: padded 3 (nanos / 1000000)
  else if nanos % 1000 = 0 then '.' :: padded 6 (nanos / 1000)
  else '.' :: padded 9 nanos

def writeSeconds (seconds : Int) (nanos : Nat) : List Char :=
  let date := dateAt seconds
  let ofDay := secondOfDay seconds
  let second := ofDay % 60 + nanos / 1000000000
  writeYear date.year ++ '-' :: padded 2 date.month ++ '-' :: padded 2 date.day ++
    'T' :: padded 2 (ofDay / 3600) ++ ':' :: padded 2 (ofDay / 60 % 60) ++ ':' :: padded 2 second

/-- A thousand million nanoseconds count as a second more. -/
def writeParts (seconds : Int) (nanos : Nat) : List Char :=
  writeSeconds seconds nanos ++ writeFraction (nanos % 1000000000) ++ ['Z']

def write (t : Instant) : List Char := writeParts t.seconds t.nanos

def render (t : Instant) : String := String.ofList (write t)

/-- Always six digits after the point; further digits are dropped. -/
def renderMicros (t : Instant) : String :=
  String.ofList (writeSeconds t.seconds t.nanos ++ '.' :: padded 6 (t.fraction / 1000) ++ ['Z'])

end Submarine.Time.Rfc3339
