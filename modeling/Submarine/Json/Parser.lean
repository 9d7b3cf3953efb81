import Submarine.Decimal.Range
import Submarine.Json.Fragment

namespace Submarine.Json

inductive Flaw where
  | cutOff (told : Fragment)
  | malformed

namespace Flaw

/-- The flaw of a text that goes on with these characters where others are due. -/
def before (told : Fragment) : List Char → Flaw
  | [] => cutOff told
  | _ :: _ => malformed

/-- What is told of a value is told as part of the one around it. -/
def within (outer : Fragment → Fragment) : Flaw → Flaw
  | cutOff told => cutOff (outer told)
  | malformed => malformed

end Flaw

namespace Parser

def isBlank (c : Char) : Bool := c = ' ' || c = '\n' || c = '\t' || c = '\x0d'

def skipBlanks (cs : List Char) : List Char := cs.dropWhile isBlank

def hexValue? (c : Char) : Option Nat :=
  if '0' ≤ c ∧ c ≤ '9' then some (c.toNat - 48)
  else if 'a' ≤ c ∧ c ≤ 'f' then some (c.toNat - 87)
  else if 'A' ≤ c ∧ c ≤ 'F' then some (c.toNat - 55)
  else none

/-- Four hexadecimal digits. Fewer than four bytes are taken for the start of them. -/
def hex4 (told : Fragment) : List Char → Except Flaw (Nat × List Char)
  | a :: b :: c :: d :: rest =>
    match [a, b, c, d].mapM hexValue? with
    | some ds => .ok (ds.foldl (fun n d ↦ n * 16 + d) 0, rest)
    | none => .error .malformed
  | cs => .error (if (String.ofList cs).utf8ByteSize < 4 then .cutOff told else .malformed)

def isHighSurrogate (n : Nat) : Bool := 0xD800 ≤ n && n < 0xDC00

def isLowSurrogate (n : Nat) : Bool := 0xDC00 ≤ n && n < 0xE000

/-- The character of an escape whose backslash and letter `u` have been read. A high surrogate
takes the low one that has to follow it; none if half a pair stands alone. -/
def unicodeEscape (told : Fragment) (cs : List Char) :
    Except Flaw (Option Char × List Char) := do
  let (n, rest) ← hex4 told cs
  if isHighSurrogate n then
    match rest with
    | '\\' :: 'u' :: after =>
      let (low, after) ← hex4 told after
      if isLowSurrogate low then
        return (some (Char.ofNat (0x10000 + (n - 0xD800) * 0x400 + (low - 0xDC00))), after)
      else return (none, rest)
    | [] | ['\\'] => throw (.cutOff told)
    | _ => return (none, rest)
  else return (if isLowSurrogate n then none else some (Char.ofNat n), rest)

def simpleEscape? : Char → Option Char
  | '"' => some '"'
  | '\\' => some '\\'
  | '/' => some '/'
  | 'b' => some '\x08'
  | 'f' => some '\x0c'
  | 'n' => some '\n'
  | 'r' => some '\x0d'
  | 't' => some '\t'
  | _ => none

/-- The rest of a string whose opening quote has been read; what is read stands reversed. There is
no text once half a surrogate pair was met. -/
def stringRest : Nat → Option (List Char) → List Char →
    Except Flaw (Option String × List Char)
  | 0, _, _ => .error .malformed
  | fuel + 1, done, cs =>
    let told : Fragment := if done.isSome then .text else .void
    match cs with
    | [] | ['\\'] => .error (.cutOff told)
    | '"' :: rest => .ok (done.map fun cs ↦ String.ofList cs.reverse, rest)
    | '\\' :: 'u' :: rest => do
      let (c, rest) ← unicodeEscape told rest
      stringRest fuel (do return (← c) :: (← done)) rest
    | '\\' :: e :: rest =>
      match simpleEscape? e with
      | some c => stringRest fuel (done.map (c :: ·)) rest
      | none => .error .malformed
    | c :: rest =>
      if c.toNat < 32 then .error .malformed else stringRest fuel (done.map (c :: ·)) rest

def string (cs : List Char) : Except Flaw (Option String × List Char) :=
  stringRest (cs.length + 1) (some []) cs

def digitsValue (ds : List Char) : Nat := ds.foldl (fun n d ↦ n * 10 + (d.toNat - 48)) 0

def digits (cs : List Char) : Except Flaw (List Char × List Char) :=
  let ds := cs.takeWhile Char.isDigit
  if ds.isEmpty then .error (Flaw.before .word cs) else .ok (ds, cs.dropWhile Char.isDigit)

/-- The whole digits of a number: a lone zero, or digits that do not begin with one. -/
def wholeDigits (cs : List Char) : Except Flaw (List Char × List Char) :=
  match cs with
  | '0' :: rest => .ok (['0'], rest)
  | _ => digits cs

def fraction (cs : List Char) : Except Flaw (List Char × List Char) :=
  match cs with
  | '.' :: rest => digits rest
  | _ => .ok ([], cs)

def exponent (cs : List Char) : Except Flaw ((Bool × List Char) × List Char) :=
  let signed (negative : Bool) (cs : List Char) :=
    (digits cs).map fun (ds, rest) ↦ ((negative, ds), rest)
  match cs with
  | e :: rest =>
    if e = 'e' ∨ e = 'E' then
      match rest with
      | '+' :: rest => signed false rest
      | '-' :: rest => signed true rest
      | _ => signed false rest
    else .ok ((false, []), cs)
  | [] => .ok ((false, []), [])

def number (cs : List Char) : Except Flaw (Json × List Char) := do
  let (negative, unsigned) := match cs with
    | '-' :: rest => (true, rest)
    | _ => (false, cs)
  let (whole, rest) ← wholeDigits unsigned
  let (frac, rest) ← fraction rest
  let ((down, power), rest) ← exponent rest
  let value : Int := if negative then -(digitsValue whole : Int) else digitsValue whole
  if frac.isEmpty ∧ power.isEmpty ∧ ¬ (negative ∧ value = 0) ∧
      -9223372036854775808 ≤ value ∧ value ≤ 18446744073709551615 then
    return (integer value, rest)
  else
    let shift : Int := if down then -(digitsValue power : Int) else digitsValue power
    let written := String.ofList (cs.take (cs.length - rest.length))
    return (if Decimal.isInRange whole frac shift then decimal written else void, rest)

def expect (word : List Char) (j : Json) (cs : List Char) : Except Flaw (Json × List Char) :=
  if word.isPrefixOf cs then .ok (j, cs.drop word.length)
  else if cs.isPrefixOf word then .error (.cutOff .word)
  else .error .malformed

/-- The members of an object so far, the last one first; none once a name was void, for such an
object is void. -/
abbrev Begun := Option Members

def closed (begun : Begun) : Json := begun.elim void fun members ↦ object members.reverse

def unclosed (begun : Begun) (next : Option (Option String × Fragment)) : Fragment :=
  begun.elim .void fun members ↦ .object members.reverse next

mutual

def value : Nat → List Char → Except Flaw (Json × List Char)
  | 0, _ => .error .malformed
  | fuel + 1, cs =>
    match skipBlanks cs with
    | [] => .error (.cutOff .blank)
    | 'n' :: rest => expect "null".toList null ('n' :: rest)
    | 't' :: rest => expect "true".toList (bool true) ('t' :: rest)
    | 'f' :: rest => expect "false".toList (bool false) ('f' :: rest)
    | '"' :: rest => (string rest).map fun (s, rest) ↦ (s.elim void Json.string, rest)
    | '[' :: rest =>
      match skipBlanks rest with
      | ']' :: rest => .ok (array [], rest)
      | [] => .error (.cutOff (.array [] none))
      | _ => items fuel [] rest
    | '{' :: rest =>
      match skipBlanks rest with
      | '}' :: rest => .ok (object [], rest)
      | [] => .error (.cutOff (.object [] none))
      | _ => members fuel (some []) rest
    | cs => number cs

def items : Nat → List Json → List Char → Except Flaw (Json × List Char)
  | 0, _, _ => .error .malformed
  | fuel + 1, done, cs =>
    match value fuel cs with
    | .error flaw => .error (Flaw.within (fun f ↦ .array done.reverse (some f)) flaw)
    | .ok (j, rest) =>
      match skipBlanks rest with
      | ',' :: rest => items fuel (j :: done) rest
      | ']' :: rest => .ok (array (j :: done).reverse, rest)
      | rest => .error (Flaw.before (.array (j :: done).reverse none) rest)

def members : Nat → Begun → List Char → Except Flaw (Json × List Char)
  | 0, _, _ => .error .malformed
  | fuel + 1, done, cs =>
    match skipBlanks cs with
    | '"' :: rest =>
      match string rest with
      | .error flaw =>
        .error (Flaw.within (fun f ↦ match f with
          | .void => .void
          | _ => unclosed done (some (none, .blank))) flaw)
      | .ok (name?, rest) =>
        let named : Begun × Fragment → Fragment := fun b ↦
          (name?.elim .void fun name ↦ unclosed b.1 (some (some name, b.2)))
        match skipBlanks rest with
        | ':' :: rest =>
          match value fuel rest with
          | .error flaw => .error (Flaw.within (fun f ↦ named (done, f)) flaw)
          | .ok (j, rest) =>
            let done : Begun := do return (← name?, j) :: (← done)
            match skipBlanks rest with
            | ',' :: rest => members fuel done rest
            | '}' :: rest => .ok (closed done, rest)
            | rest => .error (Flaw.before (unclosed done none) rest)
        | rest => .error (Flaw.before (named (done, .blank)) rest)
    | rest => .error (Flaw.before (unclosed done (some (none, .blank))) rest)

end

end Parser

def read (text : String) : Except Flaw Json := do
  let cs := text.toList
  let (j, rest) ← Parser.value (2 * cs.length + 2) cs
  if (Parser.skipBlanks rest).isEmpty then return j else throw .malformed

mutual

/-- Every object of the value with only the last member of each name. -/
def settled : Json → Json
  | array items => array (settledItems items)
  | object members => object (settledMembers members)
  | j => j

def settledItems : List Json → List Json
  | [] => []
  | j :: rest => settled j :: settledItems rest

def settledMembers : Members → Members
  | [] => []
  | (name, j) :: rest =>
    if rest.any (·.1 = name) then settledMembers rest else (name, settled j) :: settledMembers rest

end

/-- The value that the text holds, if all of it is sound. Of a repeated member the last counts. -/
def parse? (text : String) : Option Json :=
  ((read text).toOption.filter (isSound maxDepth)).map settled

end Submarine.Json
