namespace Submarine.Net

inductive SocketAddress where
  | v4 (octets : List Nat) (port : Nat)
  | v6 (groups : List Nat) (scope port : Nat)
deriving DecidableEq, Repr

namespace SocketAddress

def digitIn? (radix : Nat) (c : Char) : Option Nat :=
  let n := c.toNat
  let d := if 48 ≤ n ∧ n ≤ 57 then n - 48
    else if 97 ≤ n ∧ n ≤ 122 then n - 87
    else if 65 ≤ n ∧ n ≤ 90 then n - 55
    else radix
  if d < radix then some d else none

def takeDigits (radix : Nat) : List Char → List Nat × List Char
  | [] => ([], [])
  | c :: rest =>
    match digitIn? radix c with
    | none => ([], c :: rest)
    | some d => let (ds, rest) := takeDigits radix rest; (d :: ds, rest)

def number (radix : Nat) (maxDigits : Option Nat) (zeroPrefix : Bool) (limit : Nat)
    (cs : List Char) : Option (Nat × List Char) :=
  let (ds, rest) := takeDigits radix cs
  let n := ds.foldl (fun n d ↦ n * radix + d) 0
  if ds.isEmpty ∨ maxDigits.any (· < ds.length) ∨ limit < n ∨
      (¬ zeroPrefix ∧ ds.head? = some 0 ∧ 1 < ds.length) then none
  else some (n, rest)

def char (c : Char) : List Char → Option (List Char)
  | [] => none
  | d :: rest => if c = d then some rest else none

def separated {α : Type} (c : Char) (index : Nat) (read : List Char → Option (α × List Char))
    (cs : List Char) : Option (α × List Char) :=
  if index = 0 then read cs else (char c cs).bind read

def octet : List Char → Option (Nat × List Char) := number 10 (some 3) false 255

def octets (cs : List Char) : Option (List Nat × List Char) := do
  let (a, cs) ← octet cs
  let (b, cs) ← separated '.' 1 octet cs
  let (c, cs) ← separated '.' 2 octet cs
  let (d, cs) ← separated '.' 3 octet cs
  return ([a, b, c, d], cs)

/-- Up to `left` groups, and whether the last two of them were written as four octets. -/
def groups : Nat → Nat → List Char → (List Nat × Bool) × List Char
  | _, 0, cs => (([], false), cs)
  | index, left + 1, cs =>
    match if 0 < left then separated ':' index octets cs else none with
    | some ([a, b, c, d], cs) => (([a * 256 + b, c * 256 + d], true), cs)
    | _ =>
      match separated ':' index (number 16 (some 4) true 65535) cs with
      | none => (([], false), cs)
      | some (g, cs) =>
        let ((gs, mapped), cs) := groups (index + 1) left cs
        ((g :: gs, mapped), cs)

def address6 (cs : List Char) : Option (List Nat × List Char) := do
  let ((head, mapped), cs) := groups 0 8 cs
  if head.length = 8 then return (head, cs)
  if mapped then none
  let cs ← char ':' cs
  let cs ← char ':' cs
  let ((tail, _), cs) := groups 0 (7 - head.length) cs
  return (head ++ List.replicate (8 - head.length - tail.length) 0 ++ tail, cs)

def readPort (cs : List Char) : Option (Nat × List Char) :=
  (char ':' cs).bind (number 10 none true 65535)

def readScope (cs : List Char) : Nat × List Char :=
  ((char '%' cs).bind (number 10 none true 4294967295)).getD (0, cs)

def read4 (cs : List Char) : Option (SocketAddress × List Char) := do
  let (ip, cs) ← octets cs
  let (port, cs) ← readPort cs
  return (v4 ip port, cs)

def read6 (cs : List Char) : Option (SocketAddress × List Char) := do
  let cs ← char '[' cs
  let (ip, cs) ← address6 cs
  let (scope, cs) := readScope cs
  let cs ← char ']' cs
  let (port, cs) ← readPort cs
  return (v6 ip scope port, cs)

def parse? (cs : List Char) : Option SocketAddress :=
  match (read4 cs).or (read6 cs) with
  | some (a, []) => some a
  | _ => none

def renderOctets (ip : List Nat) : String := ".".intercalate (ip.map toString)

def renderGroups (gs : List Nat) : String :=
  ":".intercalate (gs.map fun g ↦ String.ofList (Nat.toDigits 16 g))

/-- Start and length of the first longest run of zeros. -/
def zeroRun (gs : List Nat) : Nat × Nat :=
  let step := fun (state : (Nat × Nat) × (Nat × Nat)) (item : Nat × Nat) ↦
    let (longest, current) := state
    if item.1 = 0 then
      let current := if current.2 = 0 then (item.2, 1) else (current.1, current.2 + 1)
      (if longest.2 < current.2 then current else longest, current)
    else (longest, (0, 0))
  (gs.zipIdx.foldl step ((0, 0), (0, 0))).1

def render6 (gs : List Nat) : String :=
  match gs with
  | [0, 0, 0, 0, 0, 65535, hi, lo] =>
    "::ffff:" ++ renderOctets [hi / 256, hi % 256, lo / 256, lo % 256]
  | _ =>
    let (start, length) := zeroRun gs
    if 1 < length then
      renderGroups (gs.take start) ++ "::" ++ renderGroups (gs.drop (start + length))
    else renderGroups gs

def render : SocketAddress → String
  | v4 ip port => renderOctets ip ++ ":" ++ toString port
  | v6 ip 0 port => "[" ++ render6 ip ++ "]:" ++ toString port
  | v6 ip scope port => "[" ++ render6 ip ++ "%" ++ toString scope ++ "]:" ++ toString port

end SocketAddress

end Submarine.Net
