namespace Submarine.Net

structure Uri where
  scheme : Option String
  authority : Option String
  -- Empty if the URI is a host alone.
  path : String
  query : Option String
deriving DecidableEq, Repr

structure AuthorityScan where
  colons : Nat
  isOpened : Bool
  isClosed : Bool
  -- Whether a percent sign stands outside the user and the brackets.
  hasPercent : Bool
  endsInAt : Bool

namespace AuthorityScan

def start : AuthorityScan := ⟨0, false, false, false, false⟩

def maxColons : Nat := 8

def isPlain (c : Char) : Bool := c.isAlphanum || "!$&'()*+,-.;=_~".contains c

/-- Reads one character more. An at sign ends the user, and a bracket the address that it is closed
over: their colons and percent signs no longer count. -/
def next? (s : AuthorityScan) (c : Char) : Option AuthorityScan :=
  let s := { s with endsInAt := c = '@' }
  match c with
  | ':' => if s.colons < maxColons then some { s with colons := s.colons + 1 } else none
  | '[' => if s.hasPercent ∨ s.isOpened then none else some { s with isOpened := true }
  | ']' =>
    if s.isOpened ∧ ¬ s.isClosed then
      some { s with isClosed := true, colons := 0, hasPercent := false }
    else none
  | '@' => some { s with colons := 0, hasPercent := false }
  | '%' => some { s with hasPercent := true }
  | c => if isPlain c then some s else none

def isWhole (s : AuthorityScan) : Bool :=
  s.isOpened = s.isClosed && s.colons ≤ 1 && !s.hasPercent && !s.endsInAt

end AuthorityScan

def isAuthority (cs : List Char) : Bool :=
  !cs.isEmpty && (cs.foldlM AuthorityScan.next? .start).any AuthorityScan.isWhole

namespace Uri

def isPathChar (c : Char) : Bool :=
  33 ≤ c.toNat && c.toNat ≠ 127 && c ≠ '<' && c ≠ '>' && c ≠ '\x60'

def isQueryChar (c : Char) : Bool :=
  33 ≤ c.toNat && c.toNat ≠ 127 && c ≠ '<' && c ≠ '>' && c ≠ '"'

def isSchemeChar (c : Char) : Bool := c.isAlphanum || "+-.~".contains c

def maxBytes : Nat := 65534

def maxSchemeLength : Nat := 64

def splitScheme? (cs : List Char) : Option (List Char × List Char) :=
  let scheme := cs.takeWhile isSchemeChar
  match cs.drop scheme.length with
  | ':' :: '/' :: '/' :: rest => some (scheme, rest)
  | _ => none

def ofTarget? (scheme authority : Option String) (cs : List Char) : Option Uri :=
  let asked := cs.takeWhile (· ≠ '#')
  let path := asked.takeWhile (· ≠ '?')
  let query := asked.drop path.length
  if path.all isPathChar && (query.drop 1).all isQueryChar then
    some {
      scheme
      authority
      path := if path.isEmpty then "/" else String.ofList path
      query := if query.isEmpty then none else some (String.ofList (query.drop 1)) }
  else none

def ofText? (text : String) : Option Uri :=
  if maxBytes < text.utf8ByteSize then none
  else match text.toList with
    | ['*'] => some ⟨none, none, "*", none⟩
    | '/' :: rest => ofTarget? none none ('/' :: rest)
    | cs =>
      match splitScheme? cs with
      | none => if isAuthority cs then some ⟨none, some text, "", none⟩ else none
      | some (scheme, rest) =>
        let authority := rest.takeWhile fun c ↦ c ≠ '/' ∧ c ≠ '?' ∧ c ≠ '#'
        if scheme.length ≤ maxSchemeLength && isAuthority authority then
          ofTarget? (some (String.ofList scheme)) (some (String.ofList authority))
            (rest.drop authority.length)
        else none

def target (u : Uri) : String := u.path ++ u.query.elim "" ("?" ++ ·)

end Uri

end Submarine.Net
