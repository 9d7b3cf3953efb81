import Submarine.Json.Basic

namespace Submarine.Json.Yaml

/-- Characters that mean something else at the start of a value. -/
def isIndicator (c : Char) : Bool := "-?:,[]\x7b\x7d#&*!|>'\"%@\x60".contains c

/-- Whether a colon or a number sign ends the value before the text does. -/
def hasMark : List Char → Bool
  | [] => false
  | [c] => c = ':'
  | a :: b :: rest => (a = ':' && b = ' ') || (a = ' ' && b = '#') || hasMark (b :: rest)

def isReserved (s : String) : Bool :=
  ["", "~", "null", "Null", "NULL", "true", "True", "TRUE", "false", "False", "FALSE"].contains s

def looksNumeric (s : String) : Bool :=
  match s.toList with
  | [] => false
  | c :: rest =>
    (c.isDigit || c = '+' || c = '-' || c = '.') &&
      rest.all fun c ↦ c.isDigit || c = '.' || c = 'e' || c = 'E' || c = '_' || c = 'x' || c = 'o'

def isPlain (s : String) : Bool :=
  !isReserved s && !looksNumeric s && !hasMark s.toList && !s.startsWith " " && !s.endsWith " " &&
    (s.toList.head?.all fun c ↦ !isIndicator c) &&
    s.toList.all fun c ↦ 32 ≤ c.toNat && c.toNat ≠ 127

def inline (s : String) : String :=
  if isPlain s then s
  else
    let doubled := s.toList.flatMap fun c ↦ if c = '\x27' then ['\x27', '\x27'] else [c]
    "'" ++ String.ofList doubled ++ "'"

def indent (depth : Nat) : String := String.ofList (List.replicate (2 * depth) ' ')

/-- The lines of a literal block under its mark, which says that no line end follows the last. -/
def block (depth : Nat) (s : String) : List String :=
  "|-" :: (s.splitOn "\n").map fun line ↦ if line = "" then "" else indent depth ++ line

/-- Lines of which the first is put behind what stands before it. -/
def behind (before : String) : List String → List String
  | [] => [before]
  | line :: lines => (before ++ line) :: lines

mutual

/-- The lines of a value at a depth. The first line is not indented. -/
def lines (depth : Nat) : Json → List String
  | null | void => ["null"]
  | bool b => [if b then "true" else "false"]
  | integer n => [toString n]
  | decimal text => [text]
  | string s => if s.contains '\n' then block depth s else [inline s]
  | array [] => ["[]"]
  | object [] => ["\x7b\x7d"]
  | array (j :: items) => behind "- " (lines (depth + 1) j) ++ itemLines depth items
  | object ((name, j) :: members) => memberLines depth name j ++ moreLines depth members

def itemLines (depth : Nat) : List Json → List String
  | [] => []
  | j :: items =>
    behind (indent depth ++ "- ") (lines (depth + 1) j) ++ itemLines depth items

/-- A member whose name is not indented. The items of an array stand as deep as its name. -/
def memberLines (depth : Nat) (name : String) : Json → List String
  | array (j :: items) =>
    (inline name ++ ":") ::
      behind (indent depth ++ "- ") (lines (depth + 1) j) ++ itemLines depth items
  | object (m :: members) =>
    (inline name ++ ":") :: behind (indent (depth + 1)) (lines (depth + 1) (object (m :: members)))
  | j => behind (inline name ++ ": ") (lines (depth + 1) j)

def moreLines (depth : Nat) : Members → List String
  | [] => []
  | (name, j) :: members =>
    behind (indent depth) (memberLines depth name j) ++ moreLines depth members

end

def render (j : Json) : String := String.join ((lines 0 j).map (· ++ "\n"))

end Submarine.Json.Yaml
