import Submarine.Json.Basic

namespace Submarine.Json

def hexDigit (n : Nat) : Char := "0123456789abcdef".toList.getD n '0'

/-- A quote, a backslash and the control characters are escaped; all else stands for itself. -/
def escape (c : Char) : List Char :=
  if c = '"' then ['\\', '"']
  else if c = '\\' then ['\\', '\\']
  else if c = '\x08' then ['\\', 'b']
  else if c = '\x0c' then ['\\', 'f']
  else if c = '\n' then ['\\', 'n']
  else if c = '\x0d' then ['\\', 'r']
  else if c = '\t' then ['\\', 't']
  else if c.toNat < 32 then
    ['\\', 'u', '0', '0', hexDigit (c.toNat / 16), hexDigit (c.toNat % 16)]
  else [c]

def quote (s : String) : String := String.ofList ('"' :: s.toList.flatMap escape ++ ['"'])

mutual

def render : Json → String
  | null => "null"
  | bool true => "true"
  | bool false => "false"
  | integer n => toString n
  | decimal text => text
  | string s => quote s
  | void => "null"
  | array items => "[" ++ ",".intercalate (renderItems items) ++ "]"
  | object members => "\x7b" ++ ",".intercalate (renderMembers members) ++ "\x7d"

def renderItems : List Json → List String
  | [] => []
  | j :: rest => render j :: renderItems rest

def renderMembers : Members → List String
  | [] => []
  | (name, j) :: rest => (quote name ++ ":" ++ render j) :: renderMembers rest

end

end Submarine.Json
