import Submarine.Text.Glyphless

namespace Submarine.Text

def hexDigits (n : Nat) : List Char := Nat.toDigits 16 n

def escapeShown (c : Char) : List Char :=
  if c = '\x00' then ['\\', '0']
  else if c = '\t' then ['\\', 't']
  else if c = '\x0d' then ['\\', 'r']
  else if c = '\n' then ['\\', 'n']
  else if c = '"' then ['\\', '"']
  else if c = '\\' then ['\\', '\\']
  else if isGlyphless c then ['\\', 'u', '{'] ++ hexDigits c.toNat ++ ['}']
  else [c]

def quoted (s : String) : String := String.ofList ('"' :: s.toList.flatMap escapeShown ++ ['"'])

end Submarine.Text
