namespace Submarine.Text.FormEncoded

def isPlain (b : UInt8) : Bool :=
  let c := Char.ofNat b.toNat
  b < 128 && (c.isAlphanum || c = '*' || c = '-' || c = '.' || c = '_')

def digit (n : Nat) : Char := if n < 10 then Char.ofNat (48 + n) else Char.ofNat (55 + n)

def encodeByte (b : UInt8) : List Char :=
  if isPlain b then [Char.ofNat b.toNat]
  else if b = 32 then ['+']
  else ['%', digit (b.toNat / 16), digit (b.toNat % 16)]

def encode (s : String) : String := String.ofList (s.toUTF8.toList.flatMap encodeByte)

end Submarine.Text.FormEncoded
