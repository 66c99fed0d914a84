/-!
# Hexadecimal numbers

How numbers are written in base sixteen: in lowercase without leading zeros (`lowerHex`), and with a
fixed number of digits (`fixedHex`), in which bytes and escapes are written.
-/

namespace LexStream.Text

/-- The lowercase digit of a number `d` below sixteen. -/
def lowerDigit (d : Nat) : Char :=
  if d < 10 then Char.ofNat (48 + d) else Char.ofNat (87 + d)

/-- The uppercase digit of a number `d` below sixteen. -/
def upperDigit (d : Nat) : Char :=
  if d < 10 then Char.ofNat (48 + d) else Char.ofNat (55 + d)

/-- The last `width` digits of a number in base sixteen, the most significant first. -/
def fixedHex (digit : Nat → Char) : Nat → Nat → List Char
  | 0, _ => []
  | width + 1, n => fixedHex digit width (n / 16) ++ [digit (n % 16)]

/-- The byte `b` as two lowercase digits. -/
def byteHex (b : UInt8) : String :=
  String.ofList (fixedHex lowerDigit 2 b.toNat)

/-- The number `n` in lowercase base sixteen, without leading zeros. -/
def lowerHex (n : Nat) : String :=
  String.ofList (Nat.toDigits 16 n)

end LexStream.Text
