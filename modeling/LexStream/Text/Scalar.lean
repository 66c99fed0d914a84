/-!
# Runes by number

The rune with a given number, where there is one: surrogates and numbers beyond U+10FFFF have none.
-/

namespace LexStream.Text

/-- The rune with the number `n`. -/
def scalar? (n : Nat) : Option Char :=
  if n.isValidChar then some (Char.ofNat n) else none

end LexStream.Text
