/-!
# Digits

The value of an ASCII rune as a digit, and the digits of a base.  Letters count on from ten in
either case, so bases up to thirty-six have digits; runes beyond ASCII are no digits of any base.
-/

namespace LexStream.Text

/-- The value of an ASCII digit or letter `r` as a digit, letters from `10` on. -/
def digitValue? (r : Char) : Option Nat :=
  if '0' ≤ r && r ≤ '9' then some (r.toNat - 48)
  else if 'a' ≤ r && r ≤ 'z' then some (r.toNat - 87)
  else if 'A' ≤ r && r ≤ 'Z' then some (r.toNat - 55)
  else none

/-- A decimal digit `r` is worth its distance from the zero, `r.toNat - 48`. -/
theorem digitValue?_of_isDigit {r : Char} (h : r.isDigit = true) :
    digitValue? r = some (r.toNat - 48) := by
  have hrange : 48 ≤ r.val ∧ r.val ≤ 57 := by simpa [Char.isDigit] using h
  have hlow : '0' ≤ r := hrange.1
  have hhigh : r ≤ '9' := hrange.2
  simp [digitValue?, hlow, hhigh]

/-- Whether `digitValue?` is below `base`, so that `r` is a digit of this base. -/
def isDigitIn (base : Nat) (r : Char) : Bool :=
  match digitValue? r with
  | some value => value < base
  | none => false

/-- The number that the `digits` stand for in the `base`, the runes that are no digits left out. -/
def numberIn (base : Nat) (digits : List Char) : Nat :=
  (digits.filterMap digitValue?).foldl (fun n value => n * base + value) 0

end LexStream.Text
