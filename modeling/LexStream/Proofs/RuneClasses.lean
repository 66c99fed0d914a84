import LexStream.Proofs.Grammar

/-!
# Blanks and first runes

A token in front of white space ends there, since white space belongs to no class that a token goes
on with.  And the first rune of a token tells operators from all the others.

Main facts:

* `Rune.of_isSpace`: what holds of every white space listed holds of all white space;
* `Rune.not_isNameRune_of_isSpace`, `Rune.digitValue?_of_isSpace`: white space is no rune of a name
  and no digit;
* `Grammar.isSpace_operator`, `Grammar.start_operator`: operators hold no white space, and start
  with no rune that another token starts with, except for the colon.
-/

namespace LexStream

namespace Rune

/-! ### White space -/

/-- What holds of every code point in the table `Unicode.whiteSpace` holds of every rune `r` with
`isSpace`. -/
theorem of_isSpace {q : Char → Bool}
    (hall : Unicode.whiteSpace.codePoints.all (fun n => q (.ofNat n)) = true) {r : Char}
    (h : isSpace r = true) : q r = true := by
  have hq := Unicode.RangeTable.forall_of_all_codePoints (by decide) hall h
  rwa [Char.ofNat_toNat] at hq

theorem not_isNameRune_of_isSpace {r : Char} (h : isSpace r = true) : isNameRune r = false := by
  have hq := of_isSpace (q := fun r => !isNameRune r) (by decide +kernel) h
  simpa using hq

/-- White space is no digit, of any base, and none of the letters that a numeral may hold:
`digitValue?` gives it no value. -/
theorem digitValue?_of_isSpace {r : Char} (h : isSpace r = true) : Text.digitValue? r = none := by
  have hq := of_isSpace (q := fun r => (Text.digitValue? r).isNone) (by decide +kernel) h
  simpa using hq

theorem not_isDigitIn_of_isSpace {r : Char} (base : Nat) (h : isSpace r = true) :
    Text.isDigitIn base r = false := by
  rw [Text.isDigitIn, digitValue?_of_isSpace h]

theorem not_isDigit_of_isSpace {r : Char} (h : isSpace r = true) : r.isDigit = false := by
  have hq := of_isSpace (q := fun r => !r.isDigit) (by decide) h
  simpa using hq

theorem isSpace_of_isBlank {r : Char} (h : isBlank r = true) : isSpace r = true := by
  simp only [isBlank, Bool.and_eq_true] at h
  exact h.2

end Rune

namespace Grammar

/-! ### Brackets and operators -/

/-- A rune that opens a payload, one with a `closer?`, is no letter. -/
theorem isAlphabetic_opener {opener closer : Char} (h : Rune.closer? opener = some closer) :
    Rune.isAlphabetic opener = false := by
  unfold Rune.closer? at h
  split at h
  next hr => subst hr; decide
  next =>
    split at h
    next hr => subst hr; decide
    next =>
      split at h
      next hr => subst hr; decide
      next => cases h

/-- No lexeme of `Token.operators` holds white space. -/
theorem isSpace_operator {row : String × Token} (hrow : row ∈ Token.operators) {r : Char}
    (hr : r ∈ row.1.toList) : Rune.isSpace r = false := by
  have hall :
      (Token.operators.all fun row => row.1.toList.all fun r => !Rune.isSpace r) = true := by
    decide +kernel
  have hr := List.all_eq_true.1 (List.all_eq_true.1 hall row hrow) r hr
  simpa using hr

/-- The rune `first` of an operator starts no newline, literal, numeral or word, the underscore
excepted. -/
theorem start_operator {row : String × Token} (hrow : row ∈ Token.operators) {first : Char}
    {rest : List Char} (hruns : row.1.toList = first :: rest) :
    first ≠ '\n' ∧ isSentinel first = false ∧ first.isDigit = false ∧
      (Rune.isNameRune first = true → first = '_') := by
  have hall : (Token.operators.all fun row => row.1.toList.head?.all fun r =>
      r ≠ '\n' ∧ isSentinel r = false ∧ r.isDigit = false ∧
        (Rune.isNameRune r = true → r = '_')) = true := by decide +kernel
  have hfirst := List.all_eq_true.1 hall row hrow
  rw [hruns] at hfirst
  exact of_decide_eq_true hfirst

/-- Behind a colon, an operator goes on with `=` alone. -/
theorem colon_operator {row : String × Token} (hrow : row ∈ Token.operators) {rest : List Char}
    (hruns : row.1.toList = ':' :: rest) : rest = ['='] := by
  have hall : ∀ row ∈ Token.operators, row.1.toList.head? = some ':' →
      row.1.toList.tail = ['='] := by decide
  have htail := hall row hrow (by rw [hruns]; rfl)
  rwa [hruns] at htail

end Grammar

end LexStream
