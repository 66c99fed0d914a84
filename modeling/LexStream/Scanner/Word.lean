import LexStream.Finding
import LexStream.Rune
import LexStream.Run
import LexStream.Token.Spelling

/-!
# Scanning words

Names, reserved words and truth values are the longest rows of name runes; a symbol is a colon with
such a row, which may be empty.
-/

namespace LexStream.Scanner

variable {σ : Type} [ByteSource σ]

/-- Scans the word that starts with `first`, which is passed. -/
def word (start : Position) (first : Char) : Scan σ Finding := do
  let rest ← Run.scanClass Rune.isNameRune
  let text := String.singleton first ++ rest
  return .ofToken start (Token.ofWord text) text

/-- Scans the symbol whose colon stood at `start` and is passed. -/
def symbol (start : Position) : Scan σ Finding := do
  let name ← Run.scanClass Rune.isNameRune
  return .ofToken start .symbol (":" ++ name)

theorem word_shrinks (start : Position) (first : Char) :
    (word start first : Scan σ Finding).Shrinks :=
  .bind (Run.scanClass_shrinks _) fun _ => .pure _

theorem symbol_shrinks (start : Position) : (symbol start : Scan σ Finding).Shrinks :=
  .bind (Run.scanClass_shrinks _) fun _ => .pure _

end LexStream.Scanner
