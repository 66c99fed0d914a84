import LexStream.Unicode.Alphabetic
import LexStream.Unicode.Numeric
import LexStream.Unicode.WhiteSpace

/-!
# Classes of runes

The questions that a scan asks about single runes: whether one may stand in a name or separates
tokens, and which rune closes a bracketed payload.  Letters, numbers and white space are those of
Unicode.
-/

namespace LexStream.Rune

/-- A letter, of any script: `r` is in the table `Unicode.alphabetic`. -/
def isAlphabetic (r : Char) : Bool :=
  Unicode.alphabetic.contains r.toNat

/-- A decimal digit, letter number or other number, of any script: `r` is in `Unicode.numeric`. -/
def isNumeric (r : Char) : Bool :=
  Unicode.numeric.contains r.toNat

/-- White space, the newline included: `r` is in `Unicode.whiteSpace`. -/
def isSpace (r : Char) : Bool :=
  Unicode.whiteSpace.contains r.toNat

/-- White space that separates tokens without being one: all of `isSpace` but the newline. -/
def isBlank (r : Char) : Bool :=
  r != '\n' && isSpace r

/-- A rune of a name: `isAlphabetic`, `isNumeric` or the underscore. -/
def isNameRune (r : Char) : Bool :=
  r == '_' || isAlphabetic r || isNumeric r

/-- The rune that closes a payload opened by `opener`; braces, parentheses and bars open one. -/
def closer? (opener : Char) : Option Char :=
  if opener = '{' then some '}'
  else if opener = '(' then some ')'
  else if opener = '|' then some '|'
  else none

end LexStream.Rune
