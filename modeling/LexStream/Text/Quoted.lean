import LexStream.Text.Hex
import LexStream.Unicode.DefaultIgnorable
import LexStream.Unicode.ExtendingMark
import LexStream.Unicode.Unprintable

/-!
# Quoted text

The form in which messages show runes and texts: between quotes, with everything that would not show
escaped.  NUL, tab, carriage return and newline have escapes of their own, the quote and the
backslash are preceded by a backslash, and any other rune that is a mark on the rune before it or
leaves no ink is written by its number.
-/

namespace LexStream.Text

/-- Whether `quoted` shows the rune `r` by its number, as `\u` with braces. -/
def isShownByNumber (r : Char) : Bool :=
  Unicode.extendingMarks.contains r.toNat || Unicode.unprintable.contains r.toNat ||
    Unicode.defaultIgnorable.contains r.toNat

/-- The form of a rune between quotes `quote`. -/
def escaped (quote r : Char) : String :=
  if r = '\x00' then "\\0"
  else if r = '\t' then "\\t"
  else if r = '\r' then "\\r"
  else if r = '\n' then "\\n"
  else if r = quote || r = '\\' then String.ofList ['\\', r]
  else if isShownByNumber r then "\\u\x7b" ++ lowerHex r.toNat ++ "\x7d"
  else String.ofList [r]

/-- The rune `r` between single quotes, escaped. -/
def quotedRune (r : Char) : String :=
  "'" ++ escaped '\'' r ++ "'"

/-- The `text` between double quotes, escaped. -/
def quoted (text : String) : String :=
  "\"" ++ String.join (text.toList.map (escaped '"')) ++ "\""

end LexStream.Text
