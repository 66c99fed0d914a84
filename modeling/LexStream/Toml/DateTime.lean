import LexStream.Text.Digit
import LexStream.Toml.Node

/-!
# Dates and times

The dates and times of a TOML document: a date, a time of day, or both with or without an offset.
Months have as many days as the calendar gives them, and a minute may have a sixty-first second.
-/

namespace LexStream.Toml.DateTime

/-- Reads a number of exactly `width` digits between `least` and `most`. -/
def field? (width least most : Nat) (text : List Char) : Option (Nat × List Char) :=
  let digits := text.take width
  let n := Text.numberIn 10 digits
  if digits.length = width && digits.all Char.isDigit && least ≤ n && n ≤ most then
    some (n, text.drop width)
  else none

/-- Reads the rune `r`. -/
def rune? (r : Char) : List Char → Option (List Char)
  | c :: rest => if c = r then some rest else none
  | [] => none

/-- The number of days of the `month` in the `year`, leap years considered. -/
def daysIn (year month : Nat) : Nat :=
  if month = 2 then if year % 4 = 0 && (year % 100 ≠ 0 || year % 400 = 0) then 29 else 28
  else if month = 4 || month = 6 || month = 9 || month = 11 then 30
  else 31

/-- Reads a date `yyyy-mm-dd` and gives what follows. -/
def date? (text : List Char) : Option (List Char) := do
  let (year, text) ← field? 4 0 9999 text
  let text ← rune? '-' text
  let (month, text) ← field? 2 1 12 text
  let text ← rune? '-' text
  let (_, text) ← field? 2 1 (daysIn year month) text
  return text

/-- Reads the fraction of a second, if there is one: a point and digits behind it. -/
def fraction? : List Char → Option (List Char)
  | '.' :: r :: rs => if r.isDigit then some (rs.dropWhile Char.isDigit) else none
  | ['.'] => none
  | text => some text

/-- Reads a time of day `hh:mm:ss`, with its `fraction?`, and gives what follows. -/
def time? (text : List Char) : Option (List Char) := do
  let (_, text) ← field? 2 0 23 text
  let text ← rune? ':' text
  let (_, text) ← field? 2 0 59 text
  let text ← rune? ':' text
  let (_, text) ← field? 2 0 60 text
  fraction? text

/-- Reads an offset, if there is one: `Z`, or a sign with hours and minutes. -/
def offset? : List Char → Option (List Char)
  | [] => some []
  | r :: rs =>
    if r = 'Z' || r = 'z' then some rs
    else if r = '+' || r = '-' then do
      let (_, text) ← field? 2 0 23 rs
      let text ← rune? ':' text
      let (_, text) ← field? 2 0 59 text
      return text
    else some (r :: rs)

/-- Whether `text` starts like a date: four digits with a hyphen behind them. -/
def startsDate (text : List Char) : Bool :=
  (text.take 4).all Char.isDigit && text[4]? = some '-'

/-- Whether `text` starts like a time of day: two digits with a colon behind them. -/
def startsTime (text : List Char) : Bool :=
  (text.take 2).all Char.isDigit && text[2]? = some ':'

/-- Reads the time of day behind a date, if `startsTime` tells of one, and its `offset?`. -/
def timePart? : List Char → Option (List Char)
  | r :: rs =>
    if (r = 'T' || r = 't' || r = ' ') && startsTime rs then do offset? (← time? rs)
    else some (r :: rs)
  | [] => some []

/-- Reads a date or a time of a `text` that starts like one.  Its node is what was read. -/
def read? (text : List Char) : Option (Node × List Char) := do
  let rest ← if startsDate text then do timePart? (← date? text) else time? text
  return (.dateTime (text.take (text.length - rest.length)), rest)

end LexStream.Toml.DateTime
