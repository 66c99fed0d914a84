import LexStream.Text.Digit
import LexStream.Toml.Node

/-!
# Numbers

The numbers of a TOML document.  Whole numbers have 64 bits and a sign; a row of digits may be
broken up by single underscores.  A number with a fraction or an exponent must not be so large that
it rounds to infinity, which has a word of its own.
-/

namespace LexStream.Toml

/-- The least number that is out of reach of whole numbers, `2 ^ 63`. -/
def integerBound : Nat := 9223372036854775808

namespace Number

/-- Reads on in a row of digits: the digits with those `before`, and what follows.  An underscore
must have a digit behind it. -/
def digitsOn? (isDigit : Char → Bool) (before : List Char) :
    List Char → Option (List Char × List Char)
  | '_' :: r :: rs => if isDigit r then digitsOn? isDigit (before ++ [r]) rs else none
  | r :: rs => if isDigit r then digitsOn? isDigit (before ++ [r]) rs
    else if r = '_' then none else some (before, r :: rs)
  | [] => some (before, [])

/-- Reads a row of digits, of one at least; `isDigit` tells which runes these are. -/
def digits? (isDigit : Char → Bool) : List Char → Option (List Char × List Char)
  | r :: rs => if isDigit r then digitsOn? isDigit [r] rs else none
  | [] => none

/-- Reads the digits of a whole decimal number, which start with `0` only if there is no other. -/
def wholeDigits? : List Char → Option (List Char × List Char)
  | '0' :: rs => some (['0'], rs)
  | text => digits? Char.isDigit text

/-- Reads a sign, `+` or `-` or none: whether it is a minus, and what follows. -/
def sign : List Char → Bool × List Char
  | '+' :: rs => (false, rs)
  | '-' :: rs => (true, rs)
  | rs => (false, rs)

/-- The whole number of the size `n` with the given sign, if `integerBound` does not put it out of
reach. -/
def integer? (negative : Bool) (n : Nat) : Option Node :=
  if negative then if n ≤ integerBound then some (.integer (-(n : Int))) else none
  else if n < integerBound then some (.integer n) else none

/-- Whether `n` times ten to the power `exponent` rounds to infinity as a number of double
precision: whether it reaches half a unit beyond the largest one. -/
def isInfinite (n : Nat) (exponent : Int) : Bool :=
  let bound := Nat.pow 2 1024 - Nat.pow 2 970
  if n = 0 then false
  else if (Nat.toDigits 10 n).length + exponent ≤ 308 then false
  else if (Nat.toDigits 10 n).length + exponent > 309 then true
  else if 0 ≤ exponent then bound ≤ n * Nat.pow 10 exponent.toNat
  else bound * Nat.pow 10 (-exponent).toNat ≤ n

/-- Reads an exponent behind its mark: a `sign` and digits. -/
def exponent? (text : List Char) : Option (Int × List Char) := do
  let (negative, text) := sign text
  let (digits, text) ← digits? Char.isDigit text
  let n : Int := Text.numberIn 10 digits
  return (if negative then -n else n, text)

/-- Reads the exponent of a number behind `e` or `E`, if it has one. -/
def exponentPart? : List Char → Option (Option Int × List Char)
  | 'e' :: rs => (exponent? rs).map fun (n, rest) => (some n, rest)
  | 'E' :: rs => (exponent? rs).map fun (n, rest) => (some n, rest)
  | rs => some (none, rs)

/-- Reads the fraction of a number behind its point, if it has one. -/
def fractionPart? : List Char → Option (Option (List Char) × List Char)
  | '.' :: rs => (digits? Char.isDigit rs).map fun (ds, rest) => (some ds, rest)
  | rs => some (none, rs)

/-- Reads `inf` or `nan`, the words for infinity and for what is no number. -/
def wordRest? : List Char → Option (List Char)
  | 'i' :: 'n' :: 'f' :: rs => some rs
  | 'n' :: 'a' :: 'n' :: rs => some rs
  | _ => none

/-- Reads a decimal number with or without a sign: a whole number by `integer?`, or a `float`. -/
def decimal? (text : List Char) : Option (Node × List Char) := do
  let (negative, unsigned) := sign text
  let spelled (rest : List Char) : Node := .float (text.take (text.length - rest.length))
  match wordRest? unsigned with
  | some rest => return (spelled rest, rest)
  | none =>
    let (whole, rest) ← wholeDigits? unsigned
    let (fraction, rest) ← fractionPart? rest
    let (exponent, rest) ← exponentPart? rest
    match fraction, exponent with
    | none, none =>
      let n ← integer? negative (Text.numberIn 10 whole)
      return (n, rest)
    | _, _ =>
      let places := fraction.getD []
      let n := Text.numberIn 10 (whole ++ places)
      if !negative && isInfinite n (exponent.getD 0 - places.length) then none
      else return (spelled rest, rest)

/-- Reads the digits of a whole number in the `base`, behind its mark. -/
def inBase? (base : Nat) (text : List Char) : Option (Node × List Char) := do
  let (digits, rest) ← digits? (Text.isDigitIn base) text
  let n ← integer? false (Text.numberIn base digits)
  return (n, rest)

/-- Reads a number, in base sixteen, eight or two behind `0x`, `0o` or `0b`. -/
def read? : List Char → Option (Node × List Char)
  | '0' :: 'x' :: rs => inBase? 16 rs
  | '0' :: 'o' :: rs => inBase? 8 rs
  | '0' :: 'b' :: rs => inBase? 2 rs
  | text => decimal? text

end Number

end LexStream.Toml
