import LexStream.Finding
import LexStream.Run
import LexStream.Text.Digit

/-!
# Scanning numerals

A zero that no point follows starts a whole number in base two, sixteen or ten, by the rune behind
it.  Any other digit starts a decimal number, which may hold one point and one exponent mark and is
whole when it holds neither.  A second mark of a kind is illegal: the numeral before it is dropped,
and the scan goes on behind the mark.
-/

namespace LexStream.Scanner

/-- The marks that a decimal number holds so far: a `point`, an `exponent` mark, or both. -/
structure Marks where
  point : Bool := false
  exponent : Bool := false
deriving DecidableEq

/-- A decimal number takes digits and the first mark of each kind, and stops at a mark that `marks`
holds already. -/
def decimalStep (marks : Marks) (r : Char) : Verdict Marks :=
  if r = '.' then if marks.point then .stop else .take { marks with point := true }
  else if r = 'e' then if marks.exponent then .stop else .take { marks with exponent := true }
  else if r.isDigit then .take marks
  else .leave

variable {σ : Type} [ByteSource σ]

/-- Scans the decimal number that starts with the digit `first`, which is passed. -/
def decimal (start : Position) (first : Char) : Scan σ Finding := do
  let run ← Run.scan decimalStep {}
  let text := String.singleton first ++ run.taken
  match run.ending with
  | .stopped r =>
    let here ← Scan.position
    -- The mark was passed and is no newline, so it stands one column back.
    let pos := { here with col := here.col - 1 }
    return .illegal pos r (.repeatedMark pos r text)
  | _ =>
    let token := if run.state.point || run.state.exponent then Token.float else .int
    return .ofToken start token text

/-- Scans the digits of a whole number in the base, behind its first runes `lead`. -/
def wholeIn (base : Nat) (start : Position) (lead : List Char) : Scan σ Finding := do
  let digits ← Run.scanClass (Text.isDigitIn base)
  return .ofToken start .int (String.ofList lead ++ digits)

/-- Scans the whole number that starts with a zero, which stood at `start` and is passed. -/
def zeroLed (start : Position) : Scan σ Finding := do
  match ← Cursor.nextRune with
  | some r =>
    if r = 'b' || r = 'B' then wholeIn 2 start ['0', r]
    else if r = 'x' || r = 'X' then wholeIn 16 start ['0', r]
    else if r.isDigit then wholeIn 10 start ['0', r]
    else
      Scan.move (·.backup r)
      return .ofToken start .int "0"
  | none => return .ofToken start .int "0"

/-- Scans the numeral that starts with the digit `first`, which is passed. -/
def numeral (start : Position) (first : Char) : Scan σ Finding := do
  if first = '0' then
    match ← Cursor.peek with
    | some '.' => decimal start first
    | _ => zeroLed start
  else decimal start first

theorem decimal_shrinks (start : Position) (first : Char) :
    (decimal start first : Scan σ Finding).Shrinks := by
  refine .bind (Run.scan_shrinks _ _) fun run => ?_
  dsimp only
  split
  · exact .bind .position fun _ => .pure _
  · exact .pure _

theorem wholeIn_shrinks (base : Nat) (start : Position) (lead : List Char) :
    (wholeIn base start lead : Scan σ Finding).Shrinks :=
  .bind (Run.scanClass_shrinks _) fun _ => .pure _

theorem zeroLed_shrinks (start : Position) : (zeroLed start : Scan σ Finding).Shrinks := by
  intro c
  have hle := Cursor.size_nextRune_le c
  unfold zeroLed
  match hr : Cursor.nextRune.run c with
  | (.error e, c') =>
    rw [Scan.run_bind_error hr]
    rw [hr] at hle
    exact hle
  | (.ok none, c') =>
    rw [Scan.run_bind_ok hr]
    rw [hr] at hle
    exact hle
  | (.ok (some r), c') =>
    rw [Scan.run_bind_ok hr]
    rw [hr] at hle
    have hlt := Cursor.size_nextRune_lt hr
    dsimp only
    split
    · exact Nat.le_trans (wholeIn_shrinks _ _ _ _) hle
    · split
      · exact Nat.le_trans (wholeIn_shrinks _ _ _ _) hle
      · split
        · exact Nat.le_trans (wholeIn_shrinks _ _ _ _) hle
        · show (c'.backup r).size ≤ c.size
          rw [Cursor.size_backup]
          exact hlt

theorem numeral_shrinks (start : Position) (first : Char) :
    (numeral start first : Scan σ Finding).Shrinks := by
  unfold numeral
  split
  · refine .bind (.peekNth 0) fun r => ?_
    split
    · exact decimal_shrinks _ _
    · exact zeroLed_shrinks _
  · exact decimal_shrinks _ _

end LexStream.Scanner
