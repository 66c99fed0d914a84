import LexStream.Scanner.Literal
import LexStream.Scanner.Numeral
import LexStream.Scanner.Operator
import LexStream.Scanner.Word
import LexStream.Source

/-!
# Lexers

A scan of one source, item by item.  Blanks are skipped; a newline is an item; operators are tried
first, then the rune decides between the literals, numerals, symbols and words, and a rune that fits
none of them is an illegal item.  The end of the input and a fatal error finish a lexer, which from
then on only repeats that it is at the end.

Main fact: an item other than the end makes the cursor smaller (`Scanner.size_item_lt`), so the
results of a lexer are a finite list (`Lexer.results`).
-/

namespace LexStream

namespace Scanner

/-- The step that skips blanks and stops at the first other rune.  The state `pos` is the position
of the next rune. -/
def blankStep (pos : Position) (r : Char) : Verdict Position :=
  if Rune.isBlank r then .take (pos.advance r) else .stop

variable {σ : Type} [ByteSource σ]

/-- Scans the token that starts with `first`, which stood at `start`, is passed and is no
operator. -/
def otherToken (start : Position) (first : Char) : Scan σ Finding :=
  if first = '"' then string start
  else if first = ':' then symbol start
  else if first = '\x60' then template start
  else if first = '#' then structured start
  else if first.isDigit then numeral start first
  else if Rune.isNameRune first then word start first
  else pure (.illegal start first (.strayRune start first))

/-- Scans the token that starts with `first`, which stood at `start` and is passed. -/
def token (start : Position) (first : Char) : Scan σ Finding :=
  if first = '\n' then pure (.ofToken start .newline "\n")
  else do
    match ← operator? start first with
    | some found => return found
    | none => otherToken start first

/-- Scans the next item: the token behind the blanks, or `eof` at the end of the input. -/
def item : Scan σ Finding := do
  let here ← Scan.position
  let blanks ← Run.scan blankStep here
  match blanks.ending with
  | .stopped r => token blanks.state r
  | _ => return .ofToken blanks.state .eof ""

/-! ### Every item makes the cursor smaller -/

theorem otherToken_shrinks (start : Position) (first : Char) :
    (otherToken start first : Scan σ Finding).Shrinks := by
  unfold otherToken
  repeat' split
  · exact string_shrinks _
  · exact symbol_shrinks _
  · exact template_shrinks _
  · exact structured_shrinks _
  · exact numeral_shrinks _ _
  · exact word_shrinks _ _
  · exact .pure _

theorem token_shrinks (start : Position) (first : Char) :
    (token start first : Scan σ Finding).Shrinks := by
  unfold token
  split
  · exact .pure _
  · refine .bind (operator?_shrinks _ _) fun found => ?_
    cases found with
    | none => exact otherToken_shrinks _ _
    | some found => exact .pure _

/-- An item other than `eof` makes the cursor smaller. -/
theorem size_item_lt {c c' : Cursor σ} {found : Finding} (h : item.run c = (.ok found, c'))
    (hne : found.item.token ≠ .eof) : c'.size < c.size := by
  unfold item at h
  rw [Scan.run_bind_ok (Scan.run_position c)] at h
  match hb : (Run.scan blankStep c.caret.toPosition).run c with
  | (.error e, c₁) => rw [Scan.run_bind_error hb] at h; cases h
  | (.ok blanks, c₁) =>
    rw [Scan.run_bind_ok hb] at h
    split at h
    next r hr =>
      have hle := token_shrinks blanks.state r c₁
      rw [h] at hle
      exact Nat.lt_of_le_of_lt hle (Run.size_scan_lt hb hr)
    next => cases h; exact absurd rfl hne

end Scanner

/-- A scan of one source of type `σ`, item by item. -/
structure Lexer (σ : Type) where
  cursor : Cursor σ
  /-- The position of the last item given, if there is one. -/
  lastPos : Option Position := none
  /-- The number of items given so far. -/
  produced : Nat := 0
  /-- Whether the end of the input or a fatal error was given. -/
  finished : Bool := false

namespace Lexer

/-- A lexer in front of the source `s`. -/
def ofSource {σ : Type} (s : σ) : Lexer σ :=
  { cursor := { source := s } }

/-- A lexer in front of the `text`, as a source that gives its bytes. -/
def ofString (text : String) : Lexer Source :=
  ofSource (.ofBytes (Utf8.encode text.toList))

variable {σ : Type} [ByteSource σ]

/-- The position of the next rune, that of `cursor`. -/
def position (l : Lexer σ) : Position :=
  l.cursor.position

/-- Scans the next item and tells what was found, its `Remark` included.  A `finished` lexer finds
the end of the input again and does nothing else. -/
def step (l : Lexer σ) : Except LexError Finding × Lexer σ :=
  if l.finished then (.ok (.ofToken l.position .eof ""), l)
  else
    match Scanner.item.run l.cursor with
    | (.ok found, c) =>
      (.ok found, ⟨c, found.item.pos, l.produced + 1, found.item.token = .eof⟩)
    | (.error e, c) => (.error e, ⟨c, l.lastPos, l.produced, true⟩)

/-- The next item, as `step` finds it. -/
def nextItem (l : Lexer σ) : LexResult × Lexer σ :=
  let (found, l') := l.step
  (found.map Finding.item, l')

/-- The next item, up to the one that makes the lexer `finished`, and `none` after it. -/
def next? (l : Lexer σ) : Option LexResult × Lexer σ :=
  if l.finished then (none, l)
  else
    let (result, l') := l.nextItem
    (some result, l')

/-- How much a lexer can still do, which `step` makes smaller: nothing once it is `finished`. -/
def remaining (l : Lexer σ) : Nat :=
  if l.finished then 0 else l.cursor.size + 1

theorem remaining_step_lt {l : Lexer σ} (h : l.finished = false) :
    l.step.2.remaining < l.remaining := by
  unfold step
  simp only [h, Bool.false_eq_true, if_false]
  split
  next found c hi =>
    by_cases he : found.item.token = .eof
    · simp [remaining, h, he]
    · have := Scanner.size_item_lt hi he
      simp [remaining, h, he, this]
  next e c hi => simp [remaining, h]

/-- Everything that repeated `step`s find, up to the end of the input or the first fatal error. -/
def findings (l : Lexer σ) : List (Except LexError Finding) :=
  if _open : l.finished = true then []
  else
    match _step : l.step with
    | (found, l') => found :: findings l'
termination_by l.remaining
decreasing_by
  have h := remaining_step_lt (eq_false_of_ne_true _open)
  rw [_step] at h
  exact h

/-- The items of a source up to its `eof`, or up to a fatal error that stands last. -/
def results (l : Lexer σ) : List LexResult :=
  l.findings.map (·.map Finding.item)

end Lexer

/-- The items of the `text`, or the error that ends its scan. -/
def tokenize (text : String) : Except LexError (List Item) :=
  (Lexer.ofString text).results.mapM id

end LexStream
