/-!
# Positions

Where a rune stands in a text: its line, counted from one, and its column, counted in runes from
zero.  A `Caret` is a position that moves: it goes forward over a rune and can step back over the
rune it has just passed, for which it remembers the width of the line before.

Main facts:

* `Caret.toPosition_advance`: a caret moves as its position does;
* `Caret.retreat_advance_toPosition`: stepping back over the rune just passed returns to the
  position before it;
* `Position.isAfter_iff`: a position comes after another when its line is greater, or the lines
  agree and its column is greater.
-/

namespace LexStream

/-- A `line`, counted from one, and a column `col`, the number of runes before it on that line. -/
structure Position where
  line : Nat
  col : Nat
deriving DecidableEq, Hashable, Repr, Inhabited

namespace Position

/-- The position `1:0` of the first rune of a text. -/
def start : Position := ⟨1, 0⟩

/-- The position behind a rune that stands at `p`: a newline opens the next line. -/
def advance (p : Position) (r : Char) : Position :=
  if r = '\n' then ⟨p.line + 1, 0⟩ else ⟨p.line, p.col + 1⟩

/-- The position behind the runes `rs`, of which the first stands at `p`. -/
def advanceAll (p : Position) (rs : List Char) : Position :=
  rs.foldl advance p

/-- The position behind the runes `rs` of a text that starts with them. -/
def after (rs : List Char) : Position :=
  start.advanceAll rs

/-- Whether `p` comes strictly after `q` in a text. -/
def isAfter (p q : Position) : Bool :=
  q.line < p.line || (q.line == p.line && q.col < p.col)

/-- A position is written as its `line` and its `col` with a colon between them. -/
instance : ToString Position where
  toString p := toString p.line ++ ":" ++ toString p.col

theorem isAfter_iff (p q : Position) :
    p.isAfter q = true ↔ q.line < p.line ∨ (q.line = p.line ∧ q.col < p.col) := by
  simp [isAfter]

@[simp] theorem advanceAll_nil (p : Position) : p.advanceAll [] = p := rfl

@[simp] theorem advanceAll_cons (p : Position) (r : Char) (rs : List Char) :
    p.advanceAll (r :: rs) = (p.advance r).advanceAll rs := rfl

theorem advanceAll_append (p : Position) (rs ss : List Char) :
    p.advanceAll (rs ++ ss) = (p.advanceAll rs).advanceAll ss :=
  List.foldl_append

/-- Passing a rune `r` always moves a position `p` forward, in the order of `isAfter`. -/
theorem isAfter_advance (p : Position) (r : Char) : (p.advance r).isAfter p = true := by
  by_cases h : r = '\n' <;> simp [isAfter, advance, h]

end Position

/-- A position together with the width of the line before it.  The width is known right after a
newline was passed and lets `retreat` step back over that newline. -/
structure Caret extends Position where
  prevCol : Nat
deriving DecidableEq, Repr, Inhabited

namespace Caret

/-- The caret in front of the first rune of a text, at `Position.start`. -/
def start : Caret := ⟨Position.start, 0⟩

/-- Passes the rune `r`.  A newline keeps the width of the line it ends. -/
def advance (c : Caret) (r : Char) : Caret :=
  if r = '\n' then ⟨⟨c.line + 1, 0⟩, c.col⟩ else ⟨⟨c.line, c.col + 1⟩, c.prevCol⟩

/-- Steps back over the rune `r`.  A newline gives the kept width back as the column and forgets it;
line one and column zero are never left downwards. -/
def retreat (c : Caret) (r : Char) : Caret :=
  if r = '\n' then ⟨⟨max 1 (c.line - 1), c.prevCol⟩, 0⟩ else ⟨⟨c.line, c.col - 1⟩, c.prevCol⟩

/-- Passes the runes `rs` one after the other. -/
def advanceAll (c : Caret) (rs : List Char) : Caret :=
  rs.foldl advance c

@[simp] theorem toPosition_advance (c : Caret) (r : Char) :
    (c.advance r).toPosition = c.toPosition.advance r := by
  unfold advance Position.advance
  split <;> rfl

@[simp] theorem toPosition_advanceAll (c : Caret) (rs : List Char) :
    (c.advanceAll rs).toPosition = c.toPosition.advanceAll rs := by
  induction rs generalizing c with
  | nil => rfl
  | cons r rs ih =>
    show ((c.advance r).advanceAll rs).toPosition = _
    rw [ih, toPosition_advance]
    rfl

/-- Stepping back over the rune `r` just passed returns to the position before it: `retreat` undoes
`advance`. -/
theorem retreat_advance_toPosition (c : Caret) (r : Char) (h : 1 ≤ c.line) :
    ((c.advance r).retreat r).toPosition = c.toPosition := by
  by_cases hr : r = '\n'
  · have hline : max 1 c.line = c.line := Nat.max_eq_right h
    simp [advance, retreat, hr, hline]
  · simp [advance, retreat, hr]

end Caret

end LexStream
