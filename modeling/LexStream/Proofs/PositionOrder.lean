import LexStream.Position
import Mathlib.Logic.Basic

/-!
# The order of positions

`Position.isAfter` is a strict order, and passing runes moves a position forward in it.  Positions
of a text stay small: the line and the column of a place are bounded by the number of runes before
it.

Main facts:

* `isAfter_trans`, `isAfter_irrefl`: coming after is a strict order;
* `isAfter_advanceAll`: passing at least one rune leads to a later position;
* `fits_after`: in a text of fewer than `2 ^ 32 - 1` runes every line and column fits into 32 bits;
* `Caret.places_ordered`: the places of a text are ordered as its runes are, no two of them have one
  position, and from each of them one step back is exact.
-/

namespace LexStream.Position

/-! ### A strict order -/

theorem isAfter_irrefl (p : Position) : p.isAfter p = false := by
  simp [isAfter]

theorem isAfter_trans {p q r : Position} (hpq : p.isAfter q = true) (hqr : q.isAfter r = true) :
    p.isAfter r = true := by
  rw [isAfter_iff] at *
  omega

/-! ### Passing runes moves forward -/

/-- Passing at least one rune leads from `p` to a later position. -/
theorem isAfter_advanceAll (p : Position) {rs : List Char} (h : rs ≠ []) :
    (p.advanceAll rs).isAfter p = true := by
  induction rs generalizing p with
  | nil => exact absurd rfl h
  | cons r rs ih =>
    have hr := p.isAfter_advance r
    rcases eq_or_ne rs [] with rfl | hrs
    · exact hr
    · exact isAfter_trans (ih (p.advance r) hrs) hr

/-- What comes before a position `p` also comes before every position that is reached from `p`. -/
theorem isAfter_advanceAll_of_isAfter {p q : Position} (h : p.isAfter q = true) (rs : List Char) :
    (p.advanceAll rs).isAfter q = true := by
  rcases eq_or_ne rs [] with rfl | hrs
  · exact h
  · exact isAfter_trans (p.isAfter_advanceAll hrs) h

/-- Behind the runes `rs` of a text and then `ss`, both are passed. -/
theorem after_advanceAll (rs ss : List Char) : (after rs).advanceAll ss = after (rs ++ ss) :=
  (advanceAll_append start rs ss).symm

/-- No two places of a text have one position: the runes `ss` between them are some. -/
theorem after_append_ne (rs : List Char) {ss : List Char} (h : ss ≠ []) :
    after (rs ++ ss) ≠ after rs := by
  intro heq
  have hafter := (after rs).isAfter_advanceAll h
  rw [after_advanceAll, heq, isAfter_irrefl] at hafter
  cases hafter

theorem line_le_line_advanceAll (p : Position) (rs : List Char) :
    p.line ≤ (p.advanceAll rs).line := by
  rcases eq_or_ne rs [] with rfl | hrs
  · exact Nat.le_refl _
  · have h := p.isAfter_advanceAll hrs
    rw [isAfter_iff] at h
    omega

/-! ### Positions fit into machine words -/

/-- A rune adds at most one to `line` and `col` together. -/
theorem line_add_col_advanceAll_le (p : Position) (rs : List Char) :
    (p.advanceAll rs).line + (p.advanceAll rs).col ≤ p.line + p.col + rs.length := by
  induction rs generalizing p with
  | nil => exact Nat.le_refl _
  | cons r rs ih =>
    have hr : (p.advance r).line + (p.advance r).col ≤ p.line + p.col + 1 := by
      unfold advance
      split <;> dsimp only <;> omega
    have hrs := ih (p.advance r)
    simp only [advanceAll_cons, List.length_cons]
    omega

/-- In a text of fewer than `2 ^ 32 - 1` runes every line and column fits into 32 bits. -/
theorem fits_after {rs : List Char} (h : rs.length < UInt32.size - 1) :
    (after rs).line < UInt32.size ∧ (after rs).col < UInt32.size := by
  have hle := start.line_add_col_advanceAll_le rs
  have hstart : start.line + start.col = 1 := rfl
  unfold after
  omega

/-! ### The places of a text -/

/-- A place of a `text` comes after every place before it, when each is given by the number of runes
before it. -/
theorem isAfter_after_take {text : List Char} {i j : Nat} (hji : j < i) (hi : i ≤ text.length) :
    (after (text.take i)).isAfter (after (text.take j)) = true := by
  obtain ⟨between, hbetween⟩ : text.take j <+: text.take i :=
    List.take_prefix_take_left (Nat.le_of_lt hji)
  have hne : between ≠ [] := by
    rintro rfl
    have hlength := congrArg List.length hbetween
    rw [List.append_nil, List.length_take, List.length_take] at hlength
    omega
  rw [← hbetween, ← after_advanceAll]
  exact isAfter_advanceAll _ hne

/-- One place `i` of a `text` comes after another `j` exactly when more runes stand before it. -/
theorem isAfter_after_take_iff {text : List Char} {i j : Nat} (hi : i ≤ text.length)
    (hj : j ≤ text.length) :
    (after (text.take i)).isAfter (after (text.take j)) = true ↔ j < i := by
  refine ⟨fun hafter => ?_, fun hji => isAfter_after_take hji hi⟩
  -- The other way round, each place would come after the other and so after itself.
  rcases Nat.lt_trichotomy i j with hij | rfl | hji
  · have hself := isAfter_trans hafter (isAfter_after_take hij hj)
    rw [isAfter_irrefl] at hself
    cases hself
  · rw [isAfter_irrefl] at hafter
    cases hafter
  · exact hji

/-- A position is that of one place of a `text` only. -/
theorem after_take_eq_iff {text : List Char} {i j : Nat} (hi : i ≤ text.length)
    (hj : j ≤ text.length) : after (text.take i) = after (text.take j) ↔ i = j := by
  refine ⟨fun heq => ?_, fun hij => by rw [hij]⟩
  have hji : ¬ j < i := by
    rw [← isAfter_after_take_iff hi hj, heq, isAfter_irrefl]
    exact Bool.false_ne_true
  have hij : ¬ i < j := by
    rw [← isAfter_after_take_iff hj hi, heq, isAfter_irrefl]
    exact Bool.false_ne_true
  omega

end LexStream.Position

namespace LexStream.Caret

/-- The caret in front of the rune `i` of a text, behind the runes before it. -/
def place (text : List Char) (i : Nat) : Caret :=
  start.advanceAll (text.take i)

@[simp] theorem toPosition_place (text : List Char) (i : Nat) :
    (place text i).toPosition = Position.after (text.take i) :=
  toPosition_advanceAll start _

/-- The next place is reached by passing the rune `text[i]` that stands here. -/
theorem place_succ {text : List Char} {i : Nat} (hi : i < text.length) :
    place text (i + 1) = (place text i).advance text[i] := by
  unfold place advanceAll
  rw [List.take_add_one, List.getElem?_eq_getElem hi, List.foldl_append]
  rfl

/-- Passing the rune `r` again after the step back over it leads to the same caret, `prevCol`
included. -/
theorem advance_retreat_advance (c : Caret) (r : Char) (h : 1 ≤ c.line) :
    ((c.advance r).retreat r).advance r = c.advance r := by
  by_cases hr : r = '\n'
  · have hline : max 1 c.line = c.line := Nat.max_eq_right h
    simp [advance, retreat, hr, hline]
  · simp [advance, retreat, hr]

/-- The kept width `prevCol` is a column that was reached. -/
theorem prevCol_advanceAll_le (c : Caret) (rs : List Char) :
    (c.advanceAll rs).prevCol ≤ max c.prevCol (c.col + rs.length) := by
  induction rs generalizing c with
  | nil => exact Nat.le_max_left _ _
  | cons r rs ih =>
    have hr : (c.advance r).prevCol ≤ max c.prevCol c.col ∧ (c.advance r).col ≤ c.col + 1 := by
      unfold advance
      split <;> dsimp only <;> omega
    have hrs : ((c.advance r).advanceAll rs).prevCol ≤ _ := ih (c.advance r)
    show ((c.advance r).advanceAll rs).prevCol ≤ _
    rw [List.length_cons]
    omega

/-- The places of a `text` are ordered as its runes are.  Of two of them, `i` and `j`, the one with
more runes before it comes after the other, and no two have one position.  One step back from the
place behind a rune by `retreat` leads to the position of that rune, and passing the rune again to
the same caret, `prevCol` included.  No `line`, `col` or `prevCol` outgrows 32 bits. -/
theorem places_ordered (text : List Char) (h : text.length < UInt32.size - 1) :
    (∀ i ≤ text.length, ∀ j ≤ text.length,
      ((place text i).isAfter (place text j).toPosition = true ↔ j < i) ∧
        ((place text i).toPosition = (place text j).toPosition ↔ i = j)) ∧
      (∀ i, ∀ hi : i < text.length,
        ((place text (i + 1)).retreat text[i]).toPosition = (place text i).toPosition ∧
          ((place text (i + 1)).retreat text[i]).advance text[i] = place text (i + 1)) ∧
      ∀ i ≤ text.length, (place text i).line < UInt32.size ∧ (place text i).col < UInt32.size ∧
        (place text i).prevCol < UInt32.size := by
  refine ⟨fun i hi j hj => ?_, fun i hi => ?_, fun i hi => ?_⟩
  · rw [toPosition_place, toPosition_place]
    exact ⟨Position.isAfter_after_take_iff hi hj, Position.after_take_eq_iff hi hj⟩
  · have hline : 1 ≤ (place text i).line := by
      rw [toPosition_place]
      exact Position.start.line_le_line_advanceAll _
    rw [place_succ hi]
    exact ⟨retreat_advance_toPosition _ _ hline, advance_retreat_advance _ _ hline⟩
  · have hlength : (text.take i).length ≤ text.length := List.length_take_le' i text
    have hfits := Position.fits_after (Nat.lt_of_le_of_lt hlength h)
    have hprev := start.prevCol_advanceAll_le (text.take i)
    have hstart : max start.prevCol (start.col + (text.take i).length) = (text.take i).length := by
      simp [start, Position.start]
    rw [toPosition_place]
    refine ⟨hfits.1, hfits.2, ?_⟩
    unfold place
    omega

/-- The places in front of and behind the newline of an empty line: they are in order, and the
`retreat` over this newline is exact although another newline stands before it. -/
theorem places_ordered_empty_line :
    ['a', '\n', '\n', 'b'].length < UInt32.size - 1 ∧
      (place ['a', '\n', '\n', 'b'] 3).isAfter (place ['a', '\n', '\n', 'b'] 2).toPosition = true ∧
      (place ['a', '\n', '\n', 'b'] 2).toPosition ≠ (place ['a', '\n', '\n', 'b'] 3).toPosition ∧
      ((place ['a', '\n', '\n', 'b'] 3).retreat '\n').toPosition =
        (place ['a', '\n', '\n', 'b'] 2).toPosition ∧
      ((place ['a', '\n', '\n', 'b'] 3).retreat '\n').advance '\n' =
        place ['a', '\n', '\n', 'b'] 3 := by
  have hlength : ['a', '\n', '\n', 'b'].length < UInt32.size - 1 := by decide
  obtain ⟨hordered, hback, -⟩ := places_ordered ['a', '\n', '\n', 'b'] hlength
  refine ⟨hlength, ?_, ?_, hback 2 (by decide)⟩
  · exact (hordered 3 (by decide) 2 (by decide)).1.2 (by decide)
  · intro heq
    exact absurd ((hordered 2 (by decide) 3 (by decide)).2.1 heq) (by decide)

end LexStream.Caret
