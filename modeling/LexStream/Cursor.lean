import LexStream.LexError
import LexStream.Utf8

/-!
# Cursors

A place in a stream of runes: the source they are decoded from, the caret, and the runes that were
looked at and not yet passed.  `Scan` is the type of what moves a cursor and can fail; a failure
carries the position of the cursor and leaves a cursor behind, with every rune decoded before it
still ahead.

Main facts: passing a rune makes a cursor smaller (`Cursor.size_nextRune_lt`), and looking ahead
never makes one larger (`Cursor.size_peekNth_le`).
-/

namespace LexStream

/-- A place in the stream of runes that a source of type `σ` decodes to. -/
structure Cursor (σ : Type) where
  /-- The bytes from which no rune was decoded yet, as a `ByteSource`. -/
  source : σ
  /-- Where the next rune stands, the first of `lookahead` if there is one. -/
  caret : Caret := .start
  /-- The runes that come next and were decoded already. -/
  lookahead : List Char := []

/-- A computation that moves a `Cursor` and gives a value of type `α` or fails with a `LexError`. -/
def Scan (σ α : Type) : Type := Cursor σ → Except LexError α × Cursor σ

namespace Scan

variable {σ α β : Type}

/-- Runs the computation `x` on the cursor `c`. -/
def run (x : Scan σ α) (c : Cursor σ) : Except LexError α × Cursor σ := x c

instance : Monad (Scan σ) where
  pure a := fun c => (.ok a, c)
  bind x f := fun c =>
    match x.run c with
    | (.ok a, c') => (f a).run c'
    | (.error e, c') => (.error e, c')

/-- Fails with the error `e` and leaves the cursor where it is. -/
def fail (e : LexError) : Scan σ α := fun c => (.error e, c)

/-- Moves the cursor by `f`, which cannot fail. -/
def move (f : Cursor σ → Cursor σ) : Scan σ Unit := fun c => (.ok (), f c)

/-- Gives the position of the cursor, as `Cursor.position` says it. -/
def position : Scan σ Position := fun c => (.ok c.caret.toPosition, c)

@[simp] theorem run_pure (a : α) (c : Cursor σ) : (pure a : Scan σ α).run c = (.ok a, c) := rfl

@[simp] theorem run_fail (e : LexError) (c : Cursor σ) :
    (fail e : Scan σ α).run c = (.error e, c) := rfl

@[simp] theorem run_move (f : Cursor σ → Cursor σ) (c : Cursor σ) :
    (move f).run c = (.ok (), f c) := rfl

@[simp] theorem run_position (c : Cursor σ) :
    (position : Scan σ Position).run c = (.ok c.caret.toPosition, c) := rfl

theorem run_bind_ok {x : Scan σ α} {f : α → Scan σ β} {c c' : Cursor σ} {a : α}
    (h : x.run c = (.ok a, c')) : (x >>= f).run c = (f a).run c' := by
  show (match x.run c with
    | (.ok a, c') => (f a).run c'
    | (.error e, c') => (.error e, c')) = _
  rw [h]

theorem run_bind_error {x : Scan σ α} {f : α → Scan σ β} {c c' : Cursor σ} {e : LexError}
    (h : x.run c = (.error e, c')) : (x >>= f).run c = (.error e, c') := by
  show (match x.run c with
    | (.ok a, c') => (f a).run c'
    | (.error e, c') => (.error e, c')) = _
  rw [h]

end Scan

/-- The error that a fault is where the cursor stands at `pos`. -/
def Utf8.Fault.at (pos : Position) : Utf8.Fault → LexError
  | .readFailed failure => .readFailed pos failure
  | .malformed bytes => .invalidUtf8 pos bytes

namespace Cursor

variable {σ : Type}

/-- The position of the next rune, where the `caret` stands. -/
def position (c : Cursor σ) : Position :=
  c.caret.toPosition

/-- Puts the rune `r`, the last one passed, back in front of the cursor. -/
def backup (c : Cursor σ) (r : Char) : Cursor σ :=
  { c with caret := c.caret.retreat r, lookahead := r :: c.lookahead }

/-- Passes `n` runes that were looked at. -/
def skip (c : Cursor σ) (n : Nat) : Cursor σ :=
  { c with
    caret := c.caret.advanceAll (c.lookahead.take n)
    lookahead := c.lookahead.drop n }

variable [ByteSource σ]

/-- Decodes the next rune from the `source` by `Utf8.decode`; `none` at the end of the input.  A
fault is given the position of the cursor. -/
def decode : Scan σ (Option Char) := fun c =>
  match Utf8.decode c.source with
  | (.ok r, s) => (.ok r, { c with source := s })
  | (.error fault, s) => (.error (fault.at c.position), { c with source := s })

/-- Passes the next rune and gives it; `none` at the end of the input.  The end is not remembered:
asked again, the source may go on. -/
def nextRune : Scan σ (Option Char) := fun c =>
  match c.lookahead with
  | r :: rs => (.ok (some r), { c with caret := c.caret.advance r, lookahead := rs })
  | [] =>
    match decode.run c with
    | (.ok (some r), c') => (.ok (some r), { c' with caret := c'.caret.advance r })
    | (.ok none, c') => (.ok none, c')
    | (.error e, c') => (.error e, c')

/-- Decodes `k` more runes to look at, or as many as there are before the end of the input. -/
def lookFurther : Nat → Scan σ Unit
  | 0 => pure ()
  | k + 1 => fun c =>
    match decode.run c with
    | (.ok (some r), c') => (lookFurther k).run { c' with lookahead := c'.lookahead ++ [r] }
    | (.ok none, c') => (.ok (), c')
    | (.error e, c') => (.error e, c')

/-- Looks at the rune `n` places ahead without passing any. -/
def peekNth (n : Nat) : Scan σ (Option Char) := fun c =>
  match (lookFurther (n + 1 - c.lookahead.length)).run c with
  | (.ok (), c') => (.ok c'.lookahead[n]?, c')
  | (.error e, c') => (.error e, c')

/-- Looks at the next rune; `none` at the end of the input. -/
def peek : Scan σ (Option Char) :=
  peekNth 0

/-- Looks at the next `n` runes, or at as many as there are. -/
def peekRow : Nat → Scan σ (List Char)
  | 0 => pure []
  | n + 1 => do
    let rs ← peekRow n
    match ← peekNth n with
    | some r => return rs ++ [r]
    | none => return rs

/-- Looks at the next two runes, each of them by `peekNth`. -/
def peek2 : Scan σ (Option Char × Option Char) := do
  let first ← peekNth 0
  let second ← peekNth 1
  return (first, second)

/-! ### The size of a cursor -/

/-- The runes in `lookahead` and the bytes that `source` can still give.  A scan comes to its end
because it makes this number smaller. -/
def size (c : Cursor σ) : Nat :=
  c.lookahead.length + ByteSource.size c.source

theorem size_decode_le (c : Cursor σ) : (decode.run c).2.size ≤ c.size := by
  have h := Utf8.size_decode_le c.source
  unfold Scan.run decode
  split
  next r s hs => rw [hs] at h; simpa [size] using h
  next e s hs => rw [hs] at h; simpa [size] using h

theorem decode_some {c c' : Cursor σ} {r : Char} (h : decode.run c = (.ok (some r), c')) :
    c'.lookahead = c.lookahead ∧ c'.size < c.size := by
  unfold Scan.run decode at h
  split at h
  next r' s hs =>
    cases h
    have := Utf8.size_decode_lt hs
    exact ⟨rfl, by simpa [size] using this⟩
  next => cases h

/-- Passing a rune by `nextRune` makes a cursor smaller. -/
theorem size_nextRune_lt {c c' : Cursor σ} {r : Char}
    (h : nextRune.run c = (.ok (some r), c')) : c'.size < c.size := by
  unfold Scan.run nextRune at h
  split at h
  next r' rs hl => cases h; simp [size, hl]
  next hl =>
    split at h
    next r' c₁ hd => cases h; exact (decode_some hd).2
    next => cases h
    next => cases h

theorem size_nextRune_le (c : Cursor σ) : (nextRune.run c).2.size ≤ c.size := by
  have h := size_decode_le c
  unfold Scan.run nextRune
  split
  next r rs hl => simp [size, hl]
  next hl =>
    split
    next r c₁ hd => rw [hd] at h; exact h
    next c₁ hd => rw [hd] at h; exact h
    next e c₁ hd => rw [hd] at h; exact h

theorem size_lookFurther_le (k : Nat) (c : Cursor σ) :
    ((lookFurther k).run c).2.size ≤ c.size := by
  induction k generalizing c with
  | zero => exact Nat.le_refl _
  | succ k ih =>
    have h := size_decode_le c
    show (lookFurther (k + 1) c).2.size ≤ _
    unfold lookFurther
    split
    next r c₁ hd =>
      -- The rune moves from the source into the lookahead.
      refine Nat.le_trans (ih _) ?_
      obtain ⟨hl, hlt⟩ := decode_some hd
      simp only [size, List.length_append, List.length_singleton] at hlt ⊢
      omega
    next c₁ hd => rw [hd] at h; exact h
    next e c₁ hd => rw [hd] at h; exact h

/-- Looking ahead by `peekNth` never makes a cursor larger. -/
theorem size_peekNth_le (n : Nat) (c : Cursor σ) : ((peekNth n).run c).2.size ≤ c.size := by
  have h := size_lookFurther_le (n + 1 - c.lookahead.length) c
  unfold Scan.run peekNth
  split
  next c₁ hd => rw [hd] at h; exact h
  next e c₁ hd => rw [hd] at h; exact h

theorem size_backup (c : Cursor σ) (r : Char) : (c.backup r).size = c.size + 1 := by
  simp [size, backup]; omega

theorem size_skip_le (c : Cursor σ) (n : Nat) : (c.skip n).size ≤ c.size := by
  simp [size, skip]

end Cursor

/-- The computation `x` never makes the `size` of its cursor larger. -/
def Scan.Shrinks {σ α : Type} [ByteSource σ] (x : Scan σ α) : Prop :=
  ∀ c, (x.run c).2.size ≤ c.size

namespace Scan.Shrinks

variable {σ α β : Type} [ByteSource σ]

theorem pure (a : α) : Shrinks (Pure.pure a : Scan σ α) :=
  fun _ => Nat.le_refl _

theorem fail (e : LexError) : Shrinks (Scan.fail e : Scan σ α) :=
  fun _ => Nat.le_refl _

theorem position : Shrinks (Scan.position : Scan σ Position) :=
  fun _ => Nat.le_refl _

theorem skip (n : Nat) : Shrinks (Scan.move (·.skip n) : Scan σ Unit) :=
  fun c => c.size_skip_le n

theorem nextRune : Shrinks (Cursor.nextRune : Scan σ (Option Char)) :=
  Cursor.size_nextRune_le

theorem peekNth (n : Nat) : Shrinks (Cursor.peekNth n : Scan σ (Option Char)) :=
  Cursor.size_peekNth_le n

/-- If `x` and every `f a` never make their cursors larger, neither does `x >>= f`. -/
theorem bind {x : Scan σ α} {f : α → Scan σ β} (hx : x.Shrinks) (hf : ∀ a, (f a).Shrinks) :
    (x >>= f).Shrinks := by
  intro c
  have h := hx c
  match hr : x.run c with
  | (.ok a, c') =>
    rw [run_bind_ok hr]
    rw [hr] at h
    exact Nat.le_trans (hf a c') h
  | (.error e, c') =>
    rw [run_bind_error hr]
    rw [hr] at h
    exact h

theorem peekRow (n : Nat) : Shrinks (Cursor.peekRow n : Scan σ (List Char)) := by
  induction n with
  | zero => exact pure []
  | succ n ih =>
    refine bind ih fun rs => bind (peekNth n) fun r => ?_
    cases r <;> exact pure _

end Scan.Shrinks

end LexStream
