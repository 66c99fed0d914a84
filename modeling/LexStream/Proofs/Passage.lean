import LexStream.Cursor
import LexStream.Proofs.Decoding
import LexStream.Proofs.PositionOrder

/-!
# Passing runes

What moving a cursor does to the stream of runes, for every source.  `Cursor.Passes c rs c'` says
that exactly the runes `rs` lie between the cursors `c` and `c'`: whatever was decoded meanwhile,
the runes that were looked at and the decoded ones are the runes passed and the ones looked at now,
and the position has moved over `rs`.  Each operation on cursors has one lemma here that says what
it passes; scanners are put together from these.

`Cursor.Faults c e` says that a decoding at some place ahead of `c` fails with `e`, and
`Cursor.Ends c rs c'` that the input is seen to end behind the runes that are passed and looked at.

Main facts:

* `Cursor.passes_nextRune`, `Cursor.passes_peekNth`, `Cursor.passes_skip`, `Cursor.passes_backup`:
  what the operations pass;
* `Cursor.Holds.passes`: the runes passed in a text are its next ones.
-/

namespace LexStream

namespace Scan

variable {σ α β : Type}

/-! ### Taking computations apart -/

theorem run_bind_eq_ok {x : Scan σ α} {f : α → Scan σ β} {c c' : Cursor σ} {b : β}
    (h : (x >>= f).run c = (.ok b, c')) :
    ∃ a c₁, x.run c = (.ok a, c₁) ∧ (f a).run c₁ = (.ok b, c') := by
  match hx : x.run c with
  | (.ok a, c₁) =>
    rw [run_bind_ok hx] at h
    exact ⟨a, c₁, rfl, h⟩
  | (.error e, c₁) =>
    rw [run_bind_error hx] at h
    cases h

theorem run_bind_eq_error {x : Scan σ α} {f : α → Scan σ β} {c c' : Cursor σ} {e : LexError}
    (h : (x >>= f).run c = (.error e, c')) :
    x.run c = (.error e, c') ∨
      ∃ a c₁, x.run c = (.ok a, c₁) ∧ (f a).run c₁ = (.error e, c') := by
  match hx : x.run c with
  | (.ok a, c₁) =>
    rw [run_bind_ok hx] at h
    exact .inr ⟨a, c₁, rfl, h⟩
  | (.error e', c₁) =>
    rw [run_bind_error hx] at h
    cases h
    exact .inl rfl

/-- What follows the computation `x` and only gives a value leaves the cursor to `x`. -/
theorem run_bind_pure_eq_ok {x : Scan σ α} {f : α → β} {c c' : Cursor σ} {b : β}
    (h : (x >>= fun a => pure (f a)).run c = (.ok b, c')) :
    ∃ a, x.run c = (.ok a, c') ∧ b = f a := by
  obtain ⟨a, c₁, hx, hpure⟩ := run_bind_eq_ok h
  cases hpure
  exact ⟨a, hx, rfl⟩

theorem run_bind_pure_eq_error {x : Scan σ α} {f : α → β} {c c' : Cursor σ} {e : LexError}
    (h : (x >>= fun a => pure (f a)).run c = (.error e, c')) : x.run c = (.error e, c') := by
  rcases run_bind_eq_error h with hx | ⟨a, c₁, -, hpure⟩
  · exact hx
  · cases hpure

end Scan

namespace Cursor

variable {σ : Type} [ByteSource σ]

/-! ### The relation -/

/-- Exactly the runes `rs` lie between the cursors `c` and `c'`. -/
structure Passes (c : Cursor σ) (rs : List Char) (c' : Cursor σ) : Prop where
  /-- What was looked at and the runes `ds` that were decoded meanwhile are what was passed, `rs`,
  and what is looked at now. -/
  stream : ∃ ds, Utf8.Decodes c.source ds c'.source ∧ c.lookahead ++ ds = rs ++ c'.lookahead
  /-- The position moves over the runes `rs` passed. -/
  position : c'.position = c.position.advanceAll rs

namespace Passes

theorem refl (c : Cursor σ) : Passes c [] c :=
  ⟨⟨[], .refl _, List.append_nil _⟩, rfl⟩

theorem trans {c c' c'' : Cursor σ} {rs rs' : List Char} (h : Passes c rs c')
    (h' : Passes c' rs' c'') : Passes c (rs ++ rs') c'' := by
  obtain ⟨ds, hd, hs⟩ := h.stream
  obtain ⟨ds', hd', hs'⟩ := h'.stream
  refine ⟨⟨ds ++ ds', hd.trans hd', ?_⟩, ?_⟩
  · rw [← List.append_assoc, hs, List.append_assoc, hs', List.append_assoc]
  · rw [h'.position, h.position, Position.advanceAll_append]

/-- The runes `rs ++ rs'` passed can be passed in two parts. -/
theorem split {c c' : Cursor σ} {rs rs' : List Char} (h : Passes c (rs ++ rs') c') :
    ∃ c₁, Passes c rs c₁ ∧ Passes c₁ rs' c' := by
  obtain ⟨ds, hd, hs⟩ := h.stream
  refine ⟨⟨c'.source, ⟨c.position.advanceAll rs, 0⟩, rs' ++ c'.lookahead⟩, ⟨⟨ds, hd, ?_⟩, rfl⟩,
    ⟨[], .refl _, List.append_nil _⟩, ?_⟩
  · rw [hs, List.append_assoc]
  · rw [h.position, Position.advanceAll_append]
    rfl

/-- The first rune `r` passed is the one that was looked at. -/
theorem eq_of_lookahead {c c' : Cursor σ} {r r' : Char} {rs la : List Char}
    (h : Passes c (r :: rs) c') (hla : c.lookahead = r' :: la) : r = r' := by
  obtain ⟨ds, -, hs⟩ := h.stream
  rw [hla] at hs
  exact (List.cons.inj hs).1.symm

theorem one_le_line {c c' : Cursor σ} {rs : List Char} (h : Passes c rs c')
    (hline : 1 ≤ c.position.line) : 1 ≤ c'.position.line := by
  rw [h.position]
  exact Nat.le_trans hline (c.position.line_le_line_advanceAll rs)

end Passes

/-- The runes `rs` are passed, and the input ends behind those that are looked at then. -/
def Ends (c : Cursor σ) (rs : List Char) (c' : Cursor σ) : Prop :=
  ∃ c₁, Passes c rs c₁ ∧ decode.run c₁ = (.ok none, c')

/-- Somewhere ahead of the cursor a decoding fails with the error `e`. -/
def Faults (c : Cursor σ) (e : LexError) : Prop :=
  ∃ rs c₁ c', Passes c rs c₁ ∧ decode.run c₁ = (.error e, c')

theorem Faults.of_passes {c c₁ : Cursor σ} {rs : List Char} {e : LexError} (h : Passes c rs c₁)
    (he : Faults c₁ e) : Faults c e := by
  obtain ⟨rs', c₂, c', h₂, hd⟩ := he
  exact ⟨rs ++ rs', c₂, c', h.trans h₂, hd⟩

theorem Ends.of_passes {c c₁ c' : Cursor σ} {rs rs' : List Char} (h : Passes c rs c₁)
    (he : Ends c₁ rs' c') : Ends c (rs ++ rs') c' := by
  obtain ⟨c₂, h₂, hd⟩ := he
  exact ⟨c₂, h.trans h₂, hd⟩

/-! ### Decoding -/

theorem decode_eq_ok {c c' : Cursor σ} {r : Option Char} (h : decode.run c = (.ok r, c')) :
    ∃ s, Utf8.decode c.source = (.ok r, s) ∧ c' = { c with source := s } := by
  unfold Scan.run decode at h
  split at h
  next r' s hs => cases h; exact ⟨s, hs, rfl⟩
  next => cases h

theorem decode_eq_error {c c' : Cursor σ} {e : LexError} (h : decode.run c = (.error e, c')) :
    ∃ fault s, Utf8.decode c.source = (.error fault, s) ∧ e = fault.at c.position := by
  unfold Scan.run decode at h
  split at h
  next => cases h
  next fault s hs => cases h; exact ⟨fault, s, hs, rfl⟩

/-- A decoding that gives `none` passes no rune. -/
theorem passes_decode_none {c c' : Cursor σ} (h : decode.run c = (.ok none, c')) :
    Passes c [] c' ∧ c'.lookahead = c.lookahead := by
  obtain ⟨s, hd, rfl⟩ := decode_eq_ok h
  exact ⟨⟨⟨_, .single hd, List.append_nil _⟩, rfl⟩, rfl⟩

/-- A rune `r` that is decoded joins the ones looked at. -/
theorem passes_decode_some {c c' : Cursor σ} {r : Char}
    (h : decode.run c = (.ok (some r), c')) :
    Passes c [] { c' with lookahead := c'.lookahead ++ [r] } ∧ c'.caret = c.caret ∧
      c'.lookahead = c.lookahead := by
  obtain ⟨s, hd, rfl⟩ := decode_eq_ok h
  exact ⟨⟨⟨_, .single hd, rfl⟩, rfl⟩, rfl, rfl⟩

/-- The error `e` of a fault stands where the cursor does. -/
theorem position?_of_decode_error {c c' : Cursor σ} {e : LexError}
    (h : decode.run c = (.error e, c')) : e.position? = some c.position := by
  obtain ⟨fault, s, -, rfl⟩ := decode_eq_error h
  cases fault <;> rfl

theorem Ends.passes {c c' : Cursor σ} {rs : List Char} (h : Ends c rs c') : Passes c rs c' := by
  obtain ⟨c₁, h₁, hd⟩ := h
  have := h₁.trans (passes_decode_none hd).1
  rwa [List.append_nil] at this

/-- An error `e` of decoding stands at a position that the cursor can reach. -/
theorem Faults.position? {c : Cursor σ} {e : LexError} (h : Faults c e) :
    ∃ rs, e.position? = some (c.position.advanceAll rs) := by
  obtain ⟨rs, c₁, c', h₁, hd⟩ := h
  exact ⟨rs, by rw [position?_of_decode_error hd, h₁.position]⟩

/-! ### Passing and putting back -/

/-- If `nextRune` gives the rune `r`, it passes `r` and the caret goes over it. -/
theorem passes_nextRune {c c' : Cursor σ} {r : Char}
    (h : nextRune.run c = (.ok (some r), c')) :
    Passes c [r] c' ∧ c'.caret = c.caret.advance r := by
  unfold Scan.run nextRune at h
  split at h
  next r' rs hl =>
    cases h
    exact ⟨⟨⟨[], .refl _, by rw [hl]; simp⟩, Caret.toPosition_advance _ _⟩, rfl⟩
  next hl =>
    split at h
    next r' c₁ hd =>
      cases h
      obtain ⟨⟨⟨ds, hds, hs⟩, -⟩, hcaret, hla⟩ := passes_decode_some hd
      refine ⟨⟨⟨ds, hds, ?_⟩, ?_⟩, ?_⟩
      · rw [hs, hla, hl]; rfl
      · show (c₁.caret.advance r).toPosition = _
        rw [hcaret]
        exact Caret.toPosition_advance _ _
      · show c₁.caret.advance r = _
        rw [hcaret]
    next => cases h
    next => cases h

/-- Where there is no rune to pass, the input ends, and nothing is looked at. -/
theorem ends_nextRune {c c' : Cursor σ} (h : nextRune.run c = (.ok none, c')) :
    Ends c [] c' ∧ c'.lookahead = [] := by
  unfold Scan.run nextRune at h
  split at h
  next => cases h
  next hl =>
    split at h
    next => cases h
    next c₁ hd => cases h; exact ⟨⟨c, .refl c, hd⟩, (passes_decode_none hd).2.trans hl⟩
    next => cases h

theorem faults_nextRune {c c' : Cursor σ} {e : LexError}
    (h : nextRune.run c = (.error e, c')) : Faults c e := by
  unfold Scan.run nextRune at h
  split at h
  next => cases h
  next hl =>
    split at h
    next => cases h
    next => cases h
    next e' c₁ hd => cases h; exact ⟨[], c, c', .refl c, hd⟩

/-- The rune `r` just passed can be put back by `backup`, and then nothing was passed. -/
theorem passes_backup {c c' : Cursor σ} {r : Char} (hline : 1 ≤ c.position.line)
    (h : nextRune.run c = (.ok (some r), c')) : Passes c [] (c'.backup r) := by
  obtain ⟨⟨⟨ds, hds, hs⟩, -⟩, hcaret⟩ := passes_nextRune h
  refine ⟨⟨ds, hds, hs⟩, ?_⟩
  show (c'.caret.retreat r).toPosition = c.caret.toPosition
  rw [hcaret]
  exact c.caret.retreat_advance_toPosition r hline

/-- Skipping `n` runes that were looked at passes them. -/
theorem passes_skip (c : Cursor σ) (n : Nat) : Passes c (c.lookahead.take n) (c.skip n) := by
  refine ⟨⟨[], .refl _, ?_⟩, ?_⟩
  · rw [List.append_nil]
    exact (List.take_append_drop n c.lookahead).symm
  · exact Caret.toPosition_advanceAll _ _

/-! ### Looks leave the caret alone -/

theorem caret_decode (c : Cursor σ) : (decode.run c).2.caret = c.caret := by
  unfold Scan.run decode
  split <;> rfl

theorem caret_lookFurther (k : Nat) (c : Cursor σ) : ((lookFurther k).run c).2.caret = c.caret := by
  induction k generalizing c with
  | zero => rfl
  | succ k ih =>
    have h := caret_decode c
    unfold Scan.run lookFurther
    split
    next r c₁ hd => rw [hd] at h; exact (ih _).trans h
    next c₁ hd => rw [hd] at h; exact h
    next e c₁ hd => rw [hd] at h; exact h

theorem caret_peekNth (n : Nat) (c : Cursor σ) : ((peekNth n).run c).2.caret = c.caret := by
  have h := caret_lookFurther (n + 1 - c.lookahead.length) c
  unfold Scan.run peekNth
  split
  next c₁ hl => rw [hl] at h; exact h
  next e c₁ hl => rw [hl] at h; exact h

theorem caret_nextRune_none {c c' : Cursor σ} (h : nextRune.run c = (.ok none, c')) :
    c'.caret = c.caret := by
  have hd := caret_decode c
  unfold Scan.run nextRune at h
  split at h
  next => cases h
  next =>
    split at h
    next => cases h
    next c₁ hdec => cases h; rw [hdec] at hd; exact hd
    next => cases h

/-! ### Looking ahead -/

/-- Looking further by `k` runes passes nothing and keeps what was looked at, up to the end of the
input. -/
theorem passes_lookFurther {k : Nat} {c c' : Cursor σ} (h : (lookFurther k).run c = (.ok (), c')) :
    Passes c [] c' ∧ c.lookahead <+: c'.lookahead ∧
      (c'.lookahead.length = c.lookahead.length + k ∨ Ends c [] c') := by
  induction k generalizing c with
  | zero => cases h; exact ⟨.refl _, List.prefix_refl _, .inl rfl⟩
  | succ k ih =>
    unfold Scan.run lookFurther at h
    split at h
    next r c₁ hd =>
      obtain ⟨hp, -, hl⟩ := passes_decode_some hd
      obtain ⟨hp', hpre, hlen⟩ := ih h
      refine ⟨hp.trans hp', ?_, ?_⟩
      · rw [hl] at hpre
        exact (List.prefix_append _ _).trans hpre
      · rcases hlen with hlen | hends
        · left
          simp only [hl, List.length_append, List.length_singleton] at hlen
          omega
        · exact .inr (hends.of_passes hp)
    next c₁ hd =>
      cases h
      obtain ⟨hp, hl⟩ := passes_decode_none hd
      exact ⟨hp, hl ▸ List.prefix_refl _, .inr ⟨c, .refl c, hd⟩⟩
    next => cases h

theorem faults_lookFurther {k : Nat} {c c' : Cursor σ} {e : LexError}
    (h : (lookFurther k).run c = (.error e, c')) : Faults c e := by
  induction k generalizing c with
  | zero => cases h
  | succ k ih =>
    unfold Scan.run lookFurther at h
    split at h
    next r c₁ hd => exact (ih h).of_passes (passes_decode_some hd).1
    next => cases h
    next e' c₁ hd => cases h; exact ⟨[], c, c', .refl c, hd⟩

/-- Looking at the rune `n` places ahead passes nothing and keeps what was looked at.  Where it
shows no rune, the input ends before that place. -/
theorem passes_peekNth {n : Nat} {c c' : Cursor σ} {seen : Option Char}
    (h : (peekNth n).run c = (.ok seen, c')) :
    Passes c [] c' ∧ c.lookahead <+: c'.lookahead ∧ seen = c'.lookahead[n]? ∧
      (seen = none → Ends c [] c') := by
  unfold Scan.run peekNth at h
  split at h
  next c₁ hl =>
    cases h
    obtain ⟨hp, hpre, hlen⟩ := passes_lookFurther hl
    refine ⟨hp, hpre, rfl, fun hnone => ?_⟩
    rcases hlen with hlen | hends
    · rw [List.getElem?_eq_none_iff] at hnone
      omega
    · exact hends
  next e c₁ hl => cases h

theorem faults_peekNth {n : Nat} {c c' : Cursor σ} {e : LexError}
    (h : (peekNth n).run c = (.error e, c')) : Faults c e := by
  unfold Scan.run peekNth at h
  split at h
  next => cases h
  next e' c₁ hl => cases h; exact faults_lookFurther hl

/-- Runes that are looked at already are shown by `peekNth` without asking the source. -/
theorem peekNth_of_lt {n : Nat} {c : Cursor σ} (h : n < c.lookahead.length) :
    (peekNth n).run c = (.ok c.lookahead[n]?, c) := by
  have hzero : n + 1 - c.lookahead.length = 0 := by omega
  unfold Scan.run peekNth
  rw [hzero]
  rfl

theorem peekRow_of_le {n : Nat} {c : Cursor σ} (h : n ≤ c.lookahead.length) :
    (peekRow n).run c = (.ok (c.lookahead.take n), c) := by
  induction n with
  | zero => rfl
  | succ n ih =>
    have hlt : n < c.lookahead.length := h
    rw [peekRow, Scan.run_bind_ok (ih (Nat.le_of_lt hlt)), Scan.run_bind_ok (peekNth_of_lt hlt),
      List.getElem?_eq_getElem hlt, List.take_add_one, List.getElem?_eq_getElem hlt]
    rfl

end Cursor

/-! ### Texts -/

namespace Cursor

/-- The runes that come next are `rs`, and then there is only the end. -/
def Holds (c : Cursor Source) (rs : List Char) : Prop :=
  ∃ pending, c.source.Spells pending ∧ rs = c.lookahead ++ pending

namespace Holds

/-- The runes `ps` passed in a text are its next ones. -/
theorem passes {c c' : Cursor Source} {rs ps : List Char} (h : Holds c rs) (hp : Passes c ps c') :
    ∃ rest, rs = ps ++ rest ∧ Holds c' rest := by
  obtain ⟨pending, hs, rfl⟩ := h
  obtain ⟨ds, hd, hl⟩ := hp.stream
  obtain ⟨rest, rfl, hrest⟩ := hs.decodes hd
  refine ⟨c'.lookahead ++ rest, ?_, rest, hrest, rfl⟩
  rw [← List.append_assoc, hl, List.append_assoc]

/-- No decoding of a text `rs` fails. -/
theorem not_faults {c : Cursor Source} {rs : List Char} {e : LexError} (h : Holds c rs) :
    ¬Faults c e := by
  rintro ⟨ps, c₁, c', hp, hd⟩
  obtain ⟨rest, -, pending, hs, -⟩ := h.passes hp
  obtain ⟨fault, s, hdec, -⟩ := decode_eq_error hd
  obtain ⟨hok, -⟩ := hs.decode hdec
  cases hok

/-- Where the input ends there is nothing left of the text `rs` but what is looked at. -/
theorem ends {c c' : Cursor Source} {rs ps : List Char} (h : Holds c rs) (he : Ends c ps c') :
    rs = ps ++ c'.lookahead ∧ Holds c' c'.lookahead := by
  obtain ⟨c₁, hp, hd⟩ := he
  obtain ⟨rest, rfl, pending, hs, rfl⟩ := h.passes hp
  obtain ⟨s, hdec, rfl⟩ := decode_eq_ok hd
  obtain ⟨hhead, -, htail⟩ := hs.decode hdec
  have hnil : pending = [] := List.head?_eq_none_iff.1 (Except.ok.inj hhead).symm
  subst hnil
  exact ⟨by simp, [], htail, by simp⟩

/-- A look `n` runes ahead shows the rune of the text `rs` that stands there. -/
theorem peekNth {c : Cursor Source} {rs : List Char} (h : Holds c rs) (n : Nat) :
    ∃ c', (Cursor.peekNth n).run c = (.ok rs[n]?, c') ∧ Holds c' rs := by
  match hr : (Cursor.peekNth n).run c with
  | (.error e, c') => exact absurd (faults_peekNth hr) h.not_faults
  | (.ok seen, c') =>
    obtain ⟨hp, -, hseen, hend⟩ := passes_peekNth hr
    obtain ⟨rest, hrest, h'⟩ := h.passes hp
    rw [List.nil_append] at hrest
    subst hrest
    refine ⟨c', ?_, h'⟩
    suffices hrs : seen = rs[n]? by rw [hrs]
    cases seen with
    | none =>
      -- The input ends behind what is looked at, which is too short.
      rw [(h.ends (hend rfl)).1, List.nil_append]
      exact hseen
    | some r =>
      obtain ⟨pending, -, rfl⟩ := h'
      have hlt := (List.getElem?_eq_some_iff.1 hseen.symm).1
      rw [List.getElem?_append_left hlt]
      exact hseen

end Holds

end Cursor

end LexStream
