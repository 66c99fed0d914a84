import LexStream.Proofs.Passage

/-!
# Cursors as indices

A cursor over a text answers as an index into the runes of the text does.  Which chunks the bytes
arrive in, how large the buffer is, what was looked at and what was put back never show.

A row of operations is permitted when a rune is put back only right after it was passed, with
nothing but looks in between, and when only runes that were looked at are skipped
(`Cursor.Permits`).

Main facts:

* `Cursor.Tracks.step`: a permitted operation answers as the index does and keeps the cursor on it;
* `Cursor.trace_eq_indexTrace`: so does every permitted row of operations.
-/

namespace LexStream.Cursor

/-! ### Operations -/

/-- What can be asked of a cursor.  Each operation is `run` by the computation of its name. -/
inductive Op where
  /-- Pass the next rune. -/
  | next
  /-- Look at the next rune. -/
  | peek
  /-- Look at the rune `n` places ahead. -/
  | peekNth (n : Nat)
  /-- Look at the next two runes. -/
  | peek2
  /-- Put the rune `r` back. -/
  | backup (r : Char)
  /-- Pass `n` runes that were looked at. -/
  | skip (n : Nat)
deriving DecidableEq

/-- What an operation answers, by the type of what it gives. -/
inductive Answer where
  /-- A rune `r`, or `none` at the end of the input. -/
  | rune (r : Option Char)
  /-- Two runes, or `none` in their places before the end of the input. -/
  | runes (first second : Option Char)
  /-- The cursor was moved. -/
  | moved
deriving DecidableEq

namespace Op

variable {σ : Type} [ByteSource σ]

/-- Carries an operation out, as a `Scan`. -/
def run : Op → Scan σ Answer
  | .next => do return .rune (← nextRune)
  | .peek => do return .rune (← Cursor.peek)
  | .peekNth n => do return .rune (← Cursor.peekNth n)
  | .peek2 => do
    let (first, second) ← Cursor.peek2
    return .runes first second
  | .backup r => do
    Scan.move (·.backup r)
    return .moved
  | .skip n => do
    Scan.move (·.skip n)
    return .moved

/-- Whether an operation may be asked of the cursor `c`, where `last` is the rune that can be put
back. -/
def Allowed (c : Cursor σ) (last : Option Char) : Op → Prop
  | .backup r => last = some r
  | .skip n => n ≤ c.lookahead.length
  | _ => True

/-- The rune that can be put back by `backup` after an operation: the one it passed, if it passed
just one, and the `last` one before if it did not move. -/
def undoable (last : Option Char) : Op → Except LexError Answer → Option Char
  | .next, .ok (.rune (some r)) => some r
  | .backup _, _ => none
  | .skip (_ + 1), _ => none
  | _, _ => last

/-- What an operation answers to an index `i` into the runes `rs`. -/
def answerAt (rs : List Char) (i : Nat) : Op → Answer
  | .next => .rune rs[i]?
  | .peek => .rune rs[i]?
  | .peekNth n => .rune rs[i + n]?
  | .peek2 => .runes rs[i]? rs[i + 1]?
  | .backup _ => .moved
  | .skip _ => .moved

/-- Where an operation moves an index `i` into the runes `rs`. -/
def indexAfter (rs : List Char) (i : Nat) : Op → Nat
  | .next => if i < rs.length then i + 1 else i
  | .peek => i
  | .peekNth _ => i
  | .peek2 => i
  | .backup _ => i - 1
  | .skip n => i + n

end Op

variable {σ : Type} [ByteSource σ]

/-- What a row of operations answers, from the cursor `c` on, with the position of the cursor after
each of them. -/
def trace (c : Cursor σ) : List Op → List (Except LexError Answer × Position)
  | [] => []
  | op :: ops =>
    let (answer, c') := op.run.run c
    (answer, c'.position) :: c'.trace ops

/-- Whether a row of operations may be asked of the cursor `c`, where `last` is the rune that can be
put back. -/
def Permits (c : Cursor σ) (last : Option Char) : List Op → Prop
  | [] => True
  | op :: ops =>
    op.Allowed c last ∧
      (op.run.run c).2.Permits (op.undoable last (op.run.run c).1) ops

instance decidableAllowed (c : Cursor σ) (last : Option Char) (op : Op) :
    Decidable (op.Allowed c last) :=
  match op with
  | .next => .isTrue trivial
  | .peek => .isTrue trivial
  | .peekNth _ => .isTrue trivial
  | .peek2 => .isTrue trivial
  | .backup r => inferInstanceAs (Decidable (last = some r))
  | .skip n => inferInstanceAs (Decidable (n ≤ c.lookahead.length))

instance decidablePermits (c : Cursor σ) (last : Option Char) :
    (ops : List Op) → Decidable (c.Permits last ops)
  | [] => .isTrue trivial
  | op :: ops =>
    have := decidablePermits (op.run.run c).2 (op.undoable last (op.run.run c).1) ops
    inferInstanceAs (Decidable (_ ∧ _))

/-- What a row of operations answers to an index `i` into the runes `rs`, with the position of the
rune that the index points at after each of them. -/
def indexTrace (rs : List Char) (i : Nat) : List Op → List (Except LexError Answer × Position)
  | [] => []
  | op :: ops =>
    let j := op.indexAfter rs i
    (.ok (op.answerAt rs i), Position.after (rs.take j)) :: indexTrace rs j ops

/-! ### Cursors that stand at an index -/

/-- The cursor `c` stands in front of the rune of the text `rs` that has the index `i`. -/
structure StandsAt (rs : List Char) (i : Nat) (c : Cursor Source) : Prop where
  le_length : i ≤ rs.length
  holds : c.Holds (rs.drop i)
  position : c.position = Position.after (rs.take i)

namespace StandsAt

variable {rs ps : List Char} {i : Nat} {c c' : Cursor Source}

/-- Passing the runes `ps` moves the index `i` over as many, and they are the runes that stand
there. -/
theorem passes (h : StandsAt rs i c) (hp : Passes c ps c') :
    StandsAt rs (i + ps.length) c' ∧ ps <+: rs.drop i := by
  obtain ⟨rest, hdrop, hrest⟩ := h.holds.passes hp
  have htake : rs.take (i + ps.length) = rs.take i ++ ps := by
    rw [List.take_add, hdrop, List.take_left]
  have hdrop' : rs.drop (i + ps.length) = rest := by
    rw [← List.drop_drop, hdrop, List.drop_left]
  refine ⟨⟨?_, ?_, ?_⟩, ⟨rest, hdrop.symm⟩⟩
  · have := congrArg List.length hdrop
    simp only [List.length_drop, List.length_append] at this
    have := h.le_length
    omega
  · rw [hdrop']
    exact hrest
  · rw [hp.position, h.position, htake]
    exact (Position.advanceAll_append _ _ _).symm

/-- Passing nothing keeps the index `i`. -/
theorem passes_nil (h : StandsAt rs i c) (hp : Passes c [] c') : StandsAt rs i c' :=
  (h.passes hp).1

theorem nextRune_some {r : Char} (h : StandsAt rs i c)
    (hr : nextRune.run c = (.ok (some r), c')) : rs[i]? = some r ∧ StandsAt rs (i + 1) c' := by
  obtain ⟨hp, -⟩ := passes_nextRune hr
  obtain ⟨h', hpre⟩ := h.passes hp
  refine ⟨?_, h'⟩
  have := hpre.getElem (i := 0) (by simp)
  rw [List.getElem?_eq_some_iff]
  have hlen := hpre.length_le
  simp only [List.length_singleton, List.length_drop] at hlen
  refine ⟨by omega, ?_⟩
  simpa using this.symm

theorem nextRune_none (h : StandsAt rs i c) (hr : nextRune.run c = (.ok none, c')) :
    i = rs.length ∧ StandsAt rs i c' := by
  obtain ⟨he, hl⟩ := ends_nextRune hr
  have hdrop := (h.holds.ends he).1
  rw [hl, List.append_nil, List.drop_eq_nil_iff] at hdrop
  exact ⟨Nat.le_antisymm h.le_length hdrop, h.passes_nil he.passes⟩

/-- A look `n` runes ahead shows the rune `rs[i + n]?` that stands there. -/
theorem peekNth (h : StandsAt rs i c) (n : Nat) :
    ∃ c', (Cursor.peekNth n).run c = (.ok rs[i + n]?, c') ∧ StandsAt rs i c' ∧
      c'.caret = c.caret := by
  obtain ⟨c', hr, -⟩ := h.holds.peekNth n
  have hcaret := caret_peekNth n c
  rw [hr] at hcaret
  rw [List.getElem?_drop] at hr
  exact ⟨c', hr, h.passes_nil (passes_peekNth hr).1, hcaret⟩

end StandsAt

/-! ### Operations follow the index -/

/-- The cursor `c` stands at the index `i`, and `last`, if it is a rune, is the one that was passed
to get there and nothing else has moved the caret since. -/
structure Tracks (rs : List Char) (i : Nat) (last : Option Char) (c : Cursor Source) : Prop where
  stands : StandsAt rs i c
  passed : ∀ r ∈ last, ∃ (j : Nat) (caret : Caret), i = j + 1 ∧ rs[j]? = some r ∧
    c.caret = caret.advance r ∧ caret.toPosition = Position.after (rs.take j)

namespace Tracks

variable {rs : List Char} {i : Nat} {last : Option Char} {c c' : Cursor Source}

/-- Standing still keeps the `last` rune, which can be put back. -/
theorem of_caret_eq (h : Tracks rs i last c) (hs : StandsAt rs i c') (hc : c'.caret = c.caret) :
    Tracks rs i last c' :=
  ⟨hs, fun r hr => hc ▸ h.passed r hr⟩

theorem next (h : Tracks rs i last c) :
    ∃ c', nextRune.run c = (.ok rs[i]?, c') ∧
      Tracks rs (Op.indexAfter rs i .next) (rs[i]?.or last) c' := by
  match hr : nextRune.run c with
  | (.error e, c') => exact absurd (faults_nextRune hr) h.stands.holds.not_faults
  | (.ok none, c') =>
    obtain ⟨rfl, hs⟩ := h.stands.nextRune_none hr
    have hnone : rs[rs.length]? = none := List.getElem?_eq_none_iff.2 (Nat.le_refl _)
    refine ⟨c', by rw [hnone], ?_⟩
    rw [hnone, Option.none_or, Op.indexAfter, if_neg (Nat.lt_irrefl _)]
    exact h.of_caret_eq hs (caret_nextRune_none hr)
  | (.ok (some r), c') =>
    obtain ⟨hget, hs⟩ := h.stands.nextRune_some hr
    have hlt : i < rs.length := (List.getElem?_eq_some_iff.1 hget).1
    refine ⟨c', by rw [hget], ?_⟩
    rw [hget, Option.some_or, Op.indexAfter, if_pos hlt]
    refine ⟨hs, fun r' hr' => ?_⟩
    cases hr'
    exact ⟨i, c.caret, rfl, hget, (passes_nextRune hr).2, h.stands.position⟩

/-- The rune `r` that was passed last can be put back by `backup`, also across a newline. -/
theorem backup {r : Char} (h : Tracks rs i (some r) c) : Tracks rs (i - 1) none (c.backup r) := by
  obtain ⟨j, caret, rfl, hget, hcaret, hpos⟩ := h.passed r rfl
  obtain ⟨hlt, hr⟩ := List.getElem?_eq_some_iff.1 hget
  obtain ⟨pending, hspells, hrest⟩ := h.stands.holds
  have hline : 1 ≤ caret.line := by
    have : 1 ≤ (Position.after (rs.take j)).line :=
      Position.line_le_line_advanceAll Position.start (rs.take j)
    rwa [← hpos] at this
  refine ⟨⟨Nat.le_of_lt hlt, ⟨pending, hspells, ?_⟩, ?_⟩, fun r' hr' => by cases hr'⟩
  · rw [Nat.add_sub_cancel, List.drop_eq_getElem_cons hlt, hr, hrest]
    rfl
  · show (c.caret.retreat r).toPosition = _
    rw [hcaret, Caret.retreat_advance_toPosition caret r hline, hpos, Nat.add_sub_cancel]

theorem skip {n : Nat} (h : Tracks rs i last c) (hn : n ≤ c.lookahead.length) :
    StandsAt rs (i + n) (c.skip n) := by
  have hs := (h.stands.passes (c.passes_skip n)).1
  rwa [List.length_take, Nat.min_eq_left hn] at hs

/-- An operation `op` that is `Allowed` answers as the index `i` does and keeps the cursor on it. -/
theorem step (h : Tracks rs i last c) {op : Op} (ha : op.Allowed c last) :
    ∃ c', op.run.run c = (.ok (op.answerAt rs i), c') ∧
      Tracks rs (op.indexAfter rs i) (op.undoable last (.ok (op.answerAt rs i))) c' := by
  cases op with
  | next =>
    obtain ⟨c', hr, h'⟩ := h.next
    refine ⟨c', Scan.run_bind_ok hr, ?_⟩
    -- Where there was no rune to pass, the one passed before can still be put back.
    have hlast : Op.undoable last .next (.ok (.rune rs[i]?)) = rs[i]?.or last := by
      rcases rs[i]? with _ | r
      · rfl
      · rfl
    rw [Op.answerAt, hlast]
    exact h'
  | peek =>
    obtain ⟨c', hr, hs, hc⟩ := h.stands.peekNth 0
    exact ⟨c', Scan.run_bind_ok hr, h.of_caret_eq hs hc⟩
  | peekNth n =>
    obtain ⟨c', hr, hs, hc⟩ := h.stands.peekNth n
    exact ⟨c', Scan.run_bind_ok hr, h.of_caret_eq hs hc⟩
  | peek2 =>
    obtain ⟨c₁, hr₁, hs₁, hc₁⟩ := h.stands.peekNth 0
    obtain ⟨c₂, hr₂, hs₂, hc₂⟩ := hs₁.peekNth 1
    refine ⟨c₂, ?_, h.of_caret_eq hs₂ (hc₂.trans hc₁)⟩
    have hrow : Cursor.peek2.run c = (.ok (rs[i]?, rs[i + 1]?), c₂) := by
      rw [Cursor.peek2, Scan.run_bind_ok hr₁, Scan.run_bind_ok hr₂]
      rfl
    exact Scan.run_bind_ok hrow
  | backup r =>
    have hlast : last = some r := ha
    subst hlast
    exact ⟨c.backup r, rfl, h.backup⟩
  | skip n =>
    refine ⟨c.skip n, rfl, h.skip ha, ?_⟩
    cases n with
    | zero => exact h.passed
    | succ n => intro r hr; cases hr

/-- A row `ops` of operations that the cursor `Permits` answers as the index `i` does. -/
theorem trace_eq (h : Tracks rs i last c) {ops : List Op} (hops : c.Permits last ops) :
    c.trace ops = indexTrace rs i ops := by
  induction ops generalizing i last c with
  | nil => rfl
  | cons op ops ih =>
    obtain ⟨ha, hrest⟩ := hops
    obtain ⟨c', hr, h'⟩ := h.step ha
    rw [hr] at hrest
    rw [trace, hr, indexTrace]
    dsimp only
    rw [h'.stands.position, ih h' hrest]

end Tracks

/-- A new cursor stands in front of the first rune of the text `rs` that its source spells. -/
theorem tracks_start {s : Source} {rs : List Char} (h : s.Spells rs) :
    Tracks rs 0 none { source := s } :=
  ⟨⟨Nat.zero_le _, ⟨rs, h, rfl⟩, rfl⟩, fun r hr => by cases hr⟩

/-- However the bytes of a text `rs` are cut into `chunks` of at least one byte, and however large
the buffer is, every permitted row `ops` of operations answers as an index into `rs` does, and after
each of them the cursor stands behind the runes before the index. -/
theorem trace_eq_indexTrace (rs : List Char) (chunks : List (List UInt8)) (capacity : Nat)
    (hne : ∀ chunk ∈ chunks, chunk ≠ []) (hchunks : chunks.flatten = Utf8.encode rs)
    (ops : List Op)
    (hops : Permits { source := Source.ofEvents (chunks.map .chunk) capacity } none ops) :
    trace { source := Source.ofEvents (chunks.map .chunk) capacity } ops = indexTrace rs 0 ops :=
  (tracks_start (Source.spells_ofChunks hne hchunks capacity)).trace_eq hops

/-- The newline of a text is put back and passed again, in two reads that cut the rune `é`. -/
theorem trace_eq_indexTrace_two_lines :
    [[0x61, 0x0A, 0xC3], [0xA9, 0x62]].flatten = Utf8.encode ['a', '\n', 'é', 'b'] ∧
      Permits { source := Source.ofEvents [.chunk [0x61, 0x0A, 0xC3], .chunk [0xA9, 0x62]] 2 } none
        [.next, .peekNth 1, .next, .peek2, .backup '\n', .next, .skip 2, .next] ∧
      trace { source := Source.ofEvents [.chunk [0x61, 0x0A, 0xC3], .chunk [0xA9, 0x62]] 2 }
        [.next, .peekNth 1, .next, .peek2, .backup '\n', .next, .skip 2, .next] =
      indexTrace ['a', '\n', 'é', 'b'] 0
        [.next, .peekNth 1, .next, .peek2, .backup '\n', .next, .skip 2, .next] :=
  ⟨by decide, by decide,
    trace_eq_indexTrace ['a', '\n', 'é', 'b'] [[0x61, 0x0A, 0xC3], [0xA9, 0x62]] 2 (by decide)
      (by decide) _ (by decide)⟩

end LexStream.Cursor
