import LexStream.Proofs.AlikeSources
import LexStream.Proofs.BrokenTexts
import LexStream.Proofs.PulledBytes
import LexStream.Proofs.Restart

/-!
# How far a lexer reads ahead

Between two items a lexer holds one rune at most that it has decoded and not passed, and two while
it scans an item.  So a reader is never asked for more than the runes of the items, one rune and
what the buffer takes at once.

The scans of words and numbers put back one rune, and look at one.  Only the scan of an operator
looks at two, since it goes down a trie of three levels.  It looks at the second rune behind the
first one only from a node of the second level, and below the first level every node ends a lexeme;
so it passes one rune of the two at least.

`Scan.Throughout P x c` says that all cursors have the property `P` where the computation `x` starts
from `c` and where each of its steps starts and ends.

Main facts:

* `Scan.Frugal.item`: the scan of an item holds two runes at most, and leaves one at most;
* `Lexer.readAhead_le`: how many bytes a reader has given behind some items.
-/

namespace LexStream

open OperatorTrie (Branches standard)

/-! ### What holds throughout a computation -/

section

variable {σ : Type} [ByteSource σ]

/-- Every cursor has the property `P` from the start of a computation to its end.  The steps are
those that move a cursor: passing a rune, a look, which adds to the lookahead rune by rune, putting
a rune back, and passing some that were looked at. -/
inductive Scan.Throughout (P : Cursor σ → Prop) : {α : Type} → Scan σ α → Cursor σ → Prop
  | pure {α : Type} (a : α) {c : Cursor σ} (h : P c) : Throughout P (Pure.pure a : Scan σ α) c
  | fail {α : Type} (e : LexError) {c : Cursor σ} (h : P c) :
      Throughout P (Scan.fail e : Scan σ α) c
  | position {c : Cursor σ} (h : P c) : Throughout P Scan.position c
  | nextRune {c : Cursor σ} (h : P c) (h' : P (Cursor.nextRune.run c).2) :
      Throughout P Cursor.nextRune c
  | peekNth (n : Nat) {c : Cursor σ} (h : P c) (h' : P ((Cursor.peekNth n).run c).2) :
      Throughout P (Cursor.peekNth n) c
  | backup (r : Char) {c : Cursor σ} (h : P c) (h' : P (c.backup r)) :
      Throughout P (Scan.move (·.backup r)) c
  | skip (n : Nat) {c : Cursor σ} (h : P c) (h' : P (c.skip n)) :
      Throughout P (Scan.move (·.skip n)) c
  | bind {α β : Type} {x : Scan σ α} {f : α → Scan σ β} {c : Cursor σ} (hx : Throughout P x c)
      (hf : ∀ a c₁, x.run c = (.ok a, c₁) → Throughout P (f a) c₁) : Throughout P (x >>= f) c

/-- What holds throughout a computation `x` holds where it ends. -/
theorem Scan.Throughout.last {P : Cursor σ → Prop} {α : Type} {x : Scan σ α} {c : Cursor σ}
    (h : x.Throughout P c) : P (x.run c).2 := by
  induction h with
  | pure a h => exact h
  | fail e h => exact h
  | position h => exact h
  | nextRune h h' => exact h'
  | peekNth n h h' => exact h'
  | backup r h h' => exact h'
  | skip n h h' => exact h'
  | @bind α β x f c hx hf ihx ihf =>
    match hrun : x.run c with
    | (.ok a, c₁) =>
      rw [run_bind_ok hrun]
      exact ihf a c₁ hrun
    | (.error e, c₁) =>
      rw [run_bind_error hrun]
      rwa [hrun] at ihx

/-- The cursor holds at most `n` runes that were decoded and not passed. -/
def Cursor.Holding (n : Nat) (c : Cursor σ) : Prop :=
  c.lookahead.length ≤ n

/-- On the cursor `c`, two runes at most are held throughout the computation, and one at most where
it has succeeded. -/
structure Scan.Frugal {α : Type} (x : Scan σ α) (c : Cursor σ) : Prop where
  throughout : x.Throughout (Cursor.Holding 2) c
  holding : ∀ a c', x.run c = (.ok a, c') → c'.Holding 1

/-! ### The lookahead -/

namespace Cursor

variable {c c' : Cursor σ}

omit [ByteSource σ] in
theorem Holding.mono {m n : Nat} (h : c.Holding m) (hmn : m ≤ n) : c.Holding n :=
  Nat.le_trans h hmn

theorem lookahead_decode (c : Cursor σ) : (decode.run c).2.lookahead = c.lookahead := by
  unfold Scan.run decode
  split <;> rfl

/-- Passing a rune takes it from the `lookahead`, and puts nothing there. -/
theorem lookahead_nextRune (c : Cursor σ) :
    (nextRune.run c).2.lookahead = c.lookahead.tail := by
  have hdecode := lookahead_decode c
  unfold Scan.run nextRune
  split
  next r rs hl => rw [hl]; rfl
  next hl =>
    rw [hl] at hdecode ⊢
    split
    next r c₁ hd => rw [hd] at hdecode; exact hdecode
    next c₁ hd => rw [hd] at hdecode; exact hdecode
    next e c₁ hd => rw [hd] at hdecode; exact hdecode

/-- Behind a rune that `nextRune` passed, one less is held. -/
theorem holding_nextRune {n : Nat} (h : c.Holding (n + 1)) : (nextRune.run c).2.Holding n := by
  unfold Holding at h ⊢
  rw [lookahead_nextRune, List.length_tail]
  omega

theorem holding_lookFurther (k : Nat) (c : Cursor σ) :
    ((lookFurther k).run c).2.Holding (c.lookahead.length + k) := by
  induction k generalizing c with
  | zero => exact Nat.le_refl _
  | succ k ih =>
    have hdecode := lookahead_decode c
    unfold Scan.run lookFurther
    split
    next r c₁ hd =>
      rw [hd] at hdecode
      have hlen : (c₁.lookahead ++ [r]).length + k = c.lookahead.length + (k + 1) := by
        rw [hdecode, List.length_append, List.length_singleton]
        omega
      exact hlen ▸ ih { c₁ with lookahead := c₁.lookahead ++ [r] }
    next c₁ hd => rw [hd] at hdecode; exact (congrArg List.length hdecode).le.trans (by omega)
    next e c₁ hd => rw [hd] at hdecode; exact (congrArg List.length hdecode).le.trans (by omega)

/-- A look at the place `n` ahead fills the lookahead up to this place, if it was not filled
before. -/
theorem holding_peekNth (n : Nat) (c : Cursor σ) :
    ((peekNth n).run c).2.Holding (max c.lookahead.length (n + 1)) := by
  have h := holding_lookFurther (n + 1 - c.lookahead.length) c
  have hle : c.lookahead.length + (n + 1 - c.lookahead.length) =
      max c.lookahead.length (n + 1) := by
    omega
  rw [hle] at h
  unfold Scan.run peekNth
  split
  next c₁ hl => rw [hl] at h; exact h
  next e c₁ hl => rw [hl] at h; exact h

end Cursor

/-! ### Frugal computations -/

namespace Scan.Frugal

variable {α β : Type} {c : Cursor σ} {x : Scan σ α}

theorem pure (a : α) (h : c.Holding 1) : Frugal (Pure.pure a : Scan σ α) c where
  throughout := .pure a (h.mono (Nat.le_succ 1))
  holding _ _ hrun := by cases hrun; exact h

theorem fail (e : LexError) (h : c.Holding 1) : Frugal (Scan.fail e : Scan σ α) c where
  throughout := .fail e (h.mono (Nat.le_succ 1))
  holding _ _ hrun := by cases hrun

theorem position (h : c.Holding 1) : Frugal (Scan.position : Scan σ Position) c where
  throughout := .position (h.mono (Nat.le_succ 1))
  holding _ _ hrun := by cases hrun; exact h

theorem nextRune (h : c.Holding 1) : Frugal Cursor.nextRune c := by
  have hafter : (Cursor.nextRune.run c).2.Holding 1 :=
    (Cursor.holding_nextRune h).mono (Nat.zero_le 1)
  refine ⟨.nextRune (h.mono (Nat.le_succ 1)) (hafter.mono (Nat.le_succ 1)), fun a c' hrun => ?_⟩
  rwa [hrun] at hafter

theorem peek (h : c.Holding 1) : Frugal Cursor.peek c := by
  have hafter : (Cursor.peek.run c).2.Holding 1 :=
    (Cursor.holding_peekNth 0 c).mono (Nat.max_le.2 ⟨h, Nat.le_refl 1⟩)
  refine ⟨.peekNth 0 (h.mono (Nat.le_succ 1)) (hafter.mono (Nat.le_succ 1)), fun a c' hrun => ?_⟩
  rwa [hrun] at hafter

/-- A rune `r` is put back where none is held. -/
theorem backup (r : Char) (h : c.Holding 0) :
    Frugal (Scan.move (·.backup r) : Scan σ Unit) c := by
  have hafter : (c.backup r).Holding 1 := Nat.succ_le_succ h
  refine ⟨.backup r (h.mono (Nat.zero_le 2)) (hafter.mono (Nat.le_succ 1)), fun a c' hrun => ?_⟩
  cases hrun
  exact hafter

/-- A `skip n` leaves runes out where one is held beyond them. -/
theorem skip {n : Nat} (h : c.Holding 2) (hn : c.Holding (1 + n)) :
    Frugal (Scan.move (·.skip n) : Scan σ Unit) c := by
  have hafter : (c.skip n).Holding 1 := by
    unfold Cursor.Holding Cursor.skip at *
    rw [List.length_drop]
    omega
  refine ⟨.skip n h (hafter.mono (Nat.le_succ 1)), fun a c' hrun => ?_⟩
  cases hrun
  exact hafter

theorem bind_of_throughout {f : α → Scan σ β} (hx : x.Throughout (Cursor.Holding 2) c)
    (hf : ∀ a c₁, x.run c = (.ok a, c₁) → (f a).Frugal c₁) : (x >>= f).Frugal c where
  throughout := .bind hx fun a c₁ hrun => (hf a c₁ hrun).throughout
  holding b c' hrun := by
    obtain ⟨a, c₁, hrun₁, hrun₂⟩ := run_bind_eq_ok hrun
    exact (hf a c₁ hrun₁).holding b c' hrun₂

theorem bind {f : α → Scan σ β} (hx : x.Frugal c)
    (hf : ∀ a c₁, x.run c = (.ok a, c₁) → c₁.Holding 1 → (f a).Frugal c₁) : (x >>= f).Frugal c :=
  bind_of_throughout hx.throughout fun a c₁ hrun => hf a c₁ hrun (hx.holding a c₁ hrun)

/-- Behind a rune that `nextRune` passed, none is held. -/
theorem bind_nextRune {f : Option Char → Scan σ β} (h : c.Holding 1)
    (hf : ∀ r? c₁, Cursor.nextRune.run c = (.ok r?, c₁) → c₁.Holding 0 → (f r?).Frugal c₁) :
    (Cursor.nextRune >>= f).Frugal c := by
  refine bind (nextRune h) fun r? c₁ hrun _ => hf r? c₁ hrun ?_
  have hafter := Cursor.holding_nextRune h
  rwa [hrun] at hafter

theorem scan {τ : Type} (step : τ → Char → Verdict τ) (init : τ) (h : c.Holding 1) :
    Frugal (Run.scan step init) c := by
  suffices hall : ∀ state taken c, c.Holding 1 → Frugal (Run.goOn step state taken) c from
    hall init "" c h
  refine Run.goOn_induction step fun state taken c ih hc => ?_
  rw [Run.goOn_eq_bind]
  refine bind_nextRune hc fun r? c₁ hnext hnone => ?_
  have hone : c₁.Holding 1 := hnone.mono (Nat.zero_le 1)
  cases r? with
  | none => exact pure _ hone
  | some r =>
    dsimp only
    cases hverdict : step state r with
    | take next => exact ih r c₁ next hnext hverdict hone
    | stop => exact pure _ hone
    -- The rune that is left is put back to where no other one is held.
    | leave => exact bind (backup r hnone) fun _ _ _ => pure _

theorem inherited :
    Inherited (fun (x : Scan σ _) (_ : Scan σ _) => ∀ c, c.Holding 1 → x.Frugal c) where
  pure a _ := pure a
  bind hx hf c h := bind (hx c h) fun a c₁ _ => hf a c₁
  position _ := position
  peek _ := peek
  scan step init _ := scan step init

theorem untilStopped {τ : Type} {kind : LiteralKind} {start : Position}
    (step : τ → Char → Verdict τ) (init : τ) (c : Cursor σ) (h : c.Holding 1) :
    Frugal (Scanner.untilStopped kind start step init) c :=
  inherited.untilStopped step init (fun _ => fail _) c h

theorem zeroLed (start : Position) (c : Cursor σ) (h : c.Holding 1) :
    Frugal (Scanner.zeroLed start) c := by
  refine bind_nextRune h fun r? c₁ _ hnone => ?_
  have hone : c₁.Holding 1 := hnone.mono (Nat.zero_le 1)
  cases r? with
  | none => exact pure _ hone
  | some r =>
    dsimp only
    split_ifs
    · exact inherited.wholeIn _ _ c₁ hone
    · exact inherited.wholeIn _ _ c₁ hone
    · exact inherited.wholeIn _ _ c₁ hone
    · exact bind (backup r hnone) fun _ _ _ => pure _

end Scan.Frugal

/-! ### The scan of an operator -/

/-- The number of runes of a match behind the first one, `0` without a match. -/
def OperatorMatch.behind : Option OperatorMatch → Nat
  | none => 0
  | some found => found.length - 1

theorem OperatorTrie.depth_standard : standard.roots.depth = 3 := by
  decide +kernel

namespace Scanner

open OperatorMatch (behind)

variable {b : Branches} {c c' : Cursor σ}

/-- Down a trie `b` of three levels, looks go one rune beyond the next one at most. -/
theorem throughout_descend {n : Nat} (hdepth : n + b.depth ≤ 3) (best : Option OperatorMatch)
    (r : Char) (h : c.Holding 2) :
    (b.descend Cursor.peekNth (n + 1) best r).Throughout (Cursor.Holding 2) c := by
  induction b generalizing n best r c with
  | nil => exact .pure _ h
  | node rune token children siblings ihc ihs =>
    rw [Branches.depth] at hdepth
    unfold Branches.descend
    dsimp only
    split_ifs with hr hleaf
    · exact .pure _ h
    · rw [Nat.add_sub_cancel]
      -- There are two levels from here on, so at most one lies above.
      have hchildren : 1 ≤ children.depth := by
        cases children with
        | nil => exact absurd rfl hleaf
        | node => exact Nat.le_trans (Nat.succ_pos _) (Nat.le_max_left ..)
      have hlook := (Cursor.holding_peekNth n c).mono (n := 2) (Nat.max_le.2 ⟨h, by omega⟩)
      refine .bind (.peekNth n h hlook) fun seen c₁ hrun => ?_
      rw [hrun] at hlook
      cases seen with
      | none => exact .pure _ hlook
      | some next => exact ihc (by omega) _ next hlook
    · exact ihs (by omega) best r h

/-- Below the first level every node of `b` ends a lexeme.  So what is looked at on the way down is
part of the lexeme found, but for one rune. -/
theorem holding_descend {n : Nat} (hb : b.full = true ∨ n = 0 ∧ b.fullBelow = true)
    {best res : Option OperatorMatch} {r : Char} (hbest : n ≤ 1 + behind best)
    (h : c.Holding (max 1 n))
    (hrun : (b.descend Cursor.peekNth (n + 1) best r).run c = (.ok res, c')) :
    c'.Holding (1 + behind res) := by
  induction b generalizing n best r c with
  | nil => cases hrun; exact h.mono (Nat.max_le.2 ⟨Nat.le_add_right 1 _, hbest⟩)
  | node rune token children siblings ihc ihs =>
    have hparts : children.full = true ∧ (token.isSome = true ∨ n = 0) ∧
        (siblings.full = true ∨ n = 0 ∧ siblings.fullBelow = true) := by
      simp only [Branches.full, Branches.fullBelow, Bool.and_eq_true] at hb
      tauto
    obtain ⟨hchildren, htoken, hsiblings⟩ := hparts
    -- The best lexeme so far ends at this node, or the node is one of the first.
    have hbehind : n ≤ behind ((token.map fun t => (⟨t, n + 1⟩ : OperatorMatch)).or best) := by
      rcases htoken with htoken | rfl
      · obtain ⟨t, rfl⟩ := Option.isSome_iff_exists.1 htoken
        exact Nat.le_refl n
      · exact Nat.zero_le _
    unfold Branches.descend at hrun
    dsimp only at hrun
    split_ifs at hrun with hr hleaf
    · cases hrun
      exact h.mono (by omega)
    · obtain ⟨seen, c₁, hpeek, hrest⟩ := Scan.run_bind_eq_ok hrun
      have hlook : c₁.Holding (max 1 (n + 1)) := by
        have hlook := Cursor.holding_peekNth n c
        rw [Nat.add_sub_cancel] at hpeek
        rw [hpeek] at hlook
        refine hlook.mono (Nat.max_le.2 ⟨Nat.le_trans h ?_, Nat.le_max_right ..⟩)
        omega
      cases seen with
      | none => cases hrest; exact hlook.mono (by omega)
      | some next => exact ihc (.inl hchildren) (by omega) hlook hrest
    · exact ihs hsiblings hbest h hrun

/-- The runes of a lexeme that was found are in the `lookahead`. -/
theorem behind_le_lookahead {first : Char} {res : Option OperatorMatch}
    (h : (standard.longestMatch first Cursor.peekNth).run c = (.ok res, c')) :
    behind res ≤ c'.lookahead.length := by
  obtain ⟨-, -, hres⟩ := passes_descend h
  rcases hres with rfl | ⟨found, rfl, ws, -, hlength, hws⟩
  · exact Nat.zero_le _
  · have hle := hws.length_le
    rw [List.drop_zero] at hle
    show found.length - 1 ≤ _
    omega

theorem throughout_peekRow {P : Cursor σ → Prop} {n : Nat} (hn : n ≤ c.lookahead.length) (h : P c) :
    (Cursor.peekRow n).Throughout P c := by
  induction n with
  | zero => exact .pure _ h
  | succ n ih =>
    refine .bind (ih (Nat.le_of_succ_le hn)) fun rs c₁ hrun => ?_
    cases (Cursor.peekRow_of_le (Nat.le_of_succ_le hn)).symm.trans hrun
    have hlook := Cursor.peekNth_of_lt (c := c) hn
    refine .bind (.peekNth n h (by rwa [hlook])) fun r? c₁ hrun => ?_
    cases hlook.symm.trans hrun
    cases c.lookahead[n]? <;> exact .pure _ h

/-- The scan of an operator, `operator?`, passes the runes that were looked at, but for one. -/
theorem frugal_operator (start : Position) (first : Char) (c : Cursor σ) (h : c.Holding 1) :
    (operator? start first).Frugal c := by
  have hdepth : 0 + standard.roots.depth ≤ 3 := by rw [OperatorTrie.depth_standard]
  have hfull : standard.roots.full = true ∨ 0 = 0 ∧ standard.roots.fullBelow = true :=
    .inr ⟨rfl, OperatorTrie.fullBelow_standard⟩
  have hdescend : Scan.Throughout (Cursor.Holding 2)
      (standard.longestMatch first Cursor.peekNth) c :=
    throughout_descend hdepth none first (h.mono (Nat.le_succ 1))
  refine .bind_of_throughout hdescend fun res c₁ hrun => ?_
  have htwo := hdescend.last
  have hheld := holding_descend hfull (Nat.zero_le _) h hrun
  have hbehind := behind_le_lookahead hrun
  rw [hrun] at htwo
  cases res with
  | none => exact .pure _ hheld
  | some found =>
    -- The runes of the lexeme are read again without a look at the source, and then left out.
    refine .bind_of_throughout (throughout_peekRow hbehind htwo) fun rest c₂ hrow => ?_
    cases (Cursor.peekRow_of_le hbehind).symm.trans hrow
    exact .bind (.skip htwo hheld) fun _ _ _ => .pure _

end Scanner

/-- The scan of an `item` holds two runes at most, and leaves one at most. -/
theorem Scan.Frugal.item (c : Cursor σ) (h : c.Holding 1) : Scanner.item.Frugal c := by
  refine inherited.item (fun start first => inherited.token ?_
    (inherited.otherToken ?_ ?_ ?_ ?_)) c h
  · exact Scanner.frugal_operator start first
  · exact inherited.string (untilStopped _ _)
  · exact inherited.template (untilStopped _ _)
  · exact inherited.structured untilStopped fun opener _ => fail _
  · exact zeroLed start

end

/-! ### Requests -/

/-- The runes of a row `rs` of at most one encode to four bytes at most. -/
theorem Utf8.length_encode_le {rs : List Char} (h : rs.length ≤ 1) : (encode rs).length ≤ 4 := by
  match rs, h with
  | [], _ => exact Nat.zero_le 4
  | [r], _ =>
    rw [encode, List.flatMap_singleton, String.length_utf8EncodeChar]
    exact r.utf8Size_le_four

namespace Lexer

/-- What a lexer that has come from the cursor `c₀` and has met no error holds and has read. -/
structure Thrifty (capacity : Nat) (c₀ : Cursor Source) (l : Lexer Source) : Prop where
  one_le_line : 1 ≤ l.cursor.position.line
  holding : l.cursor.Holding 1
  fits : l.cursor.source.Fits capacity
  passes : ∃ rs, c₀.Passes rs l.cursor
  trace : ∃ os, Utf8.Trace c₀.source os l.cursor.source ∧ Utf8.Faultless os

namespace Thrifty

variable {capacity : Nat} {c₀ : Cursor Source} {l : Lexer Source}

theorem ofSource {s : Source} (h : s.Fits capacity) :
    (Lexer.ofSource s).Thrifty capacity (Lexer.ofSource s).cursor where
  one_le_line := Nat.le_refl 1
  holding := Nat.zero_le 1
  fits := h
  passes := ⟨[], .refl _⟩
  trace := ⟨[], .refl _, fun _ => List.not_mem_nil⟩

/-- A request that gives an `item` keeps what is held and read. -/
theorem nextItem (h : l.Thrifty capacity c₀) {item : Item} (hitem : l.nextItem.1 = .ok item) :
    l.nextItem.2.Thrifty capacity c₀ := by
  cases hopen : l.finished with
  | true =>
    rwa [nextItem_of_finished hopen]
  | false =>
    have hfits : l.nextItem.2.cursor.source.Fits capacity :=
      Lexer.invariant_step Source.fits_read h.fits
    match hrun : Scanner.item.run l.cursor with
    | (.error e, c) =>
      rw [nextItem_of_error hopen hrun] at hitem
      cases hitem
    | (.ok found, c) =>
      rw [nextItem_of_ok hopen hrun] at hfits ⊢
      obtain ⟨rs, hrs⟩ := h.passes
      obtain ⟨us, hus, -⟩ := Scanner.passes_item h.one_le_line hrun
      obtain ⟨os, htrace, hos⟩ := h.trace
      obtain ⟨os', htrace', hos'⟩ := Scan.Traces.item l.cursor
      rw [hrun] at htrace' hos'
      exact {
        one_le_line := hus.one_le_line h.one_le_line
        holding := (Scan.Frugal.item l.cursor h.holding).holding found c hrun
        fits := hfits
        passes := ⟨rs ++ us, hrs.trans hus⟩
        trace := ⟨os ++ os', htrace.trans htrace', hos.append (hos' rfl)⟩ }

theorem requests (h : l.Thrifty capacity c₀) {k : Nat} {items : List Item}
    (hitems : (l.requests k).1 = items.map .ok) : (l.requests k).2.Thrifty capacity c₀ := by
  induction k generalizing l items with
  | zero => exact h
  | succ k ih =>
    cases items with
    | nil => cases hitems
    | cons item items =>
      obtain ⟨hfirst, hothers⟩ := List.cons.inj hitems
      exact ih (h.nextItem hfirst) hothers

/-- The bytes that the reader has given are those of the runes `rs` passed and of the `lookahead`,
and those that wait in the buffer. -/
theorem pulled_eq (h : l.Thrifty capacity c₀) {rs : List Char} (hlookahead : c₀.lookahead = [])
    (hbuffered : c₀.source.buffered = []) (hpulled : c₀.source.pulled = 0)
    (hrs : c₀.Passes rs l.cursor) :
    l.cursor.source.pulled = (Utf8.encode rs).length + (Utf8.encode l.cursor.lookahead).length +
      l.cursor.source.buffered.length := by
  obtain ⟨os, htrace, hos⟩ := h.trace
  obtain ⟨ds, hds, hstream⟩ := hrs.stream
  rw [hlookahead, List.nil_append] at hstream
  have hgiven : os.flatMap Utf8.given = rs ++ l.cursor.lookahead :=
    (htrace.decodes.unique hds).trans hstream
  have hhands := Source.hands_trace htrace hos
  rw [hgiven, Utf8.encode, List.flatMap_append, List.length_append] at hhands
  unfold Source.Hands at hhands
  rw [hbuffered, hpulled, List.length_nil, Nat.add_zero, Nat.zero_add] at hhands
  exact hhands

end Thrifty

/-- Behind `k` items, whatever the reader gives and however many bytes the buffer takes, one rune at
most is in the `lookahead`, and two while the next item is scanned.  So the reader has given the
bytes of the runes passed, of that rune and those in the buffer, and through a buffer of `capacity`
one byte none but the first two. -/
theorem readAhead_le (events : List ReadEvent) (capacity k : Nat) (items : List Item)
    (hitems : ((ofSource (Source.ofEvents events capacity)).requests k).1 = items.map .ok) :
    let l₀ := ofSource (Source.ofEvents events capacity)
    let l := (l₀.requests k).2
    l.cursor.Holding 1 ∧ Scanner.item.Throughout (Cursor.Holding 2) l.cursor ∧
      ∃ passed, (∀ rs, l₀.cursor.Passes rs l.cursor ↔ rs = passed) ∧
        l.cursor.source.pulled ≤ (Utf8.encode passed).length + 4 + (max 1 capacity - 1) ∧
        (max 1 capacity = 1 → l.cursor.source.pulled =
          (Utf8.encode passed).length + (Utf8.encode l.cursor.lookahead).length) := by
  intro l₀ l
  have hl : l.Thrifty (max 1 capacity) l₀.cursor :=
    (Thrifty.ofSource (Source.fits_ofEvents events capacity)).requests hitems
  obtain ⟨passed, hpassed⟩ := hl.passes
  have hpulled := hl.pulled_eq rfl rfl rfl hpassed
  have hbuffered := hl.fits.buffered_lt
  have hlooked := Utf8.length_encode_le hl.holding
  have hitem := Scan.Frugal.item l.cursor hl.holding
  refine ⟨hl.holding, hitem.throughout, passed, fun rs => ⟨?_, ?_⟩, ?_, ?_⟩
  · intro hrs
    exact hrs.unique hpassed
  · rintro rfl
    exact hpassed
  · omega
  · intro hone
    omega

/-- The rune behind `<<` is decoded before the shift is given, of which its bytes come in two
reads. -/
theorem readAhead_le_shift :
    let l₀ := ofSource (Source.ofEvents [.chunk [0x61, 0x3C], .chunk [0x3C, 0xC3], .chunk [0xA9]] 3)
    let l := (l₀.requests 2).2
    (l₀.requests 2).1 = [⟨⟨1, 0⟩, .ident, "a"⟩, ⟨⟨1, 1⟩, .shiftLeft, "<<"⟩].map .ok ∧
      l.cursor.Holding 1 ∧ Scanner.item.Throughout (Cursor.Holding 2) l.cursor ∧
      ∃ passed, (∀ rs, l₀.cursor.Passes rs l.cursor ↔ rs = passed) ∧
        l.cursor.source.pulled ≤ (Utf8.encode passed).length + 4 + (max 1 3 - 1) ∧
        (max 1 3 = 1 → l.cursor.source.pulled =
          (Utf8.encode passed).length + (Utf8.encode l.cursor.lookahead).length) := by
  have hitems : ((ofSource (Source.ofEvents
      [.chunk [0x61, 0x3C], .chunk [0x3C, 0xC3], .chunk [0xA9]] 3)).requests 2).1 =
        [⟨⟨1, 0⟩, .ident, "a"⟩, ⟨⟨1, 1⟩, .shiftLeft, "<<"⟩].map .ok := by
    decide +kernel
  exact ⟨hitems, readAhead_le _ 3 2 _ hitems⟩

end Lexer

end LexStream
