import LexStream.Proofs.Computations
import LexStream.Proofs.Results

/-!
# Sources that answer alike

A scan knows of its source only what it answers when it is asked for a byte.  A likeness of sources
(`ByteSource.Likeness`) is a relation that no row of requests can tell apart, and every computation
of a scan carries it on: on cursors that differ in alike sources alone it gives the same value or
fails with the same error, and leaves such cursors behind (`Scan.Alike`).  What a scan is put
together from inherits this (`Scan.Alike.inherited`), and a lexer is put together from scans.

Two likenesses are used.  Sources with the same signals are alike, so neither the cuts between the
reads nor the size of the buffer show in the results.  And a source with an invariant that every
request keeps is alike to itself, so the invariant holds after every scan.

Main facts:

* `Scan.Alike.item`: the scan of an item cannot tell alike sources apart;
* `Lexer.Alike.findings`: lexers in front of alike sources find the same;
* `Lexer.results_eq_of_signals_eq`: readers with the same signals have the same results, through
  buffers of any size.
-/

namespace LexStream

variable {σ τ α β : Type} [ByteSource σ] [ByteSource τ]

/-- A relation between sources of the types `σ` and `τ` that no request tells apart: related sources
give the same signal and are related again afterwards. -/
structure ByteSource.Likeness (σ τ : Type) [ByteSource σ] [ByteSource τ] where
  Rel : σ → τ → Prop
  read {s s' : σ} {t : τ} {signal : Signal} (h : Rel s t) (hs : ByteSource.read s = (signal, s')) :
    ∃ t', ByteSource.read t = (signal, t') ∧ Rel s' t'

open ByteSource (Likeness)

variable {L : Likeness σ τ}

/-! ### Decoding -/

namespace Utf8

variable {s s' : σ} {t : τ}

theorem alike_readTails {n : Nat} {bytes : List UInt8} {outcome : Except Fault (List UInt8)}
    (h : L.Rel s t) (hs : readTails n bytes s = (outcome, s')) :
    ∃ t', readTails n bytes t = (outcome, t') ∧ L.Rel s' t' := by
  induction n generalizing bytes s t with
  | zero => cases hs; exact ⟨t, rfl, h⟩
  | succ n ih =>
    unfold readTails at hs ⊢
    split at hs
    next b s₁ hread =>
      obtain ⟨t₁, ht, h₁⟩ := L.read h hread
      rw [ht]
      exact ih h₁ hs
    next s₁ hread =>
      obtain ⟨t₁, ht, h₁⟩ := L.read h hread
      cases hs
      exact ⟨t₁, by rw [ht], h₁⟩
    next f s₁ hread =>
      obtain ⟨t₁, ht, h₁⟩ := L.read h hread
      cases hs
      exact ⟨t₁, by rw [ht], h₁⟩

/-- Sources related by `L` decode to the same `outcome`. -/
theorem alike_decode {outcome : Except Fault (Option Char)} (h : L.Rel s t)
    (hs : decode s = (outcome, s')) : ∃ t', decode t = (outcome, t') ∧ L.Rel s' t' := by
  unfold decode at hs ⊢
  split at hs
  next s₁ hread =>
    obtain ⟨t₁, ht, h₁⟩ := L.read h hread
    cases hs
    exact ⟨t₁, by rw [ht], h₁⟩
  next f s₁ hread =>
    obtain ⟨t₁, ht, h₁⟩ := L.read h hread
    cases hs
    exact ⟨t₁, by rw [ht], h₁⟩
  next lead s₁ hread =>
    obtain ⟨t₁, ht, h₁⟩ := L.read h hread
    rw [ht]
    dsimp only
    split at hs
    next hcount =>
      cases hs
      exact ⟨t₁, rfl, h₁⟩
    next n hcount =>
      split at hs
      next bytes s₂ htails =>
        obtain ⟨t₂, ht₂, h₂⟩ := alike_readTails h₁ htails
        cases hs
        exact ⟨t₂, by rw [ht₂], h₂⟩
      next e s₂ htails =>
        obtain ⟨t₂, ht₂, h₂⟩ := alike_readTails h₁ htails
        cases hs
        exact ⟨t₂, by rw [ht₂], h₂⟩

end Utf8

/-! ### Alike cursors and computations -/

/-- The cursors `c` and `d` differ in their sources alone, and these are related by `L`. -/
structure Cursor.Alike (L : Likeness σ τ) (c : Cursor σ) (d : Cursor τ) : Prop where
  source : L.Rel c.source d.source
  caret : c.caret = d.caret
  lookahead : c.lookahead = d.lookahead

/-- On alike cursors `x` and `y` give the same value or fail with the same error, and they leave
alike cursors behind. -/
def Scan.Alike (L : Likeness σ τ) (x : Scan σ α) (y : Scan τ α) : Prop :=
  ∀ {c c' : Cursor σ} {d : Cursor τ} {outcome : Except LexError α}, c.Alike L d →
    x.run c = (outcome, c') → ∃ d', y.run d = (outcome, d') ∧ c'.Alike L d'

namespace Scan.Alike

theorem pure (a : α) : Alike L (Pure.pure a : Scan σ α) (Pure.pure a : Scan τ α) := by
  intro c c' d outcome h hc
  cases hc
  exact ⟨d, rfl, h⟩

theorem fail (e : LexError) : Alike L (Scan.fail e : Scan σ α) (Scan.fail e : Scan τ α) := by
  intro c c' d outcome h hc
  cases hc
  exact ⟨d, rfl, h⟩

theorem position : Alike L (Scan.position : Scan σ Position) (Scan.position : Scan τ Position) := by
  intro c c' d outcome h hc
  cases hc
  exact ⟨d, by rw [run_position, h.caret], h⟩

theorem backup (r : Char) :
    Alike L (Scan.move (·.backup r) : Scan σ Unit) (Scan.move (·.backup r) : Scan τ Unit) := by
  intro c c' d outcome h hc
  cases hc
  exact ⟨d.backup r, rfl, h.source, congrArg (·.retreat r) h.caret, congrArg (r :: ·) h.lookahead⟩

theorem skip (n : Nat) :
    Alike L (Scan.move (·.skip n) : Scan σ Unit) (Scan.move (·.skip n) : Scan τ Unit) := by
  intro c c' d outcome h hc
  cases hc
  refine ⟨d.skip n, rfl, h.source, ?_, congrArg (List.drop n) h.lookahead⟩
  show c.caret.advanceAll (c.lookahead.take n) = d.caret.advanceAll (d.lookahead.take n)
  rw [h.caret, h.lookahead]

/-- Computations `x >>= f` and `y >>= g` are alike when `x` and `y` are, and `f a` and `g a` are for
every value `a` that these give. -/
theorem bind {x : Scan σ α} {y : Scan τ α} {f : α → Scan σ β} {g : α → Scan τ β}
    (hx : Alike L x y) (hf : ∀ a, Alike L (f a) (g a)) : Alike L (x >>= f) (y >>= g) := by
  intro c c' d outcome h hc
  match hxc : x.run c with
  | (.ok a, c₁) =>
    obtain ⟨d₁, hd, h₁⟩ := hx h hxc
    rw [run_bind_ok hxc] at hc
    rw [run_bind_ok hd]
    exact hf a h₁ hc
  | (.error e, c₁) =>
    obtain ⟨d₁, hd, h₁⟩ := hx h hxc
    rw [run_bind_error hxc] at hc
    cases hc
    exact ⟨d₁, run_bind_error hd, h₁⟩

/-! ### Cursors -/

theorem decode :
    Alike L (Cursor.decode : Scan σ (Option Char)) (Cursor.decode : Scan τ (Option Char)) := by
  intro c c' d outcome h hc
  unfold Scan.run Cursor.decode at hc ⊢
  split at hc
  next r? s hs =>
    obtain ⟨t, ht, hst⟩ := Utf8.alike_decode h.source hs
    cases hc
    rw [ht]
    exact ⟨{ d with source := t }, rfl, hst, h.caret, h.lookahead⟩
  next fault s hs =>
    obtain ⟨t, ht, hst⟩ := Utf8.alike_decode h.source hs
    cases hc
    rw [ht]
    refine ⟨{ d with source := t }, ?_, hst, h.caret, h.lookahead⟩
    rw [Cursor.position, Cursor.position, h.caret]

theorem nextRune :
    Alike L (Cursor.nextRune : Scan σ (Option Char)) (Cursor.nextRune : Scan τ (Option Char)) := by
  intro c c' d outcome h hc
  unfold Scan.run Cursor.nextRune at hc ⊢
  rw [h.lookahead] at hc
  split at hc
  next r rs hl =>
    cases hc
    exact ⟨_, rfl, h.source, congrArg (·.advance r) h.caret, rfl⟩
  next hl =>
    split at hc
    next r c₁ hdecode =>
      obtain ⟨d₁, hd, h₁⟩ := decode h hdecode
      cases hc
      rw [hd]
      exact ⟨_, rfl, h₁.source, congrArg (·.advance r) h₁.caret, h₁.lookahead⟩
    next c₁ hdecode =>
      obtain ⟨d₁, hd, h₁⟩ := decode h hdecode
      cases hc
      exact ⟨d₁, by rw [hd], h₁⟩
    next e c₁ hdecode =>
      obtain ⟨d₁, hd, h₁⟩ := decode h hdecode
      cases hc
      exact ⟨d₁, by rw [hd], h₁⟩

theorem lookFurther (k : Nat) :
    Alike L (Cursor.lookFurther k : Scan σ Unit) (Cursor.lookFurther k : Scan τ Unit) := by
  induction k with
  | zero => exact pure ()
  | succ k ih =>
    intro c c' d outcome h hc
    unfold Scan.run Cursor.lookFurther at hc ⊢
    split at hc
    next r c₁ hdecode =>
      obtain ⟨d₁, hd, h₁⟩ := decode h hdecode
      have hlook : Cursor.Alike L { c₁ with lookahead := c₁.lookahead ++ [r] }
          { d₁ with lookahead := d₁.lookahead ++ [r] } :=
        ⟨h₁.source, h₁.caret, congrArg (· ++ [r]) h₁.lookahead⟩
      rw [hd]
      exact ih hlook hc
    next c₁ hdecode =>
      obtain ⟨d₁, hd, h₁⟩ := decode h hdecode
      cases hc
      exact ⟨d₁, by rw [hd], h₁⟩
    next e c₁ hdecode =>
      obtain ⟨d₁, hd, h₁⟩ := decode h hdecode
      cases hc
      exact ⟨d₁, by rw [hd], h₁⟩

theorem peekNth (n : Nat) :
    Alike L (Cursor.peekNth n : Scan σ (Option Char))
      (Cursor.peekNth n : Scan τ (Option Char)) := by
  intro c c' d outcome h hc
  unfold Scan.run Cursor.peekNth at hc ⊢
  rw [h.lookahead] at hc
  split at hc
  next c₁ hlook =>
    obtain ⟨d₁, hd, h₁⟩ := lookFurther _ h hlook
    cases hc
    exact ⟨d₁, by rw [hd, h₁.lookahead], h₁⟩
  next e c₁ hlook =>
    obtain ⟨d₁, hd, h₁⟩ := lookFurther _ h hlook
    cases hc
    exact ⟨d₁, by rw [hd], h₁⟩

/-! ### Runs -/

/-- A run goes over alike cursors in the same steps, whatever its `step`. -/
theorem goOn {υ : Type} (step : υ → Char → Verdict υ) (state : υ) (taken : String) :
    Alike L (Run.goOn step state taken : Scan σ (Run υ)) (Run.goOn step state taken) := by
  intro c c' d outcome h hc
  unfold Scan.run at hc ⊢
  fun_induction Run.goOn step state taken c generalizing d with
  | case1 state taken c r c₁ hnext next hr ih =>
    obtain ⟨d₁, hd, h₁⟩ := nextRune h hnext
    have hgo : (Run.goOn step state taken).run d = (Run.goOn step next (taken.push r)).run d₁ := by
      rw [Run.goOn_of_some hd, hr]
    obtain ⟨d', hd', h'⟩ := ih h₁ hc
    exact ⟨d', hgo.trans hd', h'⟩
  | case2 state taken c r c₁ hnext hr =>
    obtain ⟨d₁, hd, h₁⟩ := nextRune h hnext
    cases hc
    refine ⟨d₁, ?_, h₁⟩
    exact (Run.goOn_of_some hd).trans (by rw [hr])
  | case3 state taken c r c₁ hnext hr =>
    obtain ⟨d₁, hd, h₁⟩ := nextRune h hnext
    cases hc
    obtain ⟨d', hd', h'⟩ := backup (L := L) r h₁ rfl
    cases hd'
    refine ⟨d₁.backup r, ?_, h'⟩
    exact (Run.goOn_of_some hd).trans (by rw [hr])
  | case4 state taken c c₁ hnext =>
    obtain ⟨d₁, hd, h₁⟩ := nextRune h hnext
    cases hc
    exact ⟨d₁, Run.goOn_of_none hd, h₁⟩
  | case5 state taken c e c₁ hnext =>
    obtain ⟨d₁, hd, h₁⟩ := nextRune h hnext
    cases hc
    exact ⟨d₁, Run.goOn_of_error hd, h₁⟩

theorem scan {υ : Type} (step : υ → Char → Verdict υ) (init : υ) :
    Alike L (Run.scan step init : Scan σ (Run υ)) (Run.scan step init) :=
  goOn step init ""

/-- So whatever a scan is put together from carries a likeness `L` on. -/
theorem inherited : Inherited (fun (x : Scan σ _) (y : Scan τ _) => Alike L x y) where
  pure := pure
  bind := bind
  position := position
  peek := peekNth 0
  scan := scan

/-! ### Tokens -/

theorem zeroLed (start : Position) :
    Alike L (Scanner.zeroLed start : Scan σ Finding) (Scanner.zeroLed start) := by
  refine bind nextRune fun r? => ?_
  cases r? with
  | none => exact pure _
  | some r =>
    dsimp only
    split
    · exact inherited.wholeIn _ _
    · split
      · exact inherited.wholeIn _ _
      · split
        · exact inherited.wholeIn _ _
        · exact bind (backup r) fun _ => pure _

theorem otherToken (start : Position) (first : Char) :
    Alike L (Scanner.otherToken start first : Scan σ Finding) (Scanner.otherToken start first) :=
  inherited.otherToken (inherited.string (inherited.untilStopped _ _ (fail _)))
    (inherited.template (inherited.untilStopped _ _ (fail _)))
    (inherited.structured (fun _ _ => inherited.untilStopped _ _ (fail _)) fun _ => fail _)
    (zeroLed start)

/-- The scan of an `item` cannot tell alike sources apart. -/
theorem item : Alike L (Scanner.item : Scan σ Finding) (Scanner.item : Scan τ Finding) :=
  inherited.item fun start first =>
    inherited.token (inherited.operator? peekNth skip) (otherToken start first)

end Scan.Alike

/-! ### Lexers -/

namespace Lexer

/-- The lexers `l` and `m` differ in their sources alone, and these are related by `L`. -/
structure Alike (L : Likeness σ τ) (l : Lexer σ) (m : Lexer τ) : Prop where
  cursor : l.cursor.Alike L m.cursor
  lastPos : l.lastPos = m.lastPos
  produced : l.produced = m.produced
  finished : l.finished = m.finished

namespace Alike

variable {l : Lexer σ} {m : Lexer τ}

theorem ofSource {s : σ} {t : τ} (h : L.Rel s t) :
    Alike L (Lexer.ofSource s) (Lexer.ofSource t) :=
  ⟨⟨h, rfl, rfl⟩, rfl, rfl, rfl⟩

/-- Alike lexers find the same by `step` and stay alike. -/
theorem step (h : Alike L l m) : l.step.1 = m.step.1 ∧ Alike L l.step.2 m.step.2 := by
  unfold Lexer.step
  rw [← h.finished]
  split
  · refine ⟨?_, h⟩
    rw [Lexer.position, Lexer.position, Cursor.position, Cursor.position, h.cursor.caret]
  · match hc : Scanner.item.run l.cursor with
    | (.ok found, c) =>
      obtain ⟨d, hd, hcd⟩ := Scan.Alike.item h.cursor hc
      rw [hd]
      exact ⟨rfl, hcd, rfl, by rw [h.produced], rfl⟩
    | (.error e, c) =>
      obtain ⟨d, hd, hcd⟩ := Scan.Alike.item h.cursor hc
      rw [hd]
      exact ⟨rfl, hcd, h.lastPos, h.produced, rfl⟩

/-- Alike lexers have the same `findings`, up to the end. -/
theorem findings (h : Alike L l m) : l.findings = m.findings := by
  fun_induction Lexer.findings l generalizing m with
  | case1 l hfinished =>
    rw [findings_of_finished (h.finished.symm.trans hfinished)]
  | case2 l hopen found l' hstep ih =>
    obtain ⟨hfound, hnext⟩ := h.step
    rw [hstep] at hfound hnext
    rw [findings_of_open (h.finished.symm.trans (eq_false_of_ne_true hopen)), ← hfound, ih hnext]

end Alike

end Lexer

/-! ### Invariants of sources -/

/-- A source with an invariant `P` that every request keeps is alike to itself. -/
def ByteSource.Likeness.ofInvariant (P : σ → Prop)
    (keeps : ∀ {s s' signal}, P s → ByteSource.read s = (signal, s') → P s') : Likeness σ σ where
  Rel s t := s = t ∧ P s
  read h hs := by
    obtain ⟨rfl, hP⟩ := h
    exact ⟨_, hs, rfl, keeps hP hs⟩

/-- What every request to a source keeps, an invariant `P`, a `step` of a lexer keeps. -/
theorem Lexer.invariant_step {P : σ → Prop}
    (keeps : ∀ {s s' signal}, P s → ByteSource.read s = (signal, s') → P s') {l : Lexer σ}
    (h : P l.cursor.source) : P l.step.2.cursor.source := by
  have halike : Alike (.ofInvariant P keeps) l l := ⟨⟨⟨rfl, h⟩, rfl, rfl⟩, rfl, rfl, rfl⟩
  exact halike.step.2.cursor.source.2

/-! ### How the bytes arrive -/

namespace Source

/-- Sources with the same `signals` to come are alike. -/
def sameSignals : Likeness Source Source where
  Rel s t := s.signals = t.signals
  read {s s' t signal} h hs := by
    have hreads := s.read_signals
    rw [h, t.read_signals, show s.read = (signal, s') from hs] at hreads
    obtain ⟨hsignal, hrest⟩ := Prod.mk.inj hreads
    exact ⟨t.read.2, Prod.ext hsignal rfl, hrest.symm⟩

end Source

/-- Readers with `events` that give the same bytes, ends and failures have the same results, however
the bytes are cut into reads, wherever a read is interrupted, and however large the buffers are. -/
theorem Lexer.results_eq_of_signals_eq {events events' : List ReadEvent}
    (h : events.flatMap ReadEvent.signals = events'.flatMap ReadEvent.signals)
    (capacity capacity' : Nat) :
    (ofSource (Source.ofEvents events capacity)).results =
      (ofSource (Source.ofEvents events' capacity')).results := by
  -- Nothing is in the buffers yet, so the signals to come are those of the events.
  have halike :
      Source.sameSignals.Rel (.ofEvents events capacity) (.ofEvents events' capacity') := h
  rw [results, results, (Alike.ofSource halike).findings]

/-- A rune, an operator and a numeral are cut by reads, an interruption and a small buffer; behind
an early end the reader goes on and fails.  The results are those of the same signals in one
piece. -/
theorem Lexer.results_eq_of_signals_eq_cut :
    [ReadEvent.chunk [0xC3], .failure ⟨.interrupted, "signal"⟩, .chunk [0xA9, 0x3C], .chunk [0x3C],
        .chunk [0x31, 0x2E], .chunk [0x35], .chunk [], .failure ⟨.brokenPipe, "gone"⟩].flatMap
          ReadEvent.signals =
      [ReadEvent.chunk [0xC3, 0xA9, 0x3C, 0x3C, 0x31, 0x2E, 0x35], .chunk [],
        .failure ⟨.brokenPipe, "gone"⟩].flatMap ReadEvent.signals ∧
      (ofSource (Source.ofEvents
        [.chunk [0xC3], .failure ⟨.interrupted, "signal"⟩, .chunk [0xA9, 0x3C], .chunk [0x3C],
          .chunk [0x31, 0x2E], .chunk [0x35], .chunk [],
          .failure ⟨.brokenPipe, "gone"⟩] 0)).results =
      (ofSource (Source.ofEvents
        [.chunk [0xC3, 0xA9, 0x3C, 0x3C, 0x31, 0x2E, 0x35], .chunk [],
          .failure ⟨.brokenPipe, "gone"⟩] 64)).results :=
  ⟨by decide, results_eq_of_signals_eq (by decide) 0 64⟩

end LexStream
