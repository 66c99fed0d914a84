import LexStream.Proofs.ComingRunes
import LexStream.Proofs.Computations

/-!
# Texts that break off

What a computation does in front of a text that is followed by something that does not decode, next
to what it does in front of the same text with the end behind it.  As long as it does not ask for
more than the text holds, there is no difference.  Where it does, the one sees the end and the other
fails.

`Cursor.Before tail c p rs` is a place in such a text, with the signals `tail` behind the runes
`rs`.  `Scan.Robust tail fault x` lists what can happen: `x` gives the same in both texts; or it
gives a value for all that is left of the text, and fails where the text breaks off; or it finds a
wrong delimiter in both; or it misses the end of a literal in the one, and fails in the other.
These cases are closed under what follows: behind the whole text nothing is left that a delimiter
could be wrong in.

Main facts:

* `Scan.Robust.bind`: one such computation may follow another;
* `Scan.Robust.operator?`: of an operator the first rune decides, or the first two are one already,
  so a look beyond the text costs nothing but the operator itself;
* `Scan.Robust.item`: the scan of an item is robust.
-/

namespace LexStream

open OperatorTrie (Branches standard)

/-- The signals of the `tail` start with something that does not decode. -/
def Utf8.StartsFaulty (tail : List Signal) (fault : Utf8.Fault) : Prop :=
  ∃ rest, Utf8.decode tail = (.error fault, rest)

/-- The cursor stands at `p`, the runes `rs` come next, and the signals `tail` behind them. -/
structure Cursor.Before (tail : List Signal) (c : Cursor Source) (p : Position) (rs : List Char) :
    Prop where
  pending : ∃ pending, c.source.signals = (Utf8.encode pending).map .byte ++ tail ∧
    rs = c.lookahead ++ pending
  position : c.position = p
  one_le_line : 1 ≤ p.line

namespace Cursor

variable {tail : List Signal} {fault : Utf8.Fault} {c c' : Cursor Source} {p : Position} {r : Char}
  {us rs rest : List Char}

/-! ### Places in a text -/

/-- A text that ends is one with nothing but the signal `ended` behind it. -/
theorem faces_iff_before :
    c.Faces p rs ↔ ∃ ends, c.Before (List.replicate ends .ended) p rs := by
  constructor
  · rintro ⟨⟨pending, ⟨ends, hsignals⟩, hrs⟩, hpos, hline⟩
    exact ⟨ends, ⟨pending, hsignals, hrs⟩, hpos, hline⟩
  · rintro ⟨ends, ⟨pending, hsignals, hrs⟩, hpos, hline⟩
    exact ⟨⟨pending, ⟨ends, hsignals⟩, hrs⟩, hpos, hline⟩

namespace Before

/-- Where a rune `r` comes next that was not looked at, it is decoded, and may be in the `lookahead`
from now on. -/
theorem exists_decode (h : c.Before tail p (c.lookahead ++ r :: rs)) :
    ∃ c', decode.run c = (.ok (some r), c') ∧ c'.lookahead = c.lookahead ∧
      c'.source.signals = (Utf8.encode rs).map .byte ++ tail ∧
      Before tail { c' with lookahead := c'.lookahead ++ [r] } p (c.lookahead ++ r :: rs) := by
  obtain ⟨pending, hsignals, hrs⟩ := h.pending
  obtain rfl := List.append_cancel_left hrs
  have hdecode := c.source.decode_signals
  rw [hsignals, Utf8.decode_encode_cons] at hdecode
  obtain ⟨hrune, hrest⟩ := Prod.mk.inj hdecode
  refine ⟨{ c with source := (Utf8.decode c.source).2 }, ?_, rfl, hrest.symm,
    ⟨rs, hrest.symm, by simp⟩, h.position, h.one_le_line⟩
  unfold Scan.run decode
  rw [show Utf8.decode c.source = (.ok (some r), (Utf8.decode c.source).2) from
    Prod.ext hrune.symm rfl]

/-- Where all runes are in the `lookahead`, the next decoding fails with the `fault`. -/
theorem decode_error (htail : Utf8.StartsFaulty tail fault) (h : c.Before tail p c.lookahead) :
    ∃ c', decode.run c = (.error (fault.at p), c') := by
  obtain ⟨pending, hsignals, hrs⟩ := h.pending
  obtain rfl : pending = [] := List.self_eq_append_right.1 hrs
  obtain ⟨rest, hfault⟩ := htail
  have hdecode := c.source.decode_signals
  rw [hsignals, show (Utf8.encode []).map Signal.byte ++ tail = tail from rfl, hfault] at hdecode
  have herror : Utf8.decode c.source = (.error fault, (Utf8.decode c.source).2) :=
    Prod.ext (congrArg Prod.fst hdecode).symm rfl
  refine ⟨{ c with source := (Utf8.decode c.source).2 }, ?_⟩
  unfold Scan.run decode
  rw [herror, h.position]

/-- The next rune `r` can be passed, and put back again. -/
theorem exists_nextRune (h : c.Before tail p (r :: rs)) :
    ∃ c', nextRune.run c = (.ok (some r), c') ∧ c'.Before tail (p.advance r) rs ∧
      (c'.backup r).Before tail p (r :: rs) := by
  obtain ⟨pending, hsignals, hrs⟩ := h.pending
  have hline : 1 ≤ c.position.line := h.position ▸ h.one_le_line
  have hadvance : 1 ≤ (p.advance r).line :=
    h.one_le_line.trans (p.line_le_line_advanceAll [r])
  -- The rune was looked at, or it is decoded now; in both cases the runes behind it are left.
  obtain ⟨c', hnext, hleft⟩ : ∃ c', nextRune.run c = (.ok (some r), c') ∧
      ∃ pending, c'.source.signals = (Utf8.encode pending).map .byte ++ tail ∧
        rs = c'.lookahead ++ pending := by
    cases hla : c.lookahead with
    | cons r' la =>
      rw [hla] at hrs
      obtain ⟨rfl, rfl⟩ := List.cons.inj hrs
      refine ⟨{ c with caret := c.caret.advance r, lookahead := la }, ?_, pending, hsignals, rfl⟩
      unfold Scan.run nextRune
      rw [hla]
    | nil =>
      have hnil : c.Before tail p (c.lookahead ++ r :: rs) := by rwa [hla]
      obtain ⟨c₁, hdecode, hla₁, hsignals₁, -⟩ := hnil.exists_decode
      refine ⟨{ c₁ with caret := c₁.caret.advance r }, ?_, rs, hsignals₁, by rw [hla₁, hla]; rfl⟩
      unfold Scan.run nextRune
      rw [hla]
      dsimp only
      rw [hdecode]
  obtain ⟨pending', hsignals', rfl⟩ := hleft
  have hpass := (passes_nextRune hnext).1
  have hback := passes_backup hline hnext
  refine ⟨c', hnext, ⟨⟨pending', hsignals', rfl⟩, ?_, hadvance⟩,
    ⟨⟨pending', hsignals', rfl⟩, ?_, h.one_le_line⟩⟩
  · rw [hpass.position, h.position]
    rfl
  · rw [hback.position, h.position]
    rfl

theorem nextRune_error (htail : Utf8.StartsFaulty tail fault) (h : c.Before tail p []) :
    ∃ c', nextRune.run c = (.error (fault.at p), c') := by
  obtain ⟨pending, -, hrs⟩ := h.pending
  have hla : c.lookahead = [] := (List.append_eq_nil_iff.1 hrs.symm).1
  have hnil : c.Before tail p c.lookahead := by rwa [hla]
  obtain ⟨c', hdecode⟩ := hnil.decode_error htail
  refine ⟨c', ?_⟩
  unfold Scan.run nextRune
  rw [hla]
  dsimp only
  rw [hdecode]

/-- To `lookFurther k` shows `k` more runes as long as there are enough of them. -/
theorem exists_lookFurther {k : Nat} (h : c.Before tail p rs)
    (hk : c.lookahead.length + k ≤ rs.length) :
    ∃ c', (lookFurther k).run c = (.ok (), c') ∧ c'.Before tail p rs ∧
      c'.lookahead.length = c.lookahead.length + k := by
  induction k generalizing c with
  | zero => exact ⟨c, rfl, h, rfl⟩
  | succ k ih =>
    obtain ⟨pending, -, rfl⟩ := h.pending
    cases pending with
    | nil =>
      rw [List.append_nil] at hk
      omega
    | cons r pending =>
      obtain ⟨c₁, hdecode, hla, -, h₁⟩ := h.exists_decode
      have hlength : (c₁.lookahead ++ [r]).length = c.lookahead.length + 1 := by
        rw [List.length_append, List.length_singleton, hla]
      obtain ⟨c', hlook, h', hlength'⟩ := ih h₁ (by dsimp only; omega)
      refine ⟨c', ?_, h', by dsimp only at hlength'; omega⟩
      unfold Scan.run lookFurther
      rw [hdecode]
      exact hlook

theorem lookFurther_error {k : Nat} (htail : Utf8.StartsFaulty tail fault)
    (h : c.Before tail p rs) (hk : rs.length < c.lookahead.length + k) :
    ∃ c', (lookFurther k).run c = (.error (fault.at p), c') := by
  induction k generalizing c with
  | zero =>
    obtain ⟨pending, -, rfl⟩ := h.pending
    rw [List.length_append] at hk
    omega
  | succ k ih =>
    obtain ⟨pending, -, rfl⟩ := h.pending
    cases pending with
    | nil =>
      rw [List.append_nil] at h
      obtain ⟨c', hdecode⟩ := h.decode_error htail
      refine ⟨c', ?_⟩
      unfold Scan.run lookFurther
      rw [hdecode]
    | cons r pending =>
      obtain ⟨c₁, hdecode, hla, -, h₁⟩ := h.exists_decode
      have hlength : (c₁.lookahead ++ [r]).length = c.lookahead.length + 1 := by
        rw [List.length_append, List.length_singleton, hla]
      obtain ⟨c', hlook⟩ := ih h₁ (by dsimp only; omega)
      refine ⟨c', ?_⟩
      unfold Scan.run lookFurther
      rw [hdecode]
      exact hlook

/-- A look at a rune of the text shows it as `rs[n]?`. -/
theorem exists_peekNth {n : Nat} (h : c.Before tail p rs) (hn : n < rs.length) :
    ∃ c', (peekNth n).run c = (.ok rs[n]?, c') ∧ c'.Before tail p rs := by
  by_cases hseen : n < c.lookahead.length
  · obtain ⟨pending, -, rfl⟩ := h.pending
    refine ⟨c, ?_, h⟩
    rw [peekNth_of_lt hseen, List.getElem?_append_left hseen]
  · have hk : c.lookahead.length + (n + 1 - c.lookahead.length) ≤ rs.length := by omega
    obtain ⟨c', hlook, h', hlength⟩ := h.exists_lookFurther hk
    obtain ⟨pending, -, rfl⟩ := h'.pending
    have hseen' : n < c'.lookahead.length := by omega
    refine ⟨c', ?_, h'⟩
    unfold Scan.run peekNth
    rw [hlook, List.getElem?_append_left hseen']

/-- A look beyond the text fails with the `fault`. -/
theorem peekNth_error {n : Nat} (htail : Utf8.StartsFaulty tail fault) (h : c.Before tail p rs)
    (hn : rs.length ≤ n) : ∃ c', (peekNth n).run c = (.error (fault.at p), c') := by
  have hla : c.lookahead.length ≤ rs.length := by
    obtain ⟨pending, -, rfl⟩ := h.pending
    rw [List.length_append]
    omega
  have hk : rs.length < c.lookahead.length + (n + 1 - c.lookahead.length) := by omega
  obtain ⟨c', hlook⟩ := h.lookFurther_error htail hk
  refine ⟨c', ?_⟩
  unfold Scan.run peekNth
  rw [hlook]

/-- The runes `us` that were looked at can be skipped. -/
theorem skip (h : c.Before tail p (us ++ rest)) (hus : us.length ≤ c.lookahead.length) :
    (c.skip us.length).Before tail (p.advanceAll us) rest := by
  obtain ⟨pending, hsignals, hrs⟩ := h.pending
  have htake : c.lookahead.take us.length = us := by
    have hfirst := congrArg (List.take us.length) hrs
    rwa [List.take_left, List.take_append_of_le_length hus, eq_comm] at hfirst
  have hdrop : rest = c.lookahead.drop us.length ++ pending := by
    have hbehind := congrArg (List.drop us.length) hrs
    rwa [List.drop_left, List.drop_append_of_le_length hus] at hbehind
  have hpass := (c.passes_skip us.length).position
  rw [htake, h.position] at hpass
  exact ⟨⟨pending, hsignals, hdrop⟩, hpass, h.one_le_line.trans (p.line_le_line_advanceAll us)⟩

end Before

end Cursor

/-! ### What happens whatever stands behind the text -/

namespace Scan

variable {α β : Type} {tail : List Signal} {fault : Utf8.Fault} {x : Scan Source α}
  {f : α → Scan Source β} {p : Position} {us vs rest text : List Char} {a : α} {b : β}
  {e : LexError}

/-- At `p`, in front of the runes `us` and then `rest`, the computation gives `a` and passes `us`,
whatever stands behind these runes. -/
def GivesAnyhow (x : Scan Source α) (p : Position) (us rest : List Char) (a : α) : Prop :=
  ∀ tail c, Cursor.Before tail c p (us ++ rest) →
    ∃ c', x.run c = (.ok a, c') ∧ c'.Before tail (p.advanceAll us) rest

/-- At `p`, in front of the runes `text`, the computation fails with the error `e`, whatever stands
behind them. -/
def RefusesAnyhow (x : Scan Source α) (p : Position) (text : List Char) (e : LexError) : Prop :=
  ∀ tail c, Cursor.Before tail c p text → ∃ c', x.run c = (.error e, c')

/-- At `p`, in front of the runes `text` and then `tail`, the computation fails with the fault. -/
def BreaksOff (tail : List Signal) (fault : Utf8.Fault) (x : Scan Source α) (p : Position)
    (text : List Char) : Prop :=
  ∀ c, Cursor.Before tail c p text → ∃ pos c', x.run c = (.error (fault.at pos), c')

namespace GivesAnyhow

/-- In particular `x` gives `a` when the end stands there. -/
theorem gives (h : x.GivesAnyhow p us rest a) : x.Gives p us rest a := by
  intro c hc
  obtain ⟨ends, hbefore⟩ := Cursor.faces_iff_before.1 hc
  obtain ⟨c', hrun, hbefore'⟩ := h _ c hbefore
  exact ⟨c', hrun, Cursor.faces_iff_before.2 ⟨ends, hbefore'⟩⟩

theorem pure (a : α) (p : Position) (text : List Char) :
    (Pure.pure a : Scan Source α).GivesAnyhow p [] text a :=
  fun _ c hc => ⟨c, rfl, hc⟩

theorem position (p : Position) (text : List Char) : Scan.position.GivesAnyhow p [] text p := by
  intro tail c hc
  refine ⟨c, ?_, hc⟩
  rw [run_position]
  exact congrArg (fun q => (Except.ok q, c)) hc.position

theorem bind (hx : x.GivesAnyhow p us (vs ++ rest) a)
    (hf : (f a).GivesAnyhow (p.advanceAll us) vs rest b) :
    (x >>= f).GivesAnyhow p (us ++ vs) rest b := by
  intro tail c hc
  rw [List.append_assoc] at hc
  obtain ⟨c₁, hrun, hc₁⟩ := hx tail c hc
  obtain ⟨c', hrun', hc'⟩ := hf tail c₁ hc₁
  rw [← Position.advanceAll_append] at hc'
  exact ⟨c', (run_bind_ok hrun).trans hrun', hc'⟩

/-- What comes first, `x`, passes nothing. -/
theorem stay_bind (hx : x.GivesAnyhow p [] (us ++ rest) a) (hf : (f a).GivesAnyhow p us rest b) :
    (x >>= f).GivesAnyhow p us rest b :=
  hx.bind hf

/-- What comes last, `f a`, passes nothing. -/
theorem bind_stay (hx : x.GivesAnyhow p us rest a)
    (hf : (f a).GivesAnyhow (p.advanceAll us) [] rest b) : (x >>= f).GivesAnyhow p us rest b := by
  have hfirst : x.GivesAnyhow p us ([] ++ rest) a := hx
  have h := hfirst.bind hf
  rwa [List.append_nil] at h

theorem refuses_bind (hx : x.GivesAnyhow p us rest a)
    (hf : (f a).RefusesAnyhow (p.advanceAll us) rest e) :
    (x >>= f).RefusesAnyhow p (us ++ rest) e := by
  intro tail c hc
  obtain ⟨c₁, hrun, hc₁⟩ := hx tail c hc
  obtain ⟨c', hrun'⟩ := hf tail c₁ hc₁
  exact ⟨c', (run_bind_ok hrun).trans hrun'⟩

theorem breaksOff_bind (hx : x.GivesAnyhow p us rest a)
    (hf : (f a).BreaksOff tail fault (p.advanceAll us) rest) :
    (x >>= f).BreaksOff tail fault p (us ++ rest) := by
  intro c hc
  obtain ⟨c₁, hrun, hc₁⟩ := hx tail c hc
  obtain ⟨pos, c', hrun'⟩ := hf c₁ hc₁
  exact ⟨pos, c', (run_bind_ok hrun).trans hrun'⟩

end GivesAnyhow

theorem RefusesAnyhow.refuses (h : x.RefusesAnyhow p text e) : x.Refuses p text e := by
  intro c hc
  obtain ⟨ends, hbefore⟩ := Cursor.faces_iff_before.1 hc
  exact h _ c hbefore

theorem RefusesAnyhow.bind (hx : x.RefusesAnyhow p text e) : (x >>= f).RefusesAnyhow p text e := by
  intro tail c hc
  obtain ⟨c', hrun⟩ := hx tail c hc
  exact ⟨c', run_bind_error hrun⟩

theorem BreaksOff.bind (hx : x.BreaksOff tail fault p text) :
    (x >>= f).BreaksOff tail fault p text := by
  intro c hc
  obtain ⟨pos, c', hrun⟩ := hx c hc
  exact ⟨pos, c', run_bind_error hrun⟩

/-! ### What is lost where a text breaks off -/

/-- What `x` does at `p` in front of the runes `text`, with the end behind them, and with the
signals `tail`, which start with `fault`. -/
inductive Curtailed (tail : List Signal) (fault : Utf8.Fault) (x : Scan Source α) (p : Position) :
    List Char → Prop
  /-- It does not matter what stands behind `us`. -/
  | anyhow (us rest : List Char) (a : α) (h : x.GivesAnyhow p us rest a) :
      Curtailed tail fault x p (us ++ rest)
  /-- The value `a` for the whole text is lost. -/
  | late (text : List Char) (a : α) (hx : x.Gives p text [] a)
      (hbreaks : x.BreaksOff tail fault p text) : Curtailed tail fault x p text
  /-- A delimiter is missing, for which the rune `r` of the text stands. -/
  | refuses (text : List Char) (start : Position) (r : Char) (hne : text ≠ [])
      (h : x.RefusesAnyhow p text (.missingDelimiter start r)) : Curtailed tail fault x p text
  /-- Within a literal of this `kind` the fault comes instead of the end. -/
  | unfinished (text : List Char) (kind : LiteralKind) (start : Position)
      (hx : x.Refuses p text (.unterminated kind start))
      (hbreaks : x.BreaksOff tail fault p text) : Curtailed tail fault x p text

/-- What is lost of any text is what `Scan.Curtailed` lists. -/
def Robust (tail : List Signal) (fault : Utf8.Fault) (x : Scan Source α) : Prop :=
  ∀ p text, 1 ≤ p.line → Curtailed tail fault x p text

/-- Behind the runes `us` that are passed in any case, the `rest` of the text may be curtailed. -/
theorem GivesAnyhow.curtailed_bind (hx : x.GivesAnyhow p us rest a)
    (hf : (f a).Curtailed tail fault (p.advanceAll us) rest) :
    (x >>= f).Curtailed tail fault p (us ++ rest) := by
  cases hf with
  | anyhow vs rest b h =>
    rw [← List.append_assoc]
    exact .anyhow (us ++ vs) rest b (hx.bind h)
  | late _ b hgives hbreaks =>
    have hall : x.Gives p us (rest ++ []) a := by
      rw [List.append_nil]
      exact hx.gives
    exact .late (us ++ rest) b (hall.bind hgives) (hx.breaksOff_bind hbreaks)
  | refuses _ start r hne h =>
    exact .refuses (us ++ rest) start r (by simp [hne]) (hx.refuses_bind h)
  | unfinished _ kind start hrefuses hbreaks =>
    exact .unfinished (us ++ rest) kind start (hx.gives.refuses_bind hrefuses)
      (hx.breaksOff_bind hbreaks)

namespace Robust

theorem pure (a : α) : Robust tail fault (Pure.pure a) :=
  fun p text _ => .anyhow [] text a (.pure a p text)

theorem position : Robust tail fault Scan.position :=
  fun p text _ => .anyhow [] text p (.position p text)

/-- One computation `f a` may follow another: what comes behind a whole text is lost with it. -/
theorem bind (hx : Robust tail fault x) (hf : ∀ a, Robust tail fault (f a)) :
    Robust tail fault (x >>= f) := by
  intro p text hline
  have hbehind : ∀ us, 1 ≤ (p.advanceAll us).line := fun us =>
    hline.trans (p.line_le_line_advanceAll us)
  cases hx p text hline with
  | anyhow us rest a h => exact h.curtailed_bind (hf a _ rest (hbehind us))
  | late _ a hgives hbreaks =>
    have hnone := hf a (p.advanceAll text) [] (hbehind text)
    generalize hnil : ([] : List Char) = rest at hnone
    cases hnone with
    | anyhow us rest b h =>
      obtain ⟨rfl, rfl⟩ := List.append_eq_nil_iff.1 hnil.symm
      exact .late text b (hgives.bind_stay h.gives) hbreaks.bind
    | late _ b hgives' _ =>
      subst hnil
      exact .late text b (hgives.bind_stay hgives') hbreaks.bind
    | refuses _ _ _ hne _ => exact absurd hnil.symm hne
    | unfinished _ kind start hrefuses _ =>
      subst hnil
      have hall := hgives.refuses_bind hrefuses
      rw [List.append_nil] at hall
      exact .unfinished text kind start hall hbreaks.bind
  | refuses _ start r hne h => exact .refuses text start r hne h.bind
  | unfinished _ kind start hrefuses hbreaks =>
    exact .unfinished text kind start hrefuses.bind hbreaks.bind

/-! ### Cursors -/

theorem givesAnyhow_nextRune (p : Position) (r : Char) (rest : List Char) :
    Cursor.nextRune.GivesAnyhow p [r] rest (some r) := by
  intro tail c hc
  obtain ⟨c', hnext, hc', -⟩ := hc.exists_nextRune
  exact ⟨c', hnext, hc'⟩

theorem breaksOff_nextRune (htail : Utf8.StartsFaulty tail fault) (p : Position) :
    Cursor.nextRune.BreaksOff tail fault p [] :=
  fun _ hc => ⟨p, hc.nextRune_error htail⟩

theorem peek (htail : Utf8.StartsFaulty tail fault) : Robust tail fault Cursor.peek := by
  intro p text _
  cases text with
  | nil =>
    refine .late [] none (Local.gives_peek p []) fun c hc => ?_
    exact ⟨p, hc.peekNth_error htail (Nat.le_refl 0)⟩
  | cons r rest =>
    refine .anyhow [] (r :: rest) (some r) fun tail c hc => ?_
    exact hc.exists_peekNth (Nat.succ_pos rest.length)

end Robust

end Scan

/-! ### Runs -/

namespace Run

variable {τ : Type} {step : τ → Char → Verdict τ} {init s : τ} {ts behind rest : List Char}
  {tail : List Signal} {fault : Utf8.Fault} {p : Position} {c : Cursor Source}

/-- A run that takes the runes `ts` goes on behind them. -/
theorem exists_goOn (htakes : Takes step init ts s) (hc : c.Before tail p (ts ++ behind))
    (taken : String) :
    ∃ c', (goOn step init taken).run c = (goOn step s (taken ++ String.ofList ts)).run c' ∧
      c'.Before tail (p.advanceAll ts) behind := by
  induction htakes generalizing c p taken with
  | refl s =>
    rw [String.ofList_nil, String.append_empty]
    exact ⟨c, rfl, hc⟩
  | @cons s₀ s₁ s₂ r rs hr hrs ih =>
    obtain ⟨c₁, hnext, hc₁, -⟩ := hc.exists_nextRune
    obtain ⟨c', hrun, hc'⟩ := ih hc₁ (taken.push r)
    have htaken : taken.push r ++ String.ofList rs = taken ++ String.ofList (r :: rs) := by
      rw [String.ofList_cons, String.push_eq_append, String.append_assoc]
    rw [htaken] at hrun
    refine ⟨c', ?_, hc'⟩
    rw [goOn_of_some hnext, hr]
    exact hrun

theorem givesAnyhow_stopped {r : Char} (htakes : Takes step init ts s) (hstop : step s r = .stop)
    (p : Position) :
    (scan step init).GivesAnyhow p (ts ++ [r]) rest ⟨String.ofList ts, s, .stopped r⟩ := by
  intro tail c hc
  rw [List.append_assoc] at hc
  obtain ⟨c₁, hrun, hc₁⟩ := exists_goOn htakes hc ""
  obtain ⟨c', hnext, hc', -⟩ := hc₁.exists_nextRune
  rw [goOn_of_some hnext, hstop, String.empty_append] at hrun
  rw [Position.advanceAll_append]
  exact ⟨c', hrun, hc'⟩

theorem givesAnyhow_left {r : Char} (htakes : Takes step init ts s) (hleave : step s r = .leave)
    (p : Position) :
    (scan step init).GivesAnyhow p ts (r :: rest) ⟨String.ofList ts, s, .left⟩ := by
  intro tail c hc
  obtain ⟨c₁, hrun, hc₁⟩ := exists_goOn htakes hc ""
  obtain ⟨c', hnext, -, hback⟩ := hc₁.exists_nextRune
  rw [goOn_of_some hnext, hleave, String.empty_append] at hrun
  exact ⟨c'.backup r, hrun, hback⟩

/-- A run that takes the whole text `ts` asks for more. -/
theorem breaksOff_scan (htail : Utf8.StartsFaulty tail fault) (htakes : Takes step init ts s)
    (p : Position) : (scan step init).BreaksOff tail fault p ts := by
  intro c hc
  rw [← List.append_nil ts] at hc
  obtain ⟨c₁, hrun, hc₁⟩ := exists_goOn htakes hc ""
  obtain ⟨c', hnext⟩ := hc₁.nextRune_error htail
  rw [goOn_of_error hnext] at hrun
  exact ⟨_, c', hrun⟩

end Run

namespace Scan.Robust

variable {tail : List Signal} {fault : Utf8.Fault} {start : Position} {first : Char}

section

variable {τ : Type} {step : τ → Char → Verdict τ}

theorem scan (htail : Utf8.StartsFaulty tail fault) (step : τ → Char → Verdict τ) (init : τ) :
    Robust tail fault (Run.scan step init) := by
  intro p text _
  obtain ⟨ts, behind, s, ending, rest, rfl, htakes, hhalts⟩ := Run.exists_halts step init text
  cases hhalts with
  | @stopped r _ hstop =>
    rw [List.append_cons]
    exact .anyhow (ts ++ [r]) rest _ (Run.givesAnyhow_stopped htakes hstop p)
  | @left r rest hleave => exact .anyhow ts (r :: rest) _ (Run.givesAnyhow_left htakes hleave p)
  | exhausted =>
    rw [List.append_nil]
    exact .late ts _ (Run.gives_scan_of_halts htakes .exhausted p)
      (Run.breaksOff_scan htail htakes p)

/-- Whatever a scan is put together from is `Robust`, too. -/
theorem inherited (htail : Utf8.StartsFaulty tail fault) :
    Inherited (fun (x : Scan Source _) (_ : Scan Source _) => Robust tail fault x) where
  pure := pure
  bind := bind
  position := position
  peek := peek htail
  scan := scan htail

end

end Scan.Robust

/-! ### Operators -/

namespace OperatorTrie.Branches

/-- Whether every `node` ends a lexeme. -/
def full : Branches → Bool
  | .nil => true
  | .node _ token children siblings => token.isSome && children.full && siblings.full

/-- Whether every `node` below the first ones ends a lexeme. -/
def fullBelow : Branches → Bool
  | .nil => true
  | .node _ _ children siblings => children.full && siblings.fullBelow

theorem fullBelow_of_full {b : Branches} (h : b.full = true) : b.fullBelow = true := by
  induction b with
  | nil => rfl
  | node rune token children siblings ihc ihs =>
    simp only [full, Bool.and_eq_true] at h
    obtain ⟨⟨-, hchildren⟩, hsiblings⟩ := h
    rw [fullBelow, hchildren, ihs hsiblings]
    rfl

end OperatorTrie.Branches

/-- Below the first runes every node of `standard` ends an operator. -/
theorem OperatorTrie.fullBelow_standard : standard.roots.fullBelow = true := by
  decide +kernel

namespace Scan.Robust

variable {tail : List Signal} {fault : Utf8.Fault} {start : Position} {first : Char}

/-- Going down a trie `b` beyond a `text` means that the whole text was gone down.  Then the text
ends a lexeme, which is `found`, unless nothing but the first rune was seen. -/
theorem descend (htail : Utf8.StartsFaulty tail fault) {b : Branches} (hb : b.fullBelow = true)
    {n : Nat} {text : List Char} (hn : n ≤ text.length) (best : Option OperatorMatch) (r : Char) :
    let found := b.descend (m := Id) (fun i => text[i]?) (n + 1) best r
    (∀ p, (b.descend Cursor.peekNth (n + 1) best r).GivesAnyhow p [] text found) ∨
      ((∃ t, found = some ⟨t, text.length + 1⟩) ∨
        n = text.length ∧ found = best ∧ b.full = false) ∧
      ∀ p, (b.descend Cursor.peekNth (n + 1) best r).BreaksOff tail fault p text := by
  induction b generalizing n best r with
  | nil => exact .inl fun p => .pure best p text
  | node rune token children siblings ihc ihs =>
    simp only [Branches.fullBelow, Bool.and_eq_true] at hb
    obtain ⟨hchildren, hsiblings⟩ := hb
    unfold Branches.descend
    dsimp only
    by_cases hr : rune = r
    · rw [if_pos hr, if_pos hr]
      split
      next => exact .inl fun p => .pure _ p text
      next =>
        rw [Nat.add_sub_cancel]
        rcases Nat.lt_or_ge n text.length with hlt | hge
        · have hpeek : ∀ p, (Cursor.peekNth n).GivesAnyhow p [] text text[n]? :=
            fun p tail c hc => hc.exists_peekNth hlt
          obtain ⟨next, hnext⟩ : ∃ next, text[n]? = some next :=
            ⟨_, List.getElem?_eq_getElem hlt⟩
          rw [hnext] at hpeek ⊢
          rcases ihc (Branches.fullBelow_of_full hchildren) hlt
            ((token.map fun t => ⟨t, n + 1⟩).or best) next with hgives | ⟨hfound, hbreaks⟩
          · refine .inl fun p => (hpeek p).stay_bind ?_
            exact hgives p
          · refine .inr ⟨.inl ?_, fun p => (hpeek p).breaksOff_bind (hbreaks p)⟩
            rcases hfound with hfound | ⟨-, -, hfull⟩
            · exact hfound
            · cases hchildren.symm.trans hfull
        · -- The text ends here, so the look goes beyond it.
          have hnone : text[n]? = none := List.getElem?_eq_none hge
          have hend : n = text.length := Nat.le_antisymm hn hge
          have hpeek : ∀ p, (Cursor.peekNth n).BreaksOff tail fault p text :=
            fun p c hc => ⟨p, hc.peekNth_error htail hge⟩
          refine .inr ⟨?_, fun p => (hpeek p).bind⟩
          rw [hnone]
          cases token with
          | none => exact .inr ⟨hend, rfl, rfl⟩
          | some t => exact .inl ⟨t, by rw [← hend]; rfl⟩
    · rw [if_neg hr, if_neg hr]
      rcases ihs hsiblings hn best r with hgives | ⟨hfound, hbreaks⟩
      · exact .inl hgives
      · refine .inr ⟨hfound.imp_right fun h => ⟨h.1, h.2.1, ?_⟩, hbreaks⟩
        rw [Branches.full, h.2.2, Bool.and_false]

/-- Where looking at the runes of a text shows the operator of a `row`, the scan passes it. -/
theorem givesAnyhow_operator {p : Position} {rs rest : List Char} {row : String × Token}
    (hrow : row ∈ Token.operators) (hruns : row.1.toList = first :: rs)
    (hmatch : (standard.longestMatch first Cursor.peekNth).GivesAnyhow p [] (rs ++ rest)
      (some ⟨row.2, row.1.length⟩)) :
    (Scanner.operator? start first).GivesAnyhow p rs rest (some (.ofToken start row.2 row.1)) := by
  intro tail c hc
  obtain ⟨c₁, hrun, hc₁⟩ := hmatch tail c hc
  obtain ⟨-, hseen, hrun'⟩ := Scanner.run_operator_of_row hrow hruns hrun
  exact ⟨_, hrun', hc₁.skip hseen⟩

theorem operator? (htail : Utf8.StartsFaulty tail fault) :
    Robust tail fault (Scanner.operator? start first) := by
  intro p text _
  have hmatch := OperatorTrie.longestMatch_eq_iff OperatorTrie.build_operators first text
  have hway := descend htail OperatorTrie.fullBelow_standard (Nat.zero_le text.length) none first
  cases hfound : standard.longestMatch (m := Id) first (fun i => text[i]?) with
  | none =>
    rw [show standard.roots.descend (m := Id) _ (0 + 1) none first = none from hfound] at hway
    have hgives : (Scanner.operator? start first).Gives p [] text none :=
      Local.gives_operator_none p (hmatch.2.1 hfound)
    rcases hway with hanyhow | ⟨hend, hbreaks⟩
    · exact .anyhow [] text none ((hanyhow p).bind_stay (.pure none p text))
    · obtain rfl : text = [] := by
        rcases hend with ⟨t, ht⟩ | ⟨hnil, -⟩
        · cases ht
        · exact List.length_eq_zero_iff.1 hnil.symm
      exact .late [] none hgives (hbreaks p).bind
  | some found =>
    rw [show standard.roots.descend (m := Id) _ (0 + 1) none first = some found from hfound]
      at hway
    obtain ⟨⟨row, hrow, hpre, hlength, hkind⟩, hlongest⟩ := (hmatch.1 found).1 hfound
    obtain ⟨rs, hruns, rest, rfl⟩ := Scanner.exists_rest_of_operator hrow hpre
    obtain rfl : found = ⟨row.2, row.1.length⟩ := by
      rw [hlength, hkind]
    have hlength : row.1.length = (first :: rs).length := by
      rw [← String.length_toList, hruns]
    rcases hway with hanyhow | ⟨hend, hbreaks⟩
    · exact .anyhow rs rest _ (givesAnyhow_operator hrow hruns (hanyhow p))
    · -- The operator is the whole text.
      obtain rfl : rest = [] := by
        rcases hend with ⟨t, ht⟩ | ⟨-, ht, -⟩
        · have hall := (OperatorMatch.mk.inj (Option.some.inj ht)).2
          rw [hlength, List.length_cons, List.length_append] at hall
          exact List.length_eq_zero_iff.1 (by omega)
        · cases ht
      rw [List.append_nil] at hbreaks hlongest ⊢
      have hgives : (Scanner.operator? start first).Gives p rs [] _ :=
        Local.gives_operator p hrow hruns (by simpa [hlength] using hlongest)
      exact .late rs _ hgives (hbreaks p).bind

/-! ### Literals -/

section

variable {τ : Type} {kind : LiteralKind} {step : τ → Char → Verdict τ}

theorem givesAnyhow_untilStopped {init s : τ} {ts rest : List Char} {r : Char}
    (htakes : Run.Takes step init ts s) (hstop : step s r = .stop) (p : Position) :
    (Scanner.untilStopped kind start step init).GivesAnyhow p (ts ++ [r]) rest
      (String.ofList ts, r) :=
  (Run.givesAnyhow_stopped htakes hstop p).bind_stay (.pure _ _ rest)

theorem refuses_untilStopped {init s : τ} {ts : List Char} (htakes : Run.Takes step init ts s)
    (p : Position) :
    (Scanner.untilStopped kind start step init).Refuses p ts (.unterminated kind start) := by
  intro c hc
  obtain ⟨c', hrun, -⟩ :=
    Scanner.exists_unterminated (fun _ => Scanner.lacksEnd_of_takes htakes) hc
  exact ⟨c', hrun⟩

theorem breaksOff_untilStopped (htail : Utf8.StartsFaulty tail fault) {init s : τ}
    {ts : List Char} (htakes : Run.Takes step init ts s) (p : Position) :
    (Scanner.untilStopped kind start step init).BreaksOff tail fault p ts :=
  (Run.breaksOff_scan htail htakes p).bind

theorem untilStopped (htail : Utf8.StartsFaulty tail fault) (hleave : ∀ s r, step s r ≠ .leave)
    (init : τ) : Robust tail fault (Scanner.untilStopped kind start step init) := by
  intro p text _
  obtain ⟨ts, behind, s, ending, rest, rfl, htakes, hhalts⟩ := Run.exists_halts step init text
  cases hhalts with
  | @stopped r _ hstop =>
    rw [List.append_cons]
    exact .anyhow (ts ++ [r]) rest _ (givesAnyhow_untilStopped htakes hstop p)
  | left h => exact absurd h (hleave _ _)
  | exhausted =>
    rw [List.append_nil]
    exact .unfinished ts kind start (refuses_untilStopped htakes p)
      (breaksOff_untilStopped htail htakes p)

end

theorem structured (htail : Utf8.StartsFaulty tail fault) :
    Robust tail fault (Scanner.structured start) := by
  intro p text hline
  obtain ⟨ts, behind, s, ending, rest, rfl, htakes, hhalts⟩ :=
    Run.exists_halts Scanner.tagStep () text
  cases hhalts with
  | @stopped r _ hstop =>
    have htag : (Scanner.untilStopped .structured start Scanner.tagStep ()).GivesAnyhow p
        (ts ++ [r]) rest (String.ofList ts, r) := givesAnyhow_untilStopped htakes hstop p
    rw [List.append_cons]
    cases hcloser : Rune.closer? r with
    | some closer =>
      have hbehind : 1 ≤ (p.advanceAll (ts ++ [r])).line :=
        hline.trans (p.line_le_line_advanceAll _)
      refine htag.curtailed_bind ?_
      dsimp only
      rw [hcloser]
      exact bind (untilStopped htail (Scanner.payloadStep_ne_leave r closer) 1)
        (fun _ => pure _) _ rest hbehind
    | none =>
      -- The rune that stands for the delimiter is one of the text.
      refine .refuses _ start r (by simp) (htag.refuses_bind ?_)
      dsimp only
      rw [hcloser]
      exact fun tail c _ => ⟨c, rfl⟩
  | left h => exact absurd h (Scanner.tagStep_ne_leave _ _)
  | exhausted =>
    rw [List.append_nil]
    exact .unfinished ts .structured start (refuses_untilStopped htakes p).bind
      (breaksOff_untilStopped htail htakes p).bind

/-! ### Numerals -/

theorem zeroLed (htail : Utf8.StartsFaulty tail fault) :
    Robust tail fault (Scanner.zeroLed start) := by
  intro p text hline
  cases text with
  | nil =>
    have hgives : (Scanner.zeroLed start).Gives p [] [] _ :=
      (Local.gives_nextRune_nil p).bind_stay (gives_pure _ _ _)
    exact .late [] _ hgives (breaksOff_nextRune htail p).bind
  | cons r text =>
    by_cases hrest : (r = 'b' || r = 'B') = true ∨ (r = 'x' || r = 'X') = true ∨ r.isDigit = true
    · have hbehind : 1 ≤ (p.advanceAll [r]).line := hline.trans (p.line_le_line_advanceAll [r])
      refine (givesAnyhow_nextRune p r text).curtailed_bind ?_
      dsimp only
      split_ifs with hbinary hhexadecimal hdigit
      · exact (inherited htail).wholeIn 2 _ _ _ hbehind
      · exact (inherited htail).wholeIn 16 _ _ _ hbehind
      · exact (inherited htail).wholeIn 10 _ _ _ hbehind
      · exact absurd hrest (by simp [hbinary, hhexadecimal, hdigit])
    · -- The rune is put back.
      obtain ⟨hbinary, hhexadecimal, hdigit⟩ := by
        simpa only [not_or] using hrest
      refine .anyhow [] (r :: text) (.ofToken start .int "0") fun tail c hc => ?_
      obtain ⟨c', hnext, -, hback⟩ := hc.exists_nextRune
      refine ⟨c'.backup r, ?_, hback⟩
      unfold Scanner.zeroLed
      rw [run_bind_ok hnext]
      dsimp only
      rw [if_neg hbinary, if_neg hhexadecimal, if_neg hdigit]
      rfl

/-! ### Items -/

theorem otherToken (htail : Utf8.StartsFaulty tail fault) :
    Robust tail fault (Scanner.otherToken start first) :=
  (inherited htail).otherToken
    ((inherited htail).string (untilStopped htail Scanner.decides_stringStep.not_leave _))
    ((inherited htail).template (untilStopped htail Scanner.decides_templateStep.not_leave _))
    (structured htail) (zeroLed htail)

/-- Where a text breaks off, the scan of an `item` loses the item that the text ends with, or the
error that a literal has no end. -/
theorem item (htail : Utf8.StartsFaulty tail fault) : Robust tail fault Scanner.item :=
  (inherited htail).item fun _ _ =>
    (inherited htail).token (operator? htail) (otherToken htail)

end Scan.Robust

end LexStream
