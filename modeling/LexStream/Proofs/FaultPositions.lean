import LexStream.Proofs.Computations
import LexStream.Proofs.Restart

/-!
# Where faults are reported

A fault is reported where the cursor stands, and that is where the fault lies as long as every rune
before it is passed.  Only an operator is looked at further than one rune ahead.  So behind two
runes that are an operator and could have a third one, the fault is reported at the second of them,
and behind everything else where it lies.

`Cursor.Nears c p rs fault` says what comes next up to the first fault.  `Scan.Heeds x` says that a
success of `x` passes some of these runes, and that a fault it reports is this one, behind all of
them.  Every computation of a scan heeds but the one that looks for operators.

Main facts:

* `Scanner.reports_operator`: how far an operator is looked for behind its first rune;
* `Scanner.reports_item`: where the scan of an item reports a fault;
* `Lexer.position_of_fault`: where a lexer reports a fault, in terms of the runes behind its last
  item.
-/

namespace LexStream

open OperatorTrie (Branches standard)

/-! ### The first fault -/

namespace Utf8

/-- The runes that `signals` decode to before the first fault, whatever ends stand between them, and
this fault; `none` if no decoding fails. -/
def firstFault? (signals : List Signal) : Option (List Char × Fault) :=
  match _h : decode signals with
  | (.ok (some r), rest) => (firstFault? rest).map fun (rs, fault) => (r :: rs, fault)
  | (.ok none, rest) => if _shorter : rest.length < signals.length then firstFault? rest else none
  | (.error fault, _) => some ([], fault)
termination_by signals.length
decreasing_by
  · exact size_decode_lt _h
  · exact _shorter

variable {signals rest : List Signal} {r : Char} {ds : List Char} {fault f : Fault} {p q : Position}

theorem firstFault?_of_rune (hd : decode signals = (.ok (some r), rest)) :
    firstFault? signals = (firstFault? rest).map fun (rs, fault) => (r :: rs, fault) := by
  rw [firstFault?]
  split
  next hd' => cases hd.symm.trans hd'; rfl
  next hd' => cases hd.symm.trans hd'
  next hd' => cases hd.symm.trans hd'

/-- Only the signal `ended`, or no signal at all, decodes to no rune. -/
theorem decode_eq_none (hd : decode signals = (.ok none, rest)) :
    signals = .ended :: rest ∨ signals = [] ∧ rest = [] := by
  cases signals with
  | nil => cases hd; exact .inr ⟨rfl, rfl⟩
  | cons signal signals =>
    have hread : ByteSource.read (signal :: signals) = (signal, signals) := rfl
    rw [decode, hread] at hd
    cases signal with
    | ended => cases hd; exact .inl rfl
    | failed failure => cases hd
    | byte lead =>
      dsimp only at hd
      split at hd
      next => cases hd
      next n _ =>
        split at hd
        next bytes s _ =>
          unfold checked at hd
          split at hd <;> cases hd
        next => cases hd

theorem firstFault?_of_end (hd : decode signals = (.ok none, rest)) :
    firstFault? signals = firstFault? rest := by
  rcases decode_eq_none hd with hsignals | ⟨rfl, rfl⟩
  · have hshorter : rest.length < signals.length := by simp [hsignals]
    rw [firstFault?]
    split
    next hd' => cases hd.symm.trans hd'
    next hd' => cases hd.symm.trans hd'; rw [dif_pos hshorter]
    next hd' => cases hd.symm.trans hd'
  · rfl

theorem firstFault?_of_fault (hd : decode signals = (.error f, rest)) :
    firstFault? signals = some ([], f) := by
  rw [firstFault?]
  split
  next hd' => cases hd.symm.trans hd'
  next hd' => cases hd.symm.trans hd'
  next hd' => cases hd.symm.trans hd'; rfl

/-- Where some decoding fails, as at `s'`, there is a `first` one that does. -/
theorem exists_firstFault? {s s' : Source} (h : Decodes s ds s') {s'' : Source}
    (hd : decode s' = (.error f, s'')) : ∃ first, firstFault? s.signals = some first := by
  induction h with
  | refl s =>
    have hsignals := s.decode_signals
    rw [hd] at hsignals
    exact ⟨_, firstFault?_of_fault hsignals⟩
  | @step s₀ s₁ s₂ outcome rs hstep _ ih =>
    obtain ⟨first, hfirst⟩ := ih hd
    have hsignals := s₀.decode_signals
    rw [hstep] at hsignals
    match outcome with
    | .ok (some r) => exact ⟨_, by rw [firstFault?_of_rune hsignals, hfirst]; rfl⟩
    | .ok none => exact ⟨first, by rw [firstFault?_of_end hsignals, hfirst]⟩
    | .error f' => exact ⟨_, firstFault?_of_fault hsignals⟩

theorem Fault.at_inj (h : f.at p = fault.at q) : f = fault ∧ p = q := by
  cases f with
  | readFailed failure =>
    cases fault with
    | readFailed failure' => cases h; exact ⟨rfl, rfl⟩
    | malformed bytes => cases h
  | malformed bytes =>
    cases fault with
    | readFailed failure' => cases h
    | malformed bytes' => cases h; exact ⟨rfl, rfl⟩

end Utf8

/-- The cursor stands at `p`, and up to the first fault, which is `fault`, the runes `rs` come
next. -/
structure Cursor.Nears (c : Cursor Source) (p : Position) (rs : List Char) (fault : Utf8.Fault) :
    Prop where
  pending : ∃ ds, Utf8.firstFault? c.source.signals = some (ds, fault) ∧ rs = c.lookahead ++ ds
  position : c.position = p
  one_le_line : 1 ≤ p.line

namespace Cursor.Nears

variable {c c' : Cursor Source} {p : Position} {rs : List Char} {r : Char} {fault : Utf8.Fault}
  {e : LexError}

/-- Where a decoding fails somewhere ahead, there is a first `fault`. -/
theorem of_faults (hline : 1 ≤ c.position.line) (h : c.Faults e) :
    ∃ rs fault, c.Nears c.position rs fault := by
  obtain ⟨ps, c₁, c', hp, hd⟩ := h
  obtain ⟨ds, hdecodes, -⟩ := hp.stream
  obtain ⟨f, s, hs, -⟩ := decode_eq_error hd
  obtain ⟨⟨rs, fault⟩, hfirst⟩ := Utf8.exists_firstFault? hdecodes hs
  exact ⟨c.lookahead ++ rs, fault, ⟨rs, hfirst, rfl⟩, rfl, hline⟩

/-! ### Cursors -/

theorem decode_some (h : c.Nears p rs fault) (hd : decode.run c = (.ok (some r), c')) :
    Nears { c' with lookahead := c'.lookahead ++ [r] } p rs fault ∧ c'.lookahead = c.lookahead := by
  obtain ⟨ds, hfirst, rfl⟩ := h.pending
  obtain ⟨s, hs, rfl⟩ := decode_eq_ok hd
  have hsignals := c.source.decode_signals
  rw [hs] at hsignals
  rw [Utf8.firstFault?_of_rune hsignals, Option.map_eq_some_iff] at hfirst
  obtain ⟨⟨ds, f⟩, hrest, heq⟩ := hfirst
  cases heq
  exact ⟨⟨⟨ds, hrest, by simp⟩, h.position, h.one_le_line⟩, rfl⟩

theorem decode_none (h : c.Nears p rs fault) (hd : decode.run c = (.ok none, c')) :
    c'.Nears p rs fault := by
  obtain ⟨ds, hfirst, rfl⟩ := h.pending
  obtain ⟨s, hs, rfl⟩ := decode_eq_ok hd
  have hsignals := c.source.decode_signals
  rw [hs] at hsignals
  rw [Utf8.firstFault?_of_end hsignals] at hfirst
  exact ⟨⟨ds, hfirst, rfl⟩, h.position, h.one_le_line⟩

theorem decode_error (h : c.Nears p rs fault) (hd : decode.run c = (.error e, c')) :
    e = fault.at p ∧ rs = c.lookahead := by
  obtain ⟨ds, hfirst, rfl⟩ := h.pending
  obtain ⟨f, s, hs, rfl⟩ := decode_eq_error hd
  have hsignals := c.source.decode_signals
  rw [hs] at hsignals
  cases hfirst.symm.trans (Utf8.firstFault?_of_fault hsignals)
  exact ⟨by rw [h.position], List.append_nil _⟩

/-- A rune `r` that is passed is the next one, and can be put back. -/
theorem nextRune_some (h : c.Nears p rs fault) (hnext : nextRune.run c = (.ok (some r), c')) :
    ∃ rest, rs = r :: rest ∧ c'.Nears (p.advance r) rest fault ∧
      (c'.backup r).Nears p rs fault := by
  have hline : 1 ≤ c.position.line := h.position ▸ h.one_le_line
  have hadvance : 1 ≤ (p.advance r).line :=
    h.one_le_line.trans (p.line_le_line_advanceAll [r])
  have hpass := (passes_nextRune hnext).1.position
  have hback := (passes_backup hline hnext).position
  rw [h.position] at hpass hback
  obtain ⟨ds, hfirst, rfl⟩ : ∃ ds, Utf8.firstFault? c'.source.signals = some (ds, fault) ∧
      rs = r :: c'.lookahead ++ ds := by
    unfold Scan.run nextRune at hnext
    split at hnext
    next r' la hla =>
      cases hnext
      obtain ⟨ds, hfirst, rfl⟩ := h.pending
      exact ⟨ds, hfirst, by rw [hla]⟩
    next hla =>
      split at hnext
      next r' c₁ hd =>
        cases hnext
        obtain ⟨hlook, hla'⟩ := h.decode_some hd
        obtain ⟨ds, hfirst, rfl⟩ := hlook.pending
        exact ⟨ds, hfirst, by rw [hla', hla]; rfl⟩
      next => cases hnext
      next => cases hnext
  exact ⟨_, rfl, ⟨⟨ds, hfirst, rfl⟩, hpass, hadvance⟩, ⟨⟨ds, hfirst, rfl⟩, hback, h.one_le_line⟩⟩

theorem nextRune_none (h : c.Nears p rs fault) (hnext : nextRune.run c = (.ok none, c')) :
    c'.Nears p rs fault := by
  unfold Scan.run nextRune at hnext
  split at hnext
  next => cases hnext
  next =>
    split at hnext
    next => cases hnext
    next c₁ hd => cases hnext; exact h.decode_none hd
    next => cases hnext

theorem nextRune_error (h : c.Nears p rs fault) (hnext : nextRune.run c = (.error e, c')) :
    e = fault.at p ∧ rs = [] := by
  unfold Scan.run nextRune at hnext
  split at hnext
  next => cases hnext
  next hla =>
    split at hnext
    next => cases hnext
    next => cases hnext
    next e' c₁ hd =>
      cases hnext
      obtain ⟨he, hrs⟩ := h.decode_error hd
      exact ⟨he, hrs.trans hla⟩

theorem lookFurther_ok {k : Nat} (h : c.Nears p rs fault)
    (hlook : (lookFurther k).run c = (.ok (), c')) : c'.Nears p rs fault := by
  induction k generalizing c with
  | zero => cases hlook; exact h
  | succ k ih =>
    unfold Scan.run lookFurther at hlook
    split at hlook
    next r c₁ hd => exact ih (h.decode_some hd).1 hlook
    next c₁ hd => cases hlook; exact h.decode_none hd
    next => cases hlook

/-- To `lookFurther k` fails where there are too few runes `rs` before the fault. -/
theorem lookFurther_error {k : Nat} (h : c.Nears p rs fault)
    (hlook : (lookFurther k).run c = (.error e, c')) :
    e = fault.at p ∧ rs.length < c.lookahead.length + k := by
  induction k generalizing c with
  | zero => cases hlook
  | succ k ih =>
    unfold Scan.run lookFurther at hlook
    split at hlook
    next r c₁ hd =>
      obtain ⟨h₁, hla⟩ := h.decode_some hd
      obtain ⟨he, hlt⟩ := ih h₁ hlook
      rw [List.length_append, List.length_singleton, hla] at hlt
      exact ⟨he, by omega⟩
    next => cases hlook
    next e' c₁ hd =>
      cases hlook
      obtain ⟨he, rfl⟩ := h.decode_error hd
      exact ⟨he, by omega⟩

theorem peekNth_ok {n : Nat} {seen : Option Char} (h : c.Nears p rs fault)
    (hpeek : (peekNth n).run c = (.ok seen, c')) : c'.Nears p rs fault := by
  unfold Scan.run peekNth at hpeek
  split at hpeek
  next c₁ hlook => cases hpeek; exact h.lookFurther_ok hlook
  next => cases hpeek

theorem peekNth_error {n : Nat} (h : c.Nears p rs fault)
    (hpeek : (peekNth n).run c = (.error e, c')) : e = fault.at p ∧ rs.length ≤ n := by
  have hla : c.lookahead.length ≤ rs.length := by
    obtain ⟨ds, -, rfl⟩ := h.pending
    rw [List.length_append]
    omega
  unfold Scan.run peekNth at hpeek
  split at hpeek
  next => cases hpeek
  next e' c₁ hlook =>
    cases hpeek
    obtain ⟨he, hlt⟩ := h.lookFurther_error hlook
    exact ⟨he, by omega⟩

/-- A rune in the `lookahead` is the one that stands there. -/
theorem getElem?_of_lookahead {n : Nat} (h : c.Nears p rs fault)
    (hseen : c.lookahead[n]? = some r) : rs[n]? = some r := by
  obtain ⟨ds, -, rfl⟩ := h.pending
  have hn := (List.getElem?_eq_some_iff.1 hseen).1
  rwa [List.getElem?_append_left hn]

end Cursor.Nears

/-! ### Computations that heed -/

namespace Scan

variable {α β : Type} {x : Scan Source α} {f : α → Scan Source β}

/-- A success of `x` passes some of the runes before the first fault. -/
structure Keeps (x : Scan Source α) : Prop where
  ok {c c' : Cursor Source} {p : Position} {rs : List Char} {fault : Utf8.Fault} {a : α}
    (hc : c.Nears p rs fault) (hrun : x.run c = (.ok a, c')) :
    ∃ ps rest, rs = ps ++ rest ∧ c'.Nears (p.advanceAll ps) rest fault

/-- And a fault that `x` reports is the first one, behind all the runes before it. -/
structure Heeds (x : Scan Source α) : Prop extends x.Keeps where
  error {c c' : Cursor Source} {p q : Position} {rs : List Char} {fault g : Utf8.Fault}
    (hc : c.Nears p rs fault) (hrun : x.run c = (.error (g.at q), c')) :
    g = fault ∧ q = p.advanceAll rs

namespace Keeps

theorem bind (hx : x.Keeps) (hf : ∀ a, (f a).Keeps) : (x >>= f).Keeps where
  ok {c c' p rs fault b} hc hrun := by
    obtain ⟨a, c₁, hrun₁, hrun₂⟩ := run_bind_eq_ok hrun
    obtain ⟨ps, rest, rfl, hc₁⟩ := hx.ok hc hrun₁
    obtain ⟨qs, rest, rfl, hc'⟩ := (hf a).ok hc₁ hrun₂
    rw [← Position.advanceAll_append] at hc'
    exact ⟨ps ++ qs, rest, (List.append_assoc ps qs rest).symm, hc'⟩

end Keeps

namespace Heeds

theorem pure (a : α) : Heeds (Pure.pure a) where
  ok hc hrun := by cases hrun; exact ⟨[], _, rfl, hc⟩
  error _ hrun := by cases hrun

/-- An error `e` that is no fault reports none. -/
theorem fail {e : LexError} (he : ∀ (g : Utf8.Fault) q, e ≠ g.at q) :
    Heeds (Scan.fail e : Scan Source α) where
  ok _ hrun := by cases hrun
  error _ hrun := absurd (Except.error.inj (Prod.mk.inj hrun).1) (he _ _)

theorem position : Heeds Scan.position where
  ok hc hrun := by cases hrun; exact ⟨[], _, rfl, hc⟩
  error _ hrun := by cases hrun

/-- One computation that `Heeds` may follow another. -/
theorem bind (hx : x.Heeds) (hf : ∀ a, (f a).Heeds) : (x >>= f).Heeds where
  toKeeps := hx.toKeeps.bind fun a => (hf a).toKeeps
  error {c c' p q rs fault g} hc hrun := by
    rcases run_bind_eq_error hrun with hrun | ⟨a, c₁, hrun₁, hrun₂⟩
    · exact hx.error hc hrun
    · obtain ⟨ps, rest, rfl, hc₁⟩ := hx.ok hc hrun₁
      obtain ⟨hfault, hpos⟩ := (hf a).error hc₁ hrun₂
      exact ⟨hfault, by rw [hpos, Position.advanceAll_append]⟩

theorem peek : Heeds Cursor.peek where
  ok hc hrun := ⟨[], _, rfl, hc.peekNth_ok hrun⟩
  error hc hrun := by
    obtain ⟨he, hlength⟩ := hc.peekNth_error hrun
    obtain ⟨rfl, rfl⟩ := Utf8.Fault.at_inj he
    obtain rfl := List.length_eq_zero_iff.1 (Nat.le_zero.1 hlength)
    exact ⟨rfl, rfl⟩

end Heeds

end Scan

/-! ### Runs -/

namespace Run

variable {τ : Type} {step : τ → Char → Verdict τ} {state : τ} {taken : String}
  {c c' : Cursor Source} {p : Position} {rs : List Char} {fault : Utf8.Fault} {run : Run τ}
  {e : LexError}

/-- How a `run` went on that is over: the runes `rs` before the fault start with those that it took,
and with the one that stopped it. -/
def Went (step : τ → Char → Verdict τ) (state : τ) (run : Run τ) (c' : Cursor Source) (p : Position)
    (rs : List Char) (fault : Utf8.Fault) : Prop :=
  ∃ ts, Takes step state ts run.state ∧
    ((∃ r rest, run.ending = .stopped r ∧ step run.state r = .stop ∧ rs = ts ++ r :: rest ∧
        c'.Nears (p.advanceAll (ts ++ [r])) rest fault) ∨
      ∃ rest, (∀ r, run.ending ≠ .stopped r) ∧ rs = ts ++ rest ∧
        c'.Nears (p.advanceAll ts) rest fault)

theorem went_goOn (hc : c.Nears p rs fault) (h : (goOn step state taken).run c = (.ok run, c')) :
    Went step state run c' p rs fault := by
  unfold Scan.run at h
  fun_induction goOn step state taken c generalizing p rs with
  | case1 state taken c r c₁ hnext next hr ih =>
    obtain ⟨rest, rfl, hc₁, -⟩ := hc.nextRune_some hnext
    obtain ⟨ts, htakes, hending⟩ := ih hc₁ h
    refine ⟨r :: ts, .cons hr htakes, ?_⟩
    rcases hending with ⟨r', rest, hstopped, hstop, rfl, hc'⟩ | ⟨rest, hne, rfl, hc'⟩
    · exact .inl ⟨r', rest, hstopped, hstop, rfl, hc'⟩
    · exact .inr ⟨rest, hne, rfl, hc'⟩
  | case2 state taken c r c₁ hnext hr =>
    cases h
    obtain ⟨rest, rfl, hc₁, -⟩ := hc.nextRune_some hnext
    exact ⟨[], .refl _, .inl ⟨r, rest, rfl, hr, rfl, hc₁⟩⟩
  | case3 state taken c r c₁ hnext hr =>
    cases h
    obtain ⟨-, -, -, hback⟩ := hc.nextRune_some hnext
    exact ⟨[], .refl _, .inr ⟨rs, by simp, rfl, hback⟩⟩
  | case4 state taken c c₁ hnext =>
    cases h
    exact ⟨[], .refl _, .inr ⟨rs, by simp, rfl, hc.nextRune_none hnext⟩⟩
  | case5 => cases h

/-- A run that fails has taken all the runes `rs` before the fault. -/
theorem takes_of_error (hc : c.Nears p rs fault)
    (h : (goOn step state taken).run c = (.error e, c')) :
    e = fault.at (p.advanceAll rs) ∧ ∃ s, Takes step state rs s := by
  unfold Scan.run at h
  fun_induction goOn step state taken c generalizing p rs with
  | case1 state taken c r c₁ hnext next hr ih =>
    obtain ⟨rest, rfl, hc₁, -⟩ := hc.nextRune_some hnext
    obtain ⟨he, s, htakes⟩ := ih hc₁ h
    exact ⟨he, s, .cons hr htakes⟩
  | case2 => cases h
  | case3 => cases h
  | case4 => cases h
  | case5 state taken c e' c₁ hnext =>
    cases h
    obtain ⟨he, rfl⟩ := hc.nextRune_error hnext
    exact ⟨he, state, .refl state⟩

end Run

/-! ### Literals, numerals and words -/

namespace Scan.Heeds

variable {start : Position} {first : Char}

theorem scan {τ : Type} (step : τ → Char → Verdict τ) (init : τ) : Heeds (Run.scan step init) where
  ok hc hrun := by
    obtain ⟨ts, -, ⟨r, rest, -, -, rfl, hc'⟩ | ⟨rest, -, rfl, hc'⟩⟩ := Run.went_goOn hc hrun
    · exact ⟨ts ++ [r], rest, List.append_cons ts r rest, hc'⟩
    · exact ⟨ts, rest, rfl, hc'⟩
  error hc hrun := Utf8.Fault.at_inj (Run.takes_of_error hc hrun).1

/-- Whatever a scan is put together from `Heeds`, operators apart. -/
theorem inherited : Inherited (fun (x : Scan Source _) (_ : Scan Source _) => Heeds x) where
  pure := pure
  bind := bind
  position := position
  peek := peek
  scan := scan

theorem untilStopped {τ : Type} {kind : LiteralKind} (step : τ → Char → Verdict τ) (init : τ) :
    Heeds (Scanner.untilStopped kind start step init) :=
  inherited.untilStopped step init (fail fun g q => by cases g <;> simp [Utf8.Fault.at])

theorem structured : Heeds (Scanner.structured start) :=
  inherited.structured untilStopped fun opener =>
    fail fun g q => by cases g <;> simp [Utf8.Fault.at]

theorem zeroLed : Heeds (Scanner.zeroLed start) where
  ok {c c' p rs fault found} hc hrun := by
    obtain ⟨r?, c₁, hnext, hrest⟩ := run_bind_eq_ok hrun
    cases r? with
    | none => cases hrest; exact ⟨[], rs, rfl, hc.nextRune_none hnext⟩
    | some r =>
      obtain ⟨rest, rfl, hc₁, hback⟩ := hc.nextRune_some hnext
      have hwhole : ∀ {base lead}, (Scanner.wholeIn base start lead).run c₁ = (.ok found, c') →
          ∃ ps rest', r :: rest = ps ++ rest' ∧ c'.Nears (p.advanceAll ps) rest' fault := by
        intro base lead hrun
        obtain ⟨ps, rest', rfl, hc'⟩ := (inherited.wholeIn base lead).ok hc₁ hrun
        exact ⟨r :: ps, rest', rfl, hc'⟩
      dsimp only at hrest
      split_ifs at hrest
      · exact hwhole hrest
      · exact hwhole hrest
      · exact hwhole hrest
      · rw [run_bind_ok (run_move _ _)] at hrest
        cases hrest
        exact ⟨[], r :: rest, rfl, hback⟩
  error {c c' p q rs fault g} hc hrun := by
    rcases run_bind_eq_error hrun with hnext | ⟨r?, c₁, hnext, hrest⟩
    · obtain ⟨he, rfl⟩ := hc.nextRune_error hnext
      exact Utf8.Fault.at_inj he
    · cases r? with
      | none => cases hrest
      | some r =>
        obtain ⟨rest, rfl, hc₁, -⟩ := hc.nextRune_some hnext
        have hwhole : ∀ {base lead},
            (Scanner.wholeIn base start lead).run c₁ = (.error (g.at q), c') →
              g = fault ∧ q = (p.advance r).advanceAll rest :=
          fun hrun => (inherited.wholeIn _ _).error hc₁ hrun
        dsimp only at hrest
        split_ifs at hrest
        · exact hwhole hrest
        · exact hwhole hrest
        · exact hwhole hrest
        · rw [run_bind_ok (run_move _ _)] at hrest
          cases hrest

theorem otherToken : Heeds (Scanner.otherToken start first) :=
  inherited.otherToken (inherited.string (untilStopped _ _)) (inherited.template (untilStopped _ _))
    structured zeroLed

end Scan.Heeds

/-! ### Operators -/

/-- The rows of runes with which some lexeme of the `Branches` starts that is longer. -/
def OperatorTrie.Branches.stems : Branches → List (List Char)
  | .nil => []
  | .node rune _ children siblings =>
    (if children.isEmpty then [] else [rune] :: children.stems.map (rune :: ·)) ++ siblings.stems

/-- The operators of two runes, such as `<<`, with which a longer one starts. -/
def Token.extendable : List String :=
  (operators.map Prod.fst).filter fun text =>
    text.length = 2 && operators.any fun row =>
      text.toList.isPrefixOf row.1.toList && text.length < row.1.length

example : Token.extendable = ["<<", ">>", "&^"] := by
  decide +kernel

/-- No row of two runes but the `extendable` ones is looked beyond, and no longer one. -/
theorem OperatorTrie.mem_extendable_of_stem {ws : List Char} (h : ws ∈ standard.roots.stems) :
    ws.length = 1 ∨ String.ofList ws ∈ Token.extendable := by
  have hall : (standard.roots.stems.all fun ws =>
      ws.length = 1 || Token.extendable.contains (String.ofList ws)) = true := by
    decide +kernel
  simpa using List.all_eq_true.1 hall ws h

/-- The first rune of an `extendable` operator is an operator, too. -/
theorem Token.exists_operator_of_extendable {text : String} (h : text ∈ extendable) :
    text.length = 2 ∧ ∃ row ∈ operators, row.1.toList = text.toList.take 1 := by
  have hall : (extendable.all fun text =>
      text.length = 2 && operators.any fun row => row.1.toList = text.toList.take 1) = true := by
    decide +kernel
  simpa using List.all_eq_true.1 hall text h

namespace Scan.Keeps

theorem inherited : Inherited (fun (x : Scan Source _) (_ : Scan Source _) => Keeps x) where
  pure a := (Heeds.pure a).toKeeps
  bind := bind
  position := Heeds.position.toKeeps
  peek := Heeds.peek.toKeeps
  scan step init := (Heeds.scan step init).toKeeps

theorem peekNth (n : Nat) : Keeps (Cursor.peekNth n : Scan Source (Option Char)) where
  ok hc hrun := ⟨[], _, rfl, hc.peekNth_ok hrun⟩

theorem skip (n : Nat) : Keeps (Scan.move (·.skip n) : Scan Source Unit) where
  ok {c c' p rs fault a} hc hrun := by
    cases hrun
    obtain ⟨ds, hfirst, rfl⟩ := hc.pending
    refine ⟨c.lookahead.take n, c.lookahead.drop n ++ ds, ?_, ⟨ds, hfirst, rfl⟩, ?_,
      hc.one_le_line.trans (p.line_le_line_advanceAll _)⟩
    · rw [← List.append_assoc, List.take_append_drop]
    · rw [(c.passes_skip n).position, hc.position]

end Scan.Keeps

namespace Scanner

variable {c c' : Cursor Source} {p q : Position} {rs : List Char} {fault g : Utf8.Fault}
  {start : Position} {first : Char}

theorem nears_descend {b : Branches} {n : Nat} {best res : Option OperatorMatch} {r : Char}
    (hc : c.Nears p rs fault) (h : (b.descend Cursor.peekNth n best r).run c = (.ok res, c')) :
    c'.Nears p rs fault := by
  induction b generalizing n best r c with
  | nil => cases h; exact hc
  | node rune token children siblings ihc ihs =>
    unfold Branches.descend at h
    dsimp only at h
    split_ifs at h
    · cases h; exact hc
    · obtain ⟨seen, c₁, hpeek, hrest⟩ := Scan.run_bind_eq_ok h
      have hc₁ := hc.peekNth_ok hpeek
      cases seen with
      | none => cases hrest; exact hc₁
      | some next => exact ihc hc₁ hrest
    · exact ihs hc h

/-- Going down a trie `b` fails where all runes before the fault were looked at, and some lexeme
goes on. -/
theorem reports_descend {b : Branches} {n : Nat} {best : Option OperatorMatch} {r : Char}
    (hc : c.Nears p rs fault) (hn : n ≤ rs.length)
    (h : (b.descend Cursor.peekNth (n + 1) best r).run c = (.error (g.at q), c')) :
    g = fault ∧ q = p ∧ r :: rs.drop n ∈ b.stems := by
  induction b generalizing n best r c with
  | nil => cases h
  | node rune token children siblings ihc ihs =>
    unfold Branches.descend at h
    dsimp only at h
    unfold Branches.stems
    split_ifs at h with hr hleaf
    · cases h
    · subst hr
      rw [if_neg hleaf]
      rw [Nat.add_sub_cancel] at h
      rcases Scan.run_bind_eq_error h with hpeek | ⟨seen, c₁, hpeek, hrest⟩
      · obtain ⟨he, hlength⟩ := hc.peekNth_error hpeek
        obtain ⟨rfl, rfl⟩ := Utf8.Fault.at_inj he
        rw [List.drop_eq_nil_of_le hlength]
        exact ⟨rfl, rfl, by simp⟩
      · have hc₁ := hc.peekNth_ok hpeek
        obtain ⟨-, -, hseen, -⟩ := Cursor.passes_peekNth hpeek
        cases seen with
        | none => cases hrest
        | some next =>
          have hnext := hc₁.getElem?_of_lookahead hseen.symm
          obtain ⟨hlt, hget⟩ := List.getElem?_eq_some_iff.1 hnext
          obtain ⟨hfault, hpos, hmem⟩ := ihc hc₁ hlt hrest
          rw [List.drop_eq_getElem_cons hlt, hget]
          refine ⟨hfault, hpos, List.mem_append_left _ (List.mem_cons_of_mem _ ?_)⟩
          exact List.mem_map_of_mem hmem
    · obtain ⟨hfault, hpos, hmem⟩ := ihs hc hn h
      exact ⟨hfault, hpos, List.mem_append_right _ hmem⟩

/-- An operator is looked for without passing a rune.  A fault that is met then lies right behind
the `first` rune, or behind two runes that could have a third one. -/
theorem reports_operator (hc : c.Nears p rs fault)
    (h : (operator? start first).run c = (.error (g.at q), c')) :
    g = fault ∧ q = p ∧ (rs = [] ∨ String.ofList (first :: rs) ∈ Token.extendable) := by
  obtain ⟨hfault, hpos, hmem⟩ :=
    reports_descend hc (Nat.zero_le _) (longestMatch_of_operator_error h)
  refine ⟨hfault, hpos, (OperatorTrie.mem_extendable_of_stem hmem).imp_left fun hlength => ?_⟩
  simpa using hlength

/-! ### Items -/

/-- The runes `rs` are blanks and behind them an operator of two runes with which a longer one
starts. -/
def AmidOperator (rs : List Char) : Prop :=
  String.ofList (rs.dropWhile Rune.isBlank) ∈ Token.extendable

instance : DecidablePred AmidOperator :=
  fun rs => inferInstanceAs (Decidable (String.ofList (rs.dropWhile Rune.isBlank) ∈ _))

/-- The runes before the place where a fault behind the runes `rs` is reported. -/
def reported (rs : List Char) : List Char :=
  if AmidOperator rs then rs.dropLast else rs

theorem not_amidOperator_nil : ¬AmidOperator [] := by
  intro h
  have hlength : (String.ofList []).length = 2 := (Token.exists_operator_of_extendable h).1
  cases hlength

theorem amidOperator_append {bs : List Char} (hblank : ∀ r ∈ bs, Rune.isBlank r = true) :
    AmidOperator (bs ++ rs) ↔ AmidOperator rs := by
  unfold AmidOperator
  rw [List.dropWhile_append_of_pos hblank]

theorem reported_of_blanks {bs : List Char} (hblank : ∀ r ∈ bs, Rune.isBlank r = true) :
    reported bs = bs := by
  have hnot : ¬AmidOperator bs := by
    rw [← List.append_nil bs, amidOperator_append hblank]
    exact not_amidOperator_nil
  rw [reported, if_neg hnot]

theorem reported_append {bs : List Char} (hblank : ∀ r ∈ bs, Rune.isBlank r = true)
    (hne : rs ≠ []) : reported (bs ++ rs) = bs ++ reported rs := by
  unfold reported
  simp only [amidOperator_append hblank]
  split_ifs
  · exact List.dropLast_append_of_ne_nil hne
  · rfl

theorem amidOperator_cons (hblank : Rune.isBlank first = false) :
    AmidOperator (first :: rs) ↔ String.ofList (first :: rs) ∈ Token.extendable := by
  unfold AmidOperator
  rw [List.dropWhile_cons_of_neg (by simp [hblank])]

/-- The `first` of the two runes is an operator already. -/
theorem exists_operator_of_amid (hblank : Rune.isBlank first = false)
    (h : AmidOperator (first :: rs)) :
    (∃ next, rs = [next]) ∧ ∃ row ∈ Token.operators, row.1.toList = [first] := by
  rw [amidOperator_cons hblank] at h
  obtain ⟨hlength, row, hrow, hruns⟩ := Token.exists_operator_of_extendable h
  rw [← String.length_toList, String.toList_ofList, List.length_cons] at hlength
  rw [String.toList_ofList] at hruns
  exact ⟨List.length_eq_one_iff.1 (Nat.succ_inj.1 hlength), row, hrow, hruns⟩

theorem keeps_item : (item : Scan Source _).Keeps :=
  Scan.Keeps.inherited.item fun _ _ =>
    Scan.Keeps.inherited.token
      (Scan.Keeps.inherited.operator? Scan.Keeps.peekNth Scan.Keeps.skip)
      Scan.Heeds.otherToken.toKeeps

theorem reports_token (hc : c.Nears (p.advance first) rs fault)
    (hblank : Rune.isBlank first = false)
    (h : (token start first).run c = (.error (g.at q), c')) :
    g = fault ∧ q = p.advanceAll (reported (first :: rs)) := by
  unfold token at h
  split_ifs at h with hnewline
  · cases h
  rcases Scan.run_bind_eq_error h with hoperator | ⟨found?, c₁, hoperator, hrest⟩
  · obtain ⟨hfault, rfl, hrs⟩ := reports_operator hc hoperator
    refine ⟨hfault, ?_⟩
    by_cases hamid : AmidOperator (first :: rs)
    · obtain ⟨⟨next, rfl⟩, -⟩ := exists_operator_of_amid hblank hamid
      rw [reported, if_pos hamid]
      rfl
    · rw [amidOperator_cons hblank] at hamid
      obtain rfl : rs = [] := hrs.resolve_right hamid
      rw [reported, if_neg (by rwa [amidOperator_cons hblank])]
      rfl
  · cases found? with
    | some found => cases hrest
    | none =>
      obtain ⟨-, hnone⟩ := passes_operator_none hoperator
      have hamid : ¬AmidOperator (first :: rs) := fun hamid => by
        obtain ⟨-, row, hrow, hruns⟩ := exists_operator_of_amid hblank hamid
        exact hnone row hrow hruns
      have hc₁ := nears_descend hc (longestMatch_of_operator_none hoperator)
      rw [reported, if_neg hamid, Position.advanceAll_cons]
      exact Scan.Heeds.otherToken.error hc₁ hrest

/-- Where the scan of an `item` reports a fault: behind the runes that are `reported`. -/
theorem reports_item (hc : c.Nears p rs fault)
    (h : item.run c = (.error (g.at q), c')) : g = fault ∧ q = p.advanceAll (reported rs) := by
  unfold item at h
  rw [Scan.run_bind_ok (Scan.run_position c)] at h
  rcases Scan.run_bind_eq_error h with hblanks | ⟨run, c₁, hblanks, hrest⟩
  · obtain ⟨he, pos, htakes⟩ := Run.takes_of_error hc hblanks
    obtain ⟨rfl, rfl⟩ := Utf8.Fault.at_inj he
    rw [reported_of_blanks (takes_blankStep htakes).1]
    exact ⟨rfl, rfl⟩
  · obtain ⟨bs, htakes, ⟨r, rest, hstopped, hstop, rfl, hc₁⟩ | ⟨rest, hne, -, -⟩⟩ :=
      Run.went_goOn hc hblanks
    · rw [hstopped] at hrest
      rw [Position.advanceAll_append] at hc₁
      obtain ⟨hfault, hpos⟩ := reports_token hc₁ (blankStep_stop hstop) hrest
      rw [reported_append (takes_blankStep htakes).1 (List.cons_ne_nil r rest),
        Position.advanceAll_append]
      exact ⟨hfault, hpos⟩
    · split at hrest
      next r hr => exact absurd hr (hne r)
      next => cases hrest

end Scanner

namespace Lexer

variable {l : Lexer Source} {p q : Position} {rs : List Char} {fault g : Utf8.Fault}

/-! ### Results -/

/-- A fault `g` among the results is a decoding that fails somewhere ahead. -/
theorem faults_of_mem {σ : Type} [ByteSource σ] {l : Lexer σ} (hopen : l.finished = false)
    (hline : 1 ≤ l.cursor.position.line) (h : .error (g.at q) ∈ l.results) :
    l.cursor.Faults (g.at q) := by
  refine results_induction (P := fun c results => 1 ≤ c.position.line →
    .error (g.at q) ∈ results → c.Faults (g.at q)) ?_ ?_ ?_ hopen hline h
  · intro c c' found _ _ _ hmem
    simp at hmem
  · intro c c' e herror hline hmem
    obtain rfl : g.at q = e := by simpa using hmem
    obtain ⟨bs, c₁, -, hp, hfails⟩ := Scanner.fails_item hline herror
    -- No fault is an incomplete literal.
    have hbroken : ∀ {seen}, ¬Grammar.Broken c₁.position seen (g.at q) := by
      intro seen hbroken
      generalize he : g.at q = e at hbroken
      cases g <;> cases hbroken <;> cases he
    cases hfails with
    | decoding hfaults => exact hfaults.of_passes hp
    | ended _ _ h => exact absurd h hbroken
    | wrong _ h => exact absurd (h []) hbroken
  · intro c c' found results hfound hne ih hline hmem
    have hmem : .error (g.at q) ∈ results := by simpa using hmem
    obtain ⟨bs, c₁, -, hp, hstands⟩ := Scanner.finds_item hline hfound
    cases hstands with
    | eof _ _ heof => exact absurd (heof ▸ rfl) hne
    | found hfinds =>
      obtain ⟨rs, hp', -⟩ := hfinds
      have hpass := hp.trans hp'
      exact (ih (hpass.one_le_line hline) hmem).of_passes hpass

/-- Behind `k` items a fault is reported where the scan of the next item does it. -/
theorem exists_requests_of_fault (hl : l.cursor.Nears p rs fault) (hopen : l.finished = false)
    (h : .error (g.at q) ∈ l.results) :
    ∃ k ps behind, rs = ps ++ behind ∧ (l.requests k).2.results = [.error (g.at q)] ∧
      (l.requests k).2.position = p.advanceAll ps ∧ g = fault ∧
        q = p.advanceAll (ps ++ Scanner.reported behind) := by
  induction hn : l.remaining using Nat.strongRecOn generalizing l p rs with
  | ind n ih =>
    subst hn
    have hless : l.nextItem.2.remaining < l.remaining := remaining_step_lt hopen
    match hitem : Scanner.item.run l.cursor with
    | (.error e, c) =>
      rw [results_of_error hopen hitem] at h
      obtain rfl : g.at q = e := by simpa using h
      obtain ⟨hfault, hpos⟩ := Scanner.reports_item hl hitem
      exact ⟨0, [], rs, rfl, results_of_error hopen hitem, hl.position, hfault, hpos⟩
    | (.ok found, c) =>
      obtain ⟨ps, rest, rfl, hc⟩ := Scanner.keeps_item.ok hl hitem
      by_cases heof : found.item.token = .eof
      · rw [results_of_eof hopen hitem heof] at h
        simp at h
      · rw [results_of_open hopen] at h
        have hnext := nextItem_of_ok hopen hitem
        have hmem : .error (g.at q) ∈ l.nextItem.2.results := by
          rw [hnext] at h
          simpa [hnext] using h
        have hmore : l.nextItem.2.finished = false := by simpa [hnext] using heof
        obtain ⟨k, us, behind, rfl, hresults, hpos, hfault, hq⟩ :=
          ih _ hless (l := l.nextItem.2) (by rw [hnext]; exact hc) hmore hmem rfl
        refine ⟨k + 1, ps ++ us, behind, (List.append_assoc ps us behind).symm, hresults, ?_,
          hfault, ?_⟩
        · rw [Position.advanceAll_append]
          exact hpos
        · rw [List.append_assoc, Position.advanceAll_append]
          exact hq

/-- A lexer reports the first fault of its reader.  The runes decoded before it are the ones that
the items have passed, `done`, and the ones behind the last item.  The position of the fault is the
one behind all of them exactly if the latter are no blanks followed by an operator of two runes with
which a longer one starts; if they are, it is the position of the last rune. -/
theorem position_of_fault (events : List ReadEvent) (capacity : Nat) (fault : Utf8.Fault)
    (pos : Position)
    (h : .error (fault.at pos) ∈ (ofSource (Source.ofEvents events capacity)).results) :
    ∃ (k : Nat) (done behind : List Char),
      let l := ((ofSource (Source.ofEvents events capacity)).requests k).2
      l.results = [.error (fault.at pos)] ∧ l.position = .after done ∧
        Utf8.firstFault? (events.flatMap ReadEvent.signals) = some (done ++ behind, fault) ∧
        (pos = .after (done ++ behind) ↔ ¬Scanner.AmidOperator behind) ∧
        (Scanner.AmidOperator behind → pos = .after (done ++ behind.dropLast)) := by
  have hline : 1 ≤ (ofSource (Source.ofEvents events capacity)).cursor.position.line :=
    Nat.le_refl 1
  obtain ⟨rs, first, hnears⟩ := Cursor.Nears.of_faults hline (faults_of_mem rfl hline h)
  have hfirst : Utf8.firstFault? (events.flatMap ReadEvent.signals) = some (rs, first) := by
    obtain ⟨ds, hds, rfl⟩ := hnears.pending
    exact hds
  obtain ⟨k, done, behind, rfl, hresults, hposition, rfl, hpos⟩ :=
    exists_requests_of_fault hnears rfl h
  have hpos : pos = .after (done ++ Scanner.reported behind) := hpos
  refine ⟨k, done, behind, hresults, hposition, hfirst, ?_, fun hamid => ?_⟩
  · rw [hpos]
    by_cases hamid : Scanner.AmidOperator behind
    · -- The last of the runes is not passed.
      obtain ⟨init, last, rfl⟩ : ∃ init last, behind = init ++ [last] :=
        (List.eq_nil_or_concat' behind).resolve_left (by
          rintro rfl
          exact Scanner.not_amidOperator_nil hamid)
      rw [Scanner.reported, if_pos hamid, List.dropLast_concat, ← List.append_assoc]
      exact iff_of_false (Position.after_append_ne _ (List.cons_ne_nil last [])).symm
        (not_not_intro hamid)
    · rw [Scanner.reported, if_neg hamid]
      exact iff_of_true rfl hamid
  · rwa [Scanner.reported, if_pos hamid] at hpos

/-- In `a<<` the second angle bracket is looked at behind the name, and not passed. -/
theorem position_of_fault_shift :
    .error ((Utf8.Fault.malformed [0xFF]).at ⟨1, 2⟩) ∈
        (ofSource (Source.ofEvents [.chunk [0x61, 0x3C, 0x3C, 0xFF]] 2)).results ∧
      ∃ (k : Nat) (done behind : List Char),
        let l :=
          ((ofSource (Source.ofEvents [.chunk [0x61, 0x3C, 0x3C, 0xFF]] 2)).requests k).2
        l.results = [.error ((Utf8.Fault.malformed [0xFF]).at ⟨1, 2⟩)] ∧
          l.position = .after done ∧
          Utf8.firstFault?
              ([ReadEvent.chunk [0x61, 0x3C, 0x3C, 0xFF]].flatMap ReadEvent.signals) =
            some (done ++ behind, .malformed [0xFF]) ∧
          ((⟨1, 2⟩ : Position) = .after (done ++ behind) ↔ ¬Scanner.AmidOperator behind) ∧
          (Scanner.AmidOperator behind →
            (⟨1, 2⟩ : Position) = .after (done ++ behind.dropLast)) := by
  have hmem : .error ((Utf8.Fault.malformed [0xFF]).at ⟨1, 2⟩) ∈
      (ofSource (Source.ofEvents [.chunk [0x61, 0x3C, 0x3C, 0xFF]] 2)).results := by
    decide +kernel
  exact ⟨hmem, position_of_fault _ 2 _ _ hmem⟩

/-- So the place of a `fault` is not always the position behind all runes `decoded`. -/
theorem position_of_fault_short :
    ¬∀ (events : List ReadEvent) (capacity : Nat) (fault : Utf8.Fault) (pos : Position),
      .error (fault.at pos) ∈ (ofSource (Source.ofEvents events capacity)).results →
        ∃ decoded, Utf8.firstFault? (events.flatMap ReadEvent.signals) = some (decoded, fault) ∧
          pos = .after decoded := by
  intro h
  have hmem : .error ((Utf8.Fault.malformed [0xFF]).at ⟨1, 1⟩) ∈
      (ofSource (Source.ofEvents [.chunk [0x3C, 0x3C, 0xFF]] 8192)).results := by
    decide +kernel
  obtain ⟨decoded, hfirst, hpos⟩ := h _ 8192 _ _ hmem
  have hdecoded :
      Utf8.firstFault? ([ReadEvent.chunk [0x3C, 0x3C, 0xFF]].flatMap ReadEvent.signals) =
        some (['<', '<'], .malformed [0xFF]) := by
    decide +kernel
  cases hdecoded.symm.trans hfirst
  revert hpos
  decide

end Lexer

end LexStream
