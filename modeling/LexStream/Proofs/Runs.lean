import LexStream.Run
import LexStream.Proofs.Grammar
import LexStream.Proofs.Passage

/-!
# What a run passes

The loop of a scan, said without the loop.  `Run.Takes step s ts s'` says that a step takes the
runes `ts` one by one on its way from the state `s` to `s'`, and `Run.Outcome` how a run that has
taken them came to its end.  Every run that is over has such an outcome, and every other one failed
to decode a rune.

A step decides a property of rows of runes (`Run.Decides`) when it stops at a rune exactly if the
row up to this rune has the property.  Where its run stops, it has found the shortest such row, and
where the input ends before, no row that was passed has the property.

Main facts:

* `Run.outcome_scan`, `Run.faults_scan`: what a run passes, and how it fails;
* `Run.Decides.shortest`, `Run.Decides.never`: what the end of a run says about the runes it took.
-/

namespace LexStream.Run

variable {τ : Type}

/-! ### The runes that a step takes -/

/-- The `step` takes the runes one by one and goes from state to state meanwhile. -/
inductive Takes (step : τ → Char → Verdict τ) : τ → List Char → τ → Prop
  | refl (s : τ) : Takes step s [] s
  | cons {s s' s'' : τ} {r : Char} {rs : List Char} (hr : step s r = .take s')
      (hrs : Takes step s' rs s'') : Takes step s (r :: rs) s''

namespace Takes

variable {step : τ → Char → Verdict τ}

theorem split {s s'' : τ} {ts us : List Char} (h : Takes step s (ts ++ us) s'') :
    ∃ s', Takes step s ts s' ∧ Takes step s' us s'' := by
  induction ts generalizing s with
  | nil => exact ⟨s, .refl s, h⟩
  | cons t ts ih =>
    cases h with
    | cons ht hts =>
      obtain ⟨s', hs', hus⟩ := ih hts
      exact ⟨s', .cons ht hs', hus⟩

/-- What holds of the state `init`, and still holds after each rune that is taken, holds at the end:
`I` is an invariant of runs. -/
theorem preserves {I : List Char → τ → Prop} {init last : τ} {ts : List Char} (hinit : I [] init)
    (hstep : ∀ {us s r s'}, I us s → step s r = .take s' → I (us ++ [r]) s')
    (h : Takes step init ts last) : I ts last := by
  have hgen : ∀ {us s}, I us s → Takes step s ts last → I (us ++ ts) last := by
    clear h
    intro us s hI h
    induction h generalizing us with
    | refl s => rwa [List.append_nil]
    | cons hr _ ih =>
      have := ih (hstep hI hr)
      rwa [List.append_assoc] at this
  exact hgen hinit h

/-- A `step` that takes only the runes of a class `p` has taken only such runes. -/
theorem forall_mem {p : Char → Prop} {s s' : τ} {ts : List Char} (h : Takes step s ts s')
    (hp : ∀ {s r s'}, step s r = .take s' → p r) : ∀ r ∈ ts, p r := by
  induction h with
  | refl => intro r hr; cases hr
  | cons hr _ ih =>
    intro r' hr'
    rcases List.mem_cons.1 hr' with rfl | hmem
    · exact hp hr
    · exact ih r' hmem

end Takes

/-! ### The end of a run -/

variable {σ : Type} [ByteSource σ]

/-- How a run that took the runes `ts` behind the cursor `c` and reached `state` came to its end at
the cursor `c'`. -/
inductive Outcome (step : τ → Char → Verdict τ) (state : τ) (c : Cursor σ) (ts : List Char)
    (c' : Cursor σ) : Ending → Prop
  | stopped {r : Char} (hr : step state r = .stop) (hp : c.Passes (ts ++ [r]) c') :
      Outcome step state c ts c' (.stopped r)
  | left {r : Char} {rs : List Char} (hr : step state r = .leave) (hp : c.Passes ts c')
      (hnext : c'.lookahead = r :: rs) : Outcome step state c ts c' .left
  | exhausted (hends : c.Ends ts c') (hnext : c'.lookahead = []) :
      Outcome step state c ts c' .exhausted

theorem Outcome.of_passes {step : τ → Char → Verdict τ} {state : τ} {c c₁ c' : Cursor σ}
    {rs ts : List Char} {ending : Ending} (hp : c.Passes rs c₁)
    (h : Outcome step state c₁ ts c' ending) : Outcome step state c (rs ++ ts) c' ending := by
  cases h with
  | stopped hr h₁ =>
    refine .stopped hr ?_
    rw [List.append_assoc]
    exact hp.trans h₁
  | left hr h₁ hnext => exact .left hr (hp.trans h₁) hnext
  | exhausted hends hnext => exact .exhausted (hends.of_passes hp) hnext

/-- A run that has not `stopped` at a rune has passed just the runes `ts` it took. -/
theorem Outcome.passes {step : τ → Char → Verdict τ} {state : τ} {c c' : Cursor σ}
    {ts : List Char} {ending : Ending} (h : Outcome step state c ts c' ending)
    (hne : ∀ r, ending ≠ .stopped r) : c.Passes ts c' := by
  cases h with
  | stopped => exact absurd rfl (hne _)
  | left _ hp _ => exact hp
  | exhausted hends _ => exact hends.passes

/-- A run whose `step` takes the rune `r` that is looked at next has taken it first. -/
theorem Outcome.head? {step : τ → Char → Verdict τ} {init state next : τ} {c c' : Cursor σ}
    {ts la : List Char} {ending : Ending} {r : Char} (h : Outcome step state c ts c' ending)
    (htakes : Takes step init ts state) (hla : c.lookahead = r :: la)
    (hr : step init r = .take next) : ts.head? = some r := by
  cases htakes with
  | refl =>
    -- Nothing was taken, so the step has not taken the rune that came next.
    cases h with
    | stopped hstop hp =>
      rw [hp.eq_of_lookahead hla, hr] at hstop
      cases hstop
    | left hleave hp hnext =>
      obtain ⟨ds, -, hs⟩ := hp.stream
      rw [hla, hnext] at hs
      rw [← (List.cons.inj hs).1, hr] at hleave
      cases hleave
    | exhausted hends hnext =>
      obtain ⟨ds, -, hs⟩ := hends.passes.stream
      rw [hla, hnext] at hs
      cases hs
  | cons =>
    cases h with
    | stopped _ hp => rw [hp.eq_of_lookahead hla]; rfl
    | left _ hp _ => rw [hp.eq_of_lookahead hla]; rfl
    | exhausted hends _ => rw [hends.passes.eq_of_lookahead hla]; rfl

theorem outcome_goOn {step : τ → Char → Verdict τ} {state : τ} {taken : String} {c c' : Cursor σ}
    {run : Run τ} (hline : 1 ≤ c.position.line)
    (h : (goOn step state taken).run c = (.ok run, c')) :
    ∃ ts, Takes step state ts run.state ∧ run.taken = taken ++ String.ofList ts ∧
      Outcome step run.state c ts c' run.ending := by
  unfold Scan.run at h
  fun_induction goOn step state taken c with
  -- The rune is taken, and the rest of the run has an outcome behind it.
  | case1 state taken c r c₁ hnext next hr ih =>
    have hp := (Cursor.passes_nextRune hnext).1
    obtain ⟨ts, htakes, htaken, hout⟩ := ih (hp.one_le_line hline) h
    refine ⟨r :: ts, .cons hr htakes, ?_, hout.of_passes hp⟩
    rw [htaken, String.ofList_cons, String.push_eq_append, String.append_assoc]
  | case2 state taken c r c₁ hnext hr =>
    cases h
    have hp := (Cursor.passes_nextRune hnext).1
    exact ⟨[], .refl _, by simp, .stopped hr hp⟩
  -- The rune is put back, so nothing is passed.
  | case3 state taken c r c₁ hnext hr =>
    cases h
    have hp := Cursor.passes_backup hline hnext
    exact ⟨[], .refl _, by simp, .left hr hp rfl⟩
  | case4 state taken c c₁ hnext =>
    cases h
    obtain ⟨hends, hnil⟩ := Cursor.ends_nextRune hnext
    exact ⟨[], .refl _, by simp, .exhausted hends hnil⟩
  | case5 => cases h

theorem faults_goOn {step : τ → Char → Verdict τ} {state : τ} {taken : String} {c c' : Cursor σ}
    {e : LexError} (h : (goOn step state taken).run c = (.error e, c')) : c.Faults e := by
  unfold Scan.run at h
  fun_induction goOn step state taken c with
  | case1 state taken c r c₁ hnext next hr ih =>
    exact (ih h).of_passes (Cursor.passes_nextRune hnext).1
  | case2 => cases h
  | case3 => cases h
  | case4 => cases h
  | case5 state taken c e' c₁ hnext =>
    cases h
    exact Cursor.faults_nextRune hnext

/-- A run that is over has taken runes `ts` one by one and came to its end behind them. -/
theorem outcome_scan {step : τ → Char → Verdict τ} {init : τ} {c c' : Cursor σ} {run : Run τ}
    (hline : 1 ≤ c.position.line) (h : (scan step init).run c = (.ok run, c')) :
    ∃ ts, Takes step init ts run.state ∧ run.taken = String.ofList ts ∧
      Outcome step run.state c ts c' run.ending := by
  obtain ⟨ts, htakes, htaken, hout⟩ := outcome_goOn hline h
  exact ⟨ts, htakes, by simpa using htaken, hout⟩

/-- A run by `scan` fails only where a rune cannot be decoded. -/
theorem faults_scan {step : τ → Char → Verdict τ} {init : τ} {c c' : Cursor σ} {e : LexError}
    (h : (scan step init).run c = (.error e, c')) : c.Faults e :=
  faults_goOn h

/-! ### Rows of a class -/

theorem ofClass_take {p : Char → Bool} {s s' : Unit} {r : Char} (h : ofClass p s r = .take s') :
    p r = true := by
  unfold ofClass at h
  split at h
  next hr => exact hr
  next => cases h

/-- A row of the class `p` is passed, and read as the text that it is. -/
theorem passes_scanClass {p : Char → Bool} {c c' : Cursor σ} {text : String}
    (hline : 1 ≤ c.position.line) (h : (scanClass p).run c = (.ok text, c')) :
    ∃ ts, text = String.ofList ts ∧ (∀ r ∈ ts, p r = true) ∧ c.Passes ts c' := by
  obtain ⟨run, hrun, rfl⟩ := Scan.run_bind_pure_eq_ok h
  obtain ⟨ts, htakes, htaken, hout⟩ := outcome_scan hline hrun
  refine ⟨ts, htaken, htakes.forall_mem ofClass_take, hout.passes ?_⟩
  intro r hr
  -- The step of a class never stops.
  rw [hr] at hout
  cases hout with
  | stopped hstop _ =>
    unfold ofClass at hstop
    split at hstop <;> cases hstop

theorem faults_scanClass {p : Char → Bool} {c c' : Cursor σ} {e : LexError}
    (h : (scanClass p).run c = (.error e, c')) : c.Faults e :=
  faults_scan (Scan.run_bind_pure_eq_error h)

/-! ### Steps that decide a property -/

/-- The step, from the state `init` on, stops at a rune exactly if the row up to this rune has the
property `P`, and leaves no rune unread. -/
structure Decides (step : τ → Char → Verdict τ) (init : τ) (P : List Char → Prop) : Prop where
  not_nil : ¬P []
  stop_iff {ts : List Char} {s : τ} (r : Char) (h : Takes step init ts s) :
    step s r = .stop ↔ P (ts ++ [r])
  not_leave (s : τ) (r : Char) : step s r ≠ .leave

namespace Decides

variable {step : τ → Char → Verdict τ} {init s : τ} {P : List Char → Prop} {ts : List Char}

/-- If all runes of `ts` are taken, no first part of `ts` has the property `P`. -/
theorem never (hdec : Decides step init P) (h : Takes step init ts s) : Grammar.Never P ts := by
  rintro u ⟨v, rfl⟩ hu
  rcases List.eq_nil_or_concat u with rfl | ⟨u, r, rfl⟩
  · exact hdec.not_nil hu
  · rw [List.concat_eq_append] at h hu
    rw [List.append_assoc] at h
    obtain ⟨s', hs', hv⟩ := h.split
    -- The step stops at the last rune of such a row and so cannot take it.
    have hstop := (hdec.stop_iff r hs').2 hu
    cases hv with
    | cons hr _ => rw [hstop] at hr; cases hr

/-- A run that stops at `r` has found the shortest row with the property `P`. -/
theorem shortest (hdec : Decides step init P) (h : Takes step init ts s) {r : Char}
    (hr : step s r = .stop) : Grammar.Shortest P (ts ++ [r]) := by
  refine ⟨(hdec.stop_iff r h).1 hr, fun u hu hP => ?_⟩
  rcases List.prefix_concat_iff.1 (by simpa using hu) with hu | hu
  · simpa using hu
  · exact absurd hP (hdec.never h u hu)

end Decides

end LexStream.Run
