import LexStream.Scanner.Numeral
import LexStream.Proofs.Literals

/-!
# Scanning numerals

The scan of a numeral finds a whole number, a decimal number, or the second mark of a kind behind a
decimal number, which is then dropped.  The marks that the decimal step keeps say how often each
mark was taken (`Scanner.Marks.Count`).

Main facts:

* `Scanner.finds_numeral`: a scan that succeeds passes the runes of what it finds;
* `Scanner.faults_numeral`: a scan fails only where a rune cannot be decoded.
-/

namespace LexStream.Scanner

open Grammar

/-! ### The marks of a decimal number -/

/-- The `marks` kept are those that stand in the runes `ts` taken, each of them at most once. -/
structure Marks.Count (marks : Marks) (ts : List Char) : Prop where
  runes : ∀ r ∈ ts, r.isDigit = true ∨ r = '.' ∨ r = 'e'
  point : ts.count '.' = marks.point.toNat
  exponent : ts.count 'e' = marks.exponent.toNat

namespace Marks.Count

variable {marks : Marks} {ts : List Char}

theorem mem_point (h : marks.Count ts) : '.' ∈ ts ↔ marks.point = true := by
  rw [← List.count_pos_iff, h.point]
  cases marks.point <;> simp

theorem mem_exponent (h : marks.Count ts) : 'e' ∈ ts ↔ marks.exponent = true := by
  rw [← List.count_pos_iff, h.exponent]
  cases marks.exponent <;> simp

/-- Behind the digit `first`, the runes `ts` taken make a decimal numeral. -/
theorem decimal (h : marks.Count ts) {first : Char} (hfirst : first.isDigit = true) :
    Decimal (first :: ts) := by
  refine .intro hfirst h.runes ?_ ?_
  · rw [h.point]
    exact Bool.toNat_le _
  · rw [h.exponent]
    exact Bool.toNat_le _

/-- Behind the digit `first`, the `marks` kept tell the kind of the numeral. -/
theorem kind_eq (h : marks.Count ts) {first : Char} (hfirst : first.isDigit = true) :
    (if marks.point || marks.exponent then Token.float else .int) =
      if '.' ∈ first :: ts ∨ 'e' ∈ first :: ts then .float else .int := by
  have hpoint : '.' ≠ first := by rintro rfl; cases hfirst
  have hexponent : 'e' ≠ first := by rintro rfl; cases hfirst
  simp only [List.mem_cons, hpoint, hexponent, false_or, h.mem_point, h.mem_exponent,
    Bool.or_eq_true]

end Marks.Count

/-- A decimal number takes digits and marks, and keeps count of the marks in `Marks`. -/
theorem decimalStep_take {marks marks' : Marks} {r : Char}
    (h : decimalStep marks r = .take marks') :
    (r.isDigit = true ∨ r = '.' ∨ r = 'e') ∧
      marks'.point.toNat = marks.point.toNat + [r].count '.' ∧
      marks'.exponent.toNat = marks.exponent.toNat + [r].count 'e' := by
  unfold decimalStep at h
  split at h
  next hpoint =>
    split at h
    next => cases h
    next hnew =>
      cases h
      subst hpoint
      simp [hnew]
  next hpoint =>
    split at h
    next hexponent =>
      split at h
      next => cases h
      next hnew =>
        cases h
        subst hexponent
        simp [hnew]
    next hexponent =>
      split at h
      next hdigit =>
        cases h
        simp [hdigit, hpoint, hexponent]
      next => cases h

theorem takes_decimalStep {ts : List Char} {marks : Marks}
    (h : Run.Takes decimalStep {} ts marks) : marks.Count ts := by
  refine h.preserves (I := fun ts marks => Marks.Count marks ts) ?_ ?_
  · exact ⟨fun r hr => absurd hr List.not_mem_nil, rfl, rfl⟩
  · intro us marks r marks' hI hr
    obtain ⟨hclass, hpoint, hexponent⟩ := decimalStep_take hr
    refine ⟨fun r' hr' => ?_, ?_, ?_⟩
    · rcases List.mem_append.1 hr' with hr' | hr'
      · exact hI.runes r' hr'
      · obtain rfl := List.mem_singleton.1 hr'
        exact hclass
    · rw [List.count_append, hI.point, hpoint]
    · rw [List.count_append, hI.exponent, hexponent]

/-- A decimal number stops at a mark that `marks` holds already. -/
theorem decimalStep_stop {marks : Marks} {r : Char} (h : decimalStep marks r = .stop) :
    (r = '.' ∧ marks.point = true) ∨ (r = 'e' ∧ marks.exponent = true) := by
  unfold decimalStep at h
  split at h
  next hpoint =>
    split at h
    next hmark => exact .inl ⟨hpoint, hmark⟩
    next => cases h
  next =>
    split at h
    next hexponent =>
      split at h
      next hmark => exact .inr ⟨hexponent, hmark⟩
      next => cases h
    next => split at h <;> cases h

/-! ### Decimal numbers -/

variable {σ : Type} [ByteSource σ] {c c' : Cursor σ} {start : Position} {first : Char}
  {found : Finding} {e : LexError}

/-- A rune `r` that is no newline stands one column before the position behind it. -/
theorem advance_col_sub_one {p : Position} {r : Char} (hr : r ≠ '\n') :
    ({ p.advance r with col := (p.advance r).col - 1 } : Position) = p := by
  simp [Position.advance, hr]

theorem singleton_append_ofList (r : Char) (rs : List Char) :
    String.singleton r ++ String.ofList rs = String.ofList (r :: rs) :=
  (String.ofList_cons).symm

/-- The scan `decimal` that succeeds passes the runes of what it finds.  With `'0'` as its first
rune it is chosen only if a point comes next. -/
theorem finds_decimal (hfirst : first.isDigit = true) (hline : 1 ≤ c.position.line)
    (hpos : c.position = start.advance first)
    (hzero : first = '0' → ∃ la, c.lookahead = '.' :: la)
    (h : (decimal start first).run c = (.ok found, c')) : Finds start [first] c found c' := by
  obtain ⟨run, c₁, hrun, hend⟩ := Scan.run_bind_eq_ok h
  obtain ⟨ts, htakes, htaken, hout⟩ := Run.outcome_scan hline hrun
  have hcount := takes_decimalStep htakes
  have hdecimal := hcount.decimal hfirst
  rw [htaken, singleton_append_ofList] at hend
  dsimp only at hend
  split at hend
  next r hr =>
    rw [hr] at hout
    cases hout with
    | stopped hstop hp =>
      rw [Scan.run_bind_ok (Scan.run_position _)] at hend
      cases hend
      have hmark : (r = '.' ∨ r = 'e') ∧ r ∈ first :: ts := by
        rcases decimalStep_stop hstop with ⟨rfl, hpoint⟩ | ⟨rfl, hexponent⟩
        · exact ⟨.inl rfl, List.mem_cons_of_mem _ (hcount.mem_point.2 hpoint)⟩
        · exact ⟨.inr rfl, List.mem_cons_of_mem _ (hcount.mem_exponent.2 hexponent)⟩
      -- The cursor stands behind the mark, and the mark behind the numeral.
      have hhere : c'.caret.toPosition = (start.advanceAll (first :: ts)).advance r := by
        show c'.position = _
        rw [hp.position, hpos, Position.advanceAll_append]
        rfl
      have hnewline : r ≠ '\n' := by
        rcases hmark.1 with rfl | rfl <;> decide
      refine ⟨ts ++ [r], hp, ?_⟩
      rw [hhere, advance_col_sub_one hnewline]
      exact .repeatedMark hdecimal hmark.1 hmark.2
  next hne =>
    cases hend
    refine ⟨ts, hout.passes hne, ?_⟩
    rw [hcount.kind_eq hfirst]
    refine .lexeme (.decimal hdecimal fun hfirst => ?_)
    obtain ⟨la, hla⟩ := hzero hfirst
    exact hout.head? htakes hla rfl

theorem faults_decimal (h : (decimal start first).run c = (.error e, c')) : c.Faults e := by
  rcases Scan.run_bind_eq_error h with hrun | ⟨run, c₁, hrun, hend⟩
  · exact Run.faults_scan hrun
  · dsimp only at hend
    split at hend
    next => rw [Scan.run_bind_ok (Scan.run_position _)] at hend; cases hend
    next => cases hend

/-! ### Whole numbers -/

theorem passes_wholeIn {base : Nat} {lead : List Char} (hline : 1 ≤ c.position.line)
    (h : (wholeIn base start lead).run c = (.ok found, c')) :
    ∃ ds, (∀ r ∈ ds, Text.isDigitIn base r = true) ∧ c.Passes ds c' ∧
      found = .ofToken start .int (String.ofList (lead ++ ds)) := by
  obtain ⟨digits, hrun, rfl⟩ := Scan.run_bind_pure_eq_ok h
  obtain ⟨ds, rfl, hds, hp⟩ := Run.passes_scanClass hline hrun
  exact ⟨ds, hds, hp, by rw [String.ofList_append]⟩

theorem faults_wholeIn {base : Nat} {lead : List Char}
    (h : (wholeIn base start lead).run c = (.error e, c')) : c.Faults e :=
  Run.faults_scanClass (Scan.run_bind_pure_eq_error h)

theorem isDigitIn_ten {r : Char} (h : r.isDigit = true) : Text.isDigitIn 10 r = true := by
  have hrange : 48 ≤ r.val ∧ r.val ≤ 57 := by simpa [Char.isDigit] using h
  have hhigh : r ≤ '9' := hrange.2
  have hnat : r.toNat ≤ '9'.toNat := hhigh
  have h57 : '9'.toNat = 57 := rfl
  rw [Text.isDigitIn, Text.digitValue?_of_isDigit h]
  simp only [decide_eq_true_eq]
  omega

/-- Letters are worth ten at least, so the digits of base ten are those with `isDigit`. -/
theorem isDigit_of_isDigitIn_ten {r : Char} (h : Text.isDigitIn 10 r = true) :
    r.isDigit = true := by
  unfold Text.isDigitIn Text.digitValue? at h
  split at h
  next value hvalue =>
    split at hvalue
    next hdigit => simpa [Char.isDigit, Char.le_def] using hdigit
    next =>
      split at hvalue
      next hlower =>
        simp only [Bool.and_eq_true, decide_eq_true_eq] at hlower
        have hnat : 'a'.toNat ≤ r.toNat := hlower.1
        have ha : 'a'.toNat = 97 := rfl
        cases hvalue
        simp only [decide_eq_true_eq] at h
        omega
      next =>
        split at hvalue
        next hupper =>
          simp only [Bool.and_eq_true, decide_eq_true_eq] at hupper
          have hnat : 'A'.toNat ≤ r.toNat := hupper.1
          have hA : 'A'.toNat = 65 := rfl
          cases hvalue
          simp only [decide_eq_true_eq] at h
          omega
        next => cases hvalue
  next => cases h

theorem finds_zeroLed (hline : 1 ≤ c.position.line)
    (h : (zeroLed start).run c = (.ok found, c')) : Finds start ['0'] c found c' := by
  obtain ⟨r?, c₁, hnext, hrest⟩ := Scan.run_bind_eq_ok h
  have hzero : Whole ['0'] := .decimal fun r hr => absurd hr List.not_mem_nil
  cases r? with
  | none =>
    cases hrest
    exact ⟨[], (Cursor.ends_nextRune hnext).1.passes, .lexeme (.whole hzero)⟩
  | some r =>
    have hp := (Cursor.passes_nextRune hnext).1
    have hline₁ := hp.one_le_line hline
    dsimp only at hrest
    split at hrest
    next hmark =>
      obtain ⟨ds, hds, hp', rfl⟩ := passes_wholeIn hline₁ hrest
      exact ⟨[r] ++ ds, hp.trans hp', .lexeme (.whole (.binary (by simpa using hmark) hds))⟩
    next =>
      split at hrest
      next hmark =>
        obtain ⟨ds, hds, hp', rfl⟩ := passes_wholeIn hline₁ hrest
        exact ⟨[r] ++ ds, hp.trans hp', .lexeme (.whole (.hexadecimal (by simpa using hmark) hds))⟩
      next =>
        split at hrest
        next hdigit =>
          obtain ⟨ds, hds, hp', rfl⟩ := passes_wholeIn hline₁ hrest
          refine ⟨[r] ++ ds, hp.trans hp', .lexeme (.whole (.decimal fun r' hr' => ?_))⟩
          rcases List.mem_cons.1 hr' with rfl | hr'
          · exact isDigitIn_ten hdigit
          · exact hds r' hr'
        next =>
          rw [Scan.run_bind_ok (Scan.run_move _ _)] at hrest
          cases hrest
          exact ⟨[], Cursor.passes_backup hline hnext, .lexeme (.whole hzero)⟩

theorem faults_zeroLed (h : (zeroLed start).run c = (.error e, c')) : c.Faults e := by
  rcases Scan.run_bind_eq_error h with hnext | ⟨r?, c₁, hnext, hrest⟩
  · exact Cursor.faults_nextRune hnext
  · cases r? with
    | none => cases hrest
    | some r =>
      refine .of_passes (Cursor.passes_nextRune hnext).1 ?_
      dsimp only at hrest
      split at hrest
      next => exact faults_wholeIn hrest
      next =>
        split at hrest
        next => exact faults_wholeIn hrest
        next =>
          split at hrest
          next => exact faults_wholeIn hrest
          next => rw [Scan.run_bind_ok (Scan.run_move _ _)] at hrest; cases hrest

/-! ### Numerals -/

/-- The scan of a `numeral` that succeeds passes the runes of what it finds. -/
theorem finds_numeral (hfirst : first.isDigit = true) (hline : 1 ≤ c.position.line)
    (hpos : c.position = start.advance first)
    (h : (numeral start first).run c = (.ok found, c')) : Finds start [first] c found c' := by
  unfold numeral at h
  split at h
  next hzero =>
    subst hzero
    obtain ⟨seen, c₁, hpeek, hrest⟩ := Scan.run_bind_eq_ok h
    have hp := (Cursor.passes_peekNth hpeek).1
    have hline₁ := hp.one_le_line hline
    have hseen := (Cursor.passes_peekNth hpeek).2.2.1
    have hrest : Finds start ['0'] c₁ found c' := by
      split at hrest
      next =>
        refine finds_decimal hfirst hline₁ (hp.position.trans hpos) (fun _ => ?_) hrest
        rw [← List.head?_eq_getElem?] at hseen
        exact List.head?_eq_some_iff.1 hseen.symm
      next => exact finds_zeroLed hline₁ hrest
    obtain ⟨rs, hp', hfound⟩ := hrest
    exact ⟨[] ++ rs, hp.trans hp', hfound⟩
  next hzero => exact finds_decimal hfirst hline hpos (fun hfirst => absurd hfirst hzero) h

/-- The scan of a `numeral` fails only where a rune cannot be decoded. -/
theorem faults_numeral (h : (numeral start first).run c = (.error e, c')) : c.Faults e := by
  unfold numeral at h
  split at h
  next =>
    rcases Scan.run_bind_eq_error h with hpeek | ⟨seen, c₁, hpeek, hrest⟩
    · exact Cursor.faults_peekNth hpeek
    · refine .of_passes (Cursor.passes_peekNth hpeek).1 ?_
      split at hrest
      next => exact faults_decimal hrest
      next => exact faults_zeroLed hrest
  next => exact faults_decimal h

end LexStream.Scanner
