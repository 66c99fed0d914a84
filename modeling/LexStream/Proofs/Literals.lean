import LexStream.Scanner.Literal
import LexStream.Proofs.Grammar
import LexStream.Proofs.Runs

/-!
# Scanning literals

A scan of a literal finds the shortest row of runes that ends it.  Each of the steps decides the
property of rows that the grammar names: the string step keeps the rune before the next one, and the
payload step the number of brackets that are open.

`Scanner.Finds` and `Scanner.Fails` say how the scan of any token ends: it passes the runes of what
it finds, or it fails because a rune cannot be decoded or because the text holds an incomplete
literal.

Main facts:

* `Scanner.decides_stringStep`, `Scanner.decides_templateStep`, `Scanner.decides_payloadStep`: the
  steps decide where a literal ends;
* `Scanner.finds_string`, `Scanner.finds_template`, `Scanner.finds_structured`: a scan that succeeds
  finds a complete literal;
* `Scanner.fails_string`, `Scanner.fails_template`, `Scanner.fails_structured`: in a text, one that
  does not stands in front of an incomplete literal.
-/

namespace LexStream.Scanner

open Grammar

/-! ### Steps of literals -/

theorem takes_stringStep {ts : List Char} {s : Option Char}
    (h : Run.Takes stringStep none ts s) : s = ts.getLast? := by
  refine h.preserves (I := fun ts s => s = ts.getLast?) rfl fun {us s r s'} hI hr => ?_
  unfold stringStep at hr
  split at hr
  next => cases hr
  next => cases hr; simp

theorem decides_stringStep : Run.Decides stringStep none EndsString where
  not_nil := by
    rintro ⟨inside, h, -⟩
    simp at h
  stop_iff {ts s} r h := by
    obtain rfl := takes_stringStep h
    have hends : EndsString (ts ++ [r]) ↔ r = '"' ∧ ts.getLast? ≠ some '\\' := by
      constructor
      · rintro ⟨inside, hv, hlast⟩
        obtain ⟨rfl, hr⟩ := List.append_inj' hv rfl
        exact ⟨by simpa using hr, hlast⟩
      · rintro ⟨rfl, hlast⟩
        exact ⟨ts, rfl, hlast⟩
    rw [hends]
    unfold stringStep
    split <;> simp_all
  not_leave s r := by
    unfold stringStep
    split <;> simp

theorem decides_templateStep : Run.Decides templateStep () EndsTemplate where
  not_nil := by simp [EndsTemplate]
  stop_iff {ts s} r _ := by
    unfold templateStep EndsTemplate
    split <;> simp_all
  not_leave s r := by
    unfold templateStep
    split <;> simp

theorem tagStep_take {s s' : Unit} {r : Char} (h : tagStep s r = .take s') :
    Rune.isAlphabetic r = true := by
  unfold tagStep at h
  split at h
  next hr => exact hr
  next => cases h

theorem tagStep_stop {s : Unit} {r : Char} (h : tagStep s r = .stop) :
    Rune.isAlphabetic r = false := by
  unfold tagStep at h
  split at h
  next => cases h
  next hr => exact eq_false_of_ne_true hr

theorem tagStep_ne_leave (s : Unit) (r : Char) : tagStep s r ≠ .leave := by
  unfold tagStep
  split <;> simp

theorem payloadStep_stop_iff {opener closer r : Char} {depth : Nat} :
    payloadStep opener closer depth r = .stop ↔ r = closer ∧ depth = 1 := by
  unfold payloadStep
  split <;> split <;> simp_all

theorem payloadStep_ne_leave (opener closer : Char) (depth : Nat) (r : Char) :
    payloadStep opener closer depth r ≠ .leave := by
  unfold payloadStep
  split
  · split <;> simp
  · split <;> simp

/-- Between brackets that differ, `depth` is the number of brackets that are open, of which one
stays open until the run stops. -/
theorem takes_payloadStep_of_ne {opener closer : Char} {ts : List Char} {depth : Nat}
    (hne : opener ≠ closer) (h : Run.Takes (payloadStep opener closer) 1 ts depth) :
    1 ≤ depth ∧ depth + ts.count closer = 1 + ts.count opener := by
  refine h.preserves (I := fun ts depth => 1 ≤ depth ∧
    depth + ts.count closer = 1 + ts.count opener) ⟨Nat.le_refl 1, rfl⟩ ?_
  intro us depth r depth' hI hr
  obtain ⟨hpos, hcount⟩ := hI
  have hone : 1 ≤ depth' ∧ depth' + [r].count closer = depth + [r].count opener := by
    unfold payloadStep at hr
    split at hr
    next hcloser =>
      subst hcloser
      split at hr
      next => cases hr
      next =>
        cases hr
        simp only [List.count_singleton, beq_iff_eq, if_true, Ne.symm hne, if_false]
        omega
    next hcloser =>
      split at hr
      next hopener =>
        cases hr
        subst hopener
        simp only [List.count_singleton, beq_iff_eq, if_true, hne, if_false, and_true]
        omega
      next hopener =>
        cases hr
        simp only [List.count_singleton, beq_iff_eq, hcloser, hopener, if_false, and_true]
        exact hpos
  rw [List.count_append, List.count_append]
  omega

/-- Where opener and closer are the same rune `bracket`, the `depth` never changes. -/
theorem takes_payloadStep_self {bracket : Char} {ts : List Char} {depth : Nat}
    (h : Run.Takes (payloadStep bracket bracket) 1 ts depth) : depth = 1 := by
  refine h.preserves (I := fun _ depth => depth = 1) rfl ?_
  intro us depth r depth' hI hr
  unfold payloadStep at hr
  split at hr
  next => cases hr
  next => cases hr; exact hI

theorem decides_payloadStep (opener closer : Char) :
    Run.Decides (payloadStep opener closer) 1 (EndsPayload opener closer) where
  not_nil := by
    unfold EndsPayload
    split <;> simp
  stop_iff {ts depth} r h := by
    rw [payloadStep_stop_iff]
    unfold EndsPayload
    by_cases hsame : opener = closer
    · subst hsame
      obtain rfl := takes_payloadStep_self h
      simp
    · obtain ⟨hpos, hcount⟩ := takes_payloadStep_of_ne hsame h
      rw [if_neg hsame]
      simp only [List.count_append, List.count_singleton, beq_iff_eq]
      -- Another rune than the closer cannot balance the brackets, since one is still open.
      by_cases hcloser : r = closer
      · have : r ≠ opener := fun heq => hsame (heq.symm.trans hcloser)
        simp only [hcloser, if_true, Ne.symm hsame, if_false, true_and]
        omega
      · simp only [hcloser, if_false, false_and, false_iff]
        omega
  not_leave := payloadStep_ne_leave opener closer

/-! ### How a scan ends -/

variable {σ : Type} [ByteSource σ]

/-- A scan that started at `start` and had passed the runes `seen` up to the cursor `c` passes the
rest of what it finds. -/
def Finds (start : Position) (seen : List Char) (c : Cursor σ) (found : Finding)
    (c' : Cursor σ) : Prop :=
  ∃ rs, c.Passes rs c' ∧ Found start (seen ++ rs) found

/-- How a scan that started at `start` and had passed the runes `seen` up to the cursor `c`
fails. -/
inductive Fails (start : Position) (seen : List Char) (c : Cursor σ) (e : LexError) : Prop
  /-- A rune behind `c` cannot be decoded. -/
  | decoding (h : c.Faults e)
  /-- The input ends in an incomplete literal, behind the runes `rs`. -/
  | ended {rs : List Char} {c' : Cursor σ} (h : c.Ends rs c') (hnext : c'.lookahead = [])
      (hbroken : Broken start (seen ++ rs) e)
  /-- A literal has gone wrong at the last of `rs`, whatever follows. -/
  | wrong {rs : List Char} {c' : Cursor σ} (h : c.Passes rs c')
      (hbroken : ∀ rest, Broken start (seen ++ rs ++ rest) e)

namespace Fails

variable {start : Position} {seen rs : List Char} {e : LexError}

theorem of_passes {c c₁ : Cursor σ} (hp : c.Passes rs c₁) (h : Fails start (seen ++ rs) c₁ e) :
    Fails start seen c e := by
  cases h with
  | decoding h => exact .decoding (h.of_passes hp)
  | ended h hnext hbroken =>
    refine .ended (h.of_passes hp) hnext ?_
    rwa [← List.append_assoc]
  | wrong h hbroken =>
    refine .wrong (hp.trans h) fun rest => ?_
    rw [← List.append_assoc]
    exact hbroken rest

/-- A failure is reported at a position that the scan can reach from `start`. -/
theorem position? {c : Cursor σ} (hpos : c.position = start.advanceAll seen)
    (h : Fails start seen c e) : ∃ rs, e.position? = some (start.advanceAll rs) := by
  cases h with
  | decoding h =>
    obtain ⟨rs, hrs⟩ := h.position?
    refine ⟨seen ++ rs, ?_⟩
    rw [hrs, hpos, Position.advanceAll_append]
  | ended _ _ hbroken => exact ⟨[], hbroken.position?⟩
  | wrong _ hbroken => exact ⟨[], (hbroken []).position?⟩

/-- In a text only a `Broken` literal makes a scan fail. -/
theorem broken {c : Cursor Source} {rest : List Char} (hc : c.Holds rest)
    (h : Fails start seen c e) : Broken start (seen ++ rest) e := by
  cases h with
  | decoding h => exact absurd h hc.not_faults
  | ended h hnext hbroken =>
    obtain ⟨hrest, -⟩ := hc.ends h
    rwa [hrest, hnext, List.append_nil]
  | wrong h hbroken =>
    obtain ⟨rest', rfl, -⟩ := hc.passes h
    rw [← List.append_assoc]
    exact hbroken rest'

end Fails

/-! ### Runs that need an end -/

section UntilStopped

variable {τ : Type} {kind : LiteralKind} {start : Position} {step : τ → Char → Verdict τ} {init : τ}
  {c c' : Cursor σ}

theorem passes_untilStopped {text : String} {r : Char} (hline : 1 ≤ c.position.line)
    (h : (untilStopped kind start step init).run c = (.ok (text, r), c')) :
    ∃ ts s, Run.Takes step init ts s ∧ step s r = .stop ∧ text = String.ofList ts ∧
      c.Passes (ts ++ [r]) c' := by
  obtain ⟨run, c₁, hrun, hend⟩ := Scan.run_bind_eq_ok h
  obtain ⟨ts, htakes, htaken, hout⟩ := Run.outcome_scan hline hrun
  split at hend
  next r' hr =>
    cases hend
    rw [hr] at hout
    cases hout with
    | stopped hstop hp => exact ⟨ts, _, htakes, hstop, htaken, hp⟩
  next => cases hend

theorem fails_untilStopped {e : LexError} (hline : 1 ≤ c.position.line)
    (hleave : ∀ s r, step s r ≠ .leave)
    (h : (untilStopped kind start step init).run c = (.error e, c')) :
    c.Faults e ∨ ∃ ts s, Run.Takes step init ts s ∧ e = .unterminated kind start ∧
      c.Ends ts c' ∧ c'.lookahead = [] := by
  rcases Scan.run_bind_eq_error h with hrun | ⟨run, c₁, hrun, hend⟩
  · exact .inl (Run.faults_scan hrun)
  · obtain ⟨ts, htakes, -, hout⟩ := Run.outcome_scan hline hrun
    right
    split at hend
    next => cases hend
    next hne =>
      cases hend
      generalize run.ending = ending at hout hne
      cases hout with
      | stopped => exact absurd rfl (hne _)
      | left hr _ _ => exact absurd hr (hleave _ _)
      | exhausted hends hnext => exact ⟨ts, _, htakes, rfl, hends, hnext⟩

/-- An `untilStopped` whose step decides `P` passes the shortest row `v` that has it. -/
theorem passes_untilStopped_of_decides {P : List Char → Prop} (hdec : Run.Decides step init P)
    {text : String} {r : Char} (hline : 1 ≤ c.position.line)
    (h : (untilStopped kind start step init).run c = (.ok (text, r), c')) :
    ∃ v, Shortest P v ∧ text.push r = String.ofList v ∧ c.Passes v c' := by
  obtain ⟨ts, s, htakes, hstop, rfl, hp⟩ := passes_untilStopped hline h
  refine ⟨ts ++ [r], hdec.shortest htakes hstop, ?_, hp⟩
  rw [String.ofList_append, String.push_eq_append, String.singleton_eq_ofList]

/-- An `untilStopped` whose step decides `P` fails where the input ends and no row had it. -/
theorem fails_untilStopped_of_decides {P : List Char → Prop} (hdec : Run.Decides step init P)
    {e : LexError} (hline : 1 ≤ c.position.line)
    (h : (untilStopped kind start step init).run c = (.error e, c')) :
    c.Faults e ∨ ∃ v, Never P v ∧ e = .unterminated kind start ∧ c.Ends v c' ∧
      c'.lookahead = [] := by
  rcases fails_untilStopped hline hdec.not_leave h with hf | ⟨ts, s, htakes, he, hends, hnext⟩
  · exact .inl hf
  · exact .inr ⟨ts, hdec.never htakes, he, hends, hnext⟩

end UntilStopped

/-! ### Strings and templates -/

variable {start : Position} {c c' : Cursor σ} {found : Finding} {e : LexError}

section OneRun

variable {τ : Type} {kind : LiteralKind} {step : τ → Char → Verdict τ} {init : τ}
  {P : List Char → Prop} {sentinel : Char} {lead : String}

/-- A literal that is one run behind its `sentinel` is complete where the run stops. -/
theorem finds_oneRun (hdec : Run.Decides step init P) (hlead : lead = String.ofList [sentinel])
    (hliteral : ∀ {v}, Shortest P v → Literal kind (sentinel :: v)) (hline : 1 ≤ c.position.line)
    (h : (untilStopped kind start step init >>= fun inside =>
      pure (.ofToken start (tokenOf kind) (lead ++ inside.1.push inside.2))).run c =
        (.ok found, c')) : Finds start [sentinel] c found c' := by
  obtain ⟨⟨inside, last⟩, hrun, rfl⟩ := Scan.run_bind_pure_eq_ok h
  obtain ⟨v, hv, htext, hp⟩ := passes_untilStopped_of_decides hdec hline hrun
  refine ⟨v, hp, ?_⟩
  have htext : lead ++ inside.push last = String.ofList ([sentinel] ++ v) := by
    rw [htext, hlead, String.ofList_append]
  rw [htext]
  exact .lexeme (.literal (hliteral hv))

/-- A literal that is one run behind its `sentinel` is incomplete where the input ends first. -/
theorem fails_oneRun {f : String × Char → Finding} (hdec : Run.Decides step init P)
    (hbroken : ∀ {v}, Never P v → Broken start (sentinel :: v) (.unterminated kind start))
    (hline : 1 ≤ c.position.line)
    (h : (untilStopped kind start step init >>= fun inside => pure (f inside)).run c =
      (.error e, c')) : Fails start [sentinel] c e := by
  have hrun := Scan.run_bind_pure_eq_error h
  rcases fails_untilStopped_of_decides hdec hline hrun with hf | ⟨v, hv, rfl, hends, hnext⟩
  · exact .decoding hf
  · exact .ended hends hnext (hbroken hv)

end OneRun

theorem finds_string (hline : 1 ≤ c.position.line)
    (h : (string start).run c = (.ok found, c')) : Finds start ['"'] c found c' :=
  finds_oneRun decides_stringStep rfl .string hline h

theorem fails_string (hline : 1 ≤ c.position.line)
    (h : (string start).run c = (.error e, c')) : Fails start ['"'] c e :=
  fails_oneRun decides_stringStep .string hline h

theorem finds_template (hline : 1 ≤ c.position.line)
    (h : (template start).run c = (.ok found, c')) : Finds start ['\x60'] c found c' :=
  finds_oneRun decides_templateStep rfl .template hline h

theorem fails_template (hline : 1 ≤ c.position.line)
    (h : (template start).run c = (.error e, c')) : Fails start ['\x60'] c e :=
  fails_oneRun decides_templateStep .template hline h

/-! ### Structured literals -/

/-- The parts of a structured literal, `tag`, `opener` and `payload`, spell the whole of it. -/
theorem structured_text {tag payload : List Char} {opener last : Char} {inside : String}
    (h : inside.push last = String.ofList payload) :
    "#" ++ (String.ofList tag).push opener ++ inside.push last =
      String.ofList ('#' :: (tag ++ opener :: payload)) := by
  rw [h, String.push_eq_append, String.singleton_eq_ofList, ← String.ofList_append,
    show "#" = String.ofList ['#'] from rfl, ← String.ofList_append, ← String.ofList_append]
  simp

theorem finds_structured (hline : 1 ≤ c.position.line)
    (h : (structured start).run c = (.ok found, c')) : Finds start ['#'] c found c' := by
  obtain ⟨⟨tag, opener⟩, c₁, htag, hrest⟩ := Scan.run_bind_eq_ok h
  obtain ⟨ts, s, htakes, hstop, rfl, hp⟩ := passes_untilStopped hline htag
  dsimp only at hrest
  split at hrest
  next closer hcloser =>
    obtain ⟨⟨payload, last⟩, c₂, hpayload, hpure⟩ := Scan.run_bind_eq_ok hrest
    cases hpure
    obtain ⟨v, hv, htext, hp'⟩ := passes_untilStopped_of_decides
      (decides_payloadStep opener closer) (hp.one_le_line hline) hpayload
    refine ⟨ts ++ [opener] ++ v, hp.trans hp', ?_⟩
    have hrunes : ['#'] ++ (ts ++ [opener] ++ v) = '#' :: (ts ++ opener :: v) := by simp
    rw [structured_text htext, hrunes]
    exact .lexeme (.literal (.structured (htakes.forall_mem tagStep_take) hcloser hv))
  next => cases hrest

theorem fails_structured (hline : 1 ≤ c.position.line)
    (h : (structured start).run c = (.error e, c')) : Fails start ['#'] c e := by
  rcases Scan.run_bind_eq_error h with htag | ⟨⟨tag, opener⟩, c₁, htag, hrest⟩
  · rcases fails_untilStopped hline tagStep_ne_leave htag with
      hf | ⟨ts, s, htakes, rfl, hends, hnext⟩
    · exact .decoding hf
    · exact .ended hends hnext (.tag (htakes.forall_mem tagStep_take))
  · obtain ⟨ts, s, htakes, hstop, rfl, hp⟩ := passes_untilStopped hline htag
    have hts := htakes.forall_mem tagStep_take
    refine .of_passes hp ?_
    dsimp only at hrest
    split at hrest
    next closer hcloser =>
      rcases Scan.run_bind_eq_error hrest with hpayload | ⟨_, _, _, hpure⟩
      · rcases fails_untilStopped_of_decides (decides_payloadStep opener closer)
          (hp.one_le_line hline) hpayload with hf | ⟨v, hv, rfl, hends, hnext⟩
        · exact .decoding hf
        · refine .ended hends hnext ?_
          have hbroken : Broken start _ _ := .payload hts hcloser hv
          simpa using hbroken
      · cases hpure
    next hcloser =>
      cases hrest
      refine .wrong (.refl _) fun rest => ?_
      have hbroken : Broken start ('#' :: (ts ++ opener :: rest)) _ :=
        .delimiter hts (tagStep_stop hstop) hcloser
      simpa using hbroken

end LexStream.Scanner
