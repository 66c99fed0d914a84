import LexStream.Lexer
import LexStream.Proofs.Literals
import LexStream.Proofs.Numerals
import LexStream.Proofs.Operators

/-!
# Scanning items

The rune behind the blanks chooses the scan, and what this scan finds is a token of the grammar, a
dropped numeral or a stray rune.  So an item passes blanks and the runes of what is found, and
nothing else; a scan that fails has met a rune that cannot be decoded or an incomplete literal
behind the blanks.

Main facts:

* `Scanner.finds_item`: what the scan of an item passes;
* `Scanner.fails_item`: how the scan of an item fails.
-/

namespace LexStream.Scanner

open Grammar

variable {σ : Type} [ByteSource σ] {c c' : Cursor σ} {start : Position} {first : Char}
  {found : Finding} {e : LexError}

/-! ### Words and symbols -/

theorem finds_symbol (hline : 1 ≤ c.position.line) (h : (symbol start).run c = (.ok found, c')) :
    Finds start [':'] c found c' := by
  obtain ⟨text, hrun, rfl⟩ := Scan.run_bind_pure_eq_ok h
  obtain ⟨name, rfl, hname, hp⟩ := Run.passes_scanClass hline hrun
  refine ⟨name, hp, ?_⟩
  rw [show ":" ++ String.ofList name = String.ofList ([':'] ++ name) from
    singleton_append_ofList ':' name]
  exact .lexeme (.symbol hname)

theorem faults_symbol (h : (symbol start).run c = (.error e, c')) : c.Faults e :=
  Run.faults_scanClass (Scan.run_bind_pure_eq_error h)

theorem finds_word (hline : 1 ≤ c.position.line) (hfirst : Rune.isNameRune first = true)
    (hunderscore : first ≠ '_') (hdigit : first.isDigit = false)
    (h : (word start first).run c = (.ok found, c')) : Finds start [first] c found c' := by
  obtain ⟨text, hrun, rfl⟩ := Scan.run_bind_pure_eq_ok h
  obtain ⟨rest, rfl, hrest, hp⟩ := Run.passes_scanClass hline hrun
  refine ⟨rest, hp, ?_⟩
  rw [singleton_append_ofList]
  exact .lexeme (.word hfirst hunderscore hdigit hrest)

theorem faults_word (h : (word start first).run c = (.error e, c')) : c.Faults e :=
  Run.faults_scanClass (Scan.run_bind_pure_eq_error h)

/-! ### Tokens -/

/-- The rune `first` of a token that is no operator chooses the scan of the rest: one case for each
scan, and one for a stray rune. -/
theorem otherToken_cases (start : Position) (first : Char) :
    (first = '"' ∧ otherToken (σ := σ) start first = string start) ∨
      (first = ':' ∧ otherToken (σ := σ) start first = symbol start) ∨
      (first = '\x60' ∧ otherToken (σ := σ) start first = template start) ∨
      (first = '#' ∧ otherToken (σ := σ) start first = structured start) ∨
      (first.isDigit = true ∧ otherToken (σ := σ) start first = numeral start first) ∨
      (first.isDigit = false ∧ Rune.isNameRune first = true ∧
        otherToken (σ := σ) start first = word start first) ∨
      (isSentinel first = false ∧ first ≠ ':' ∧ Rune.isNameRune first = false ∧
        otherToken (σ := σ) start first =
          pure (.illegal start first (.strayRune start first))) := by
  unfold otherToken
  by_cases hquote : first = '"'
  · simp [hquote]
  by_cases hcolon : first = ':'
  · simp [hcolon]
  by_cases htick : first = '\x60'
  · simp [htick]
  by_cases hnumber : first = '#'
  · simp [hnumber]
  by_cases hdigit : first.isDigit = true
  · simp [hquote, hcolon, htick, hnumber, hdigit]
  by_cases hname : Rune.isNameRune first = true
  · simp [hquote, hcolon, htick, hnumber, hdigit, hname]
  · simp [hquote, hcolon, htick, hnumber, hdigit, hname, isSentinel]

theorem finds_otherToken (hline : 1 ≤ c.position.line) (hpos : c.position = start.advance first)
    (hspace : Rune.isSpace first = false)
    (hoperator : ∀ row ∈ Token.operators, row.1.toList ≠ [first])
    (h : (otherToken start first).run c = (.ok found, c')) : Finds start [first] c found c' := by
  rcases otherToken_cases (σ := σ) start first with ⟨rfl, heq⟩ | ⟨rfl, heq⟩ | ⟨rfl, heq⟩ |
    ⟨rfl, heq⟩ | ⟨hdigit, heq⟩ | ⟨hdigit, hname, heq⟩ | ⟨hsentinel, hcolon, hname, heq⟩
  · exact finds_string hline (heq ▸ h)
  · exact finds_symbol hline (heq ▸ h)
  · exact finds_template hline (heq ▸ h)
  · exact finds_structured hline (heq ▸ h)
  · exact finds_numeral hdigit hline hpos (heq ▸ h)
  · -- The underscore is an operator, and operators come first.
    have hunderscore : first ≠ '_' := by
      rintro rfl
      exact hoperator ("_", .underscore) (by decide) rfl
    exact finds_word hline hname hunderscore hdigit (heq ▸ h)
  · rw [heq] at h
    cases h
    exact ⟨[], .refl _, .stray hspace hoperator hsentinel hcolon hname⟩

theorem fails_otherToken (hline : 1 ≤ c.position.line)
    (h : (otherToken start first).run c = (.error e, c')) : Fails start [first] c e := by
  rcases otherToken_cases (σ := σ) start first with ⟨rfl, heq⟩ | ⟨rfl, heq⟩ | ⟨rfl, heq⟩ |
    ⟨rfl, heq⟩ | ⟨-, heq⟩ | ⟨-, -, heq⟩ | ⟨-, -, -, heq⟩
  · exact fails_string hline (heq ▸ h)
  · exact .decoding (faults_symbol (heq ▸ h))
  · exact fails_template hline (heq ▸ h)
  · exact fails_structured hline (heq ▸ h)
  · exact .decoding (faults_numeral (heq ▸ h))
  · exact .decoding (faults_word (heq ▸ h))
  · rw [heq] at h
    cases h

/-- The scan of a `token` that succeeds passes the runes of what it finds. -/
theorem finds_token (hline : 1 ≤ c.position.line) (hpos : c.position = start.advance first)
    (hblank : Rune.isBlank first = false)
    (h : (token start first).run c = (.ok found, c')) : Finds start [first] c found c' := by
  unfold token at h
  split at h
  next hnewline =>
    subst hnewline
    cases h
    exact ⟨[], .refl _, .lexeme .newline⟩
  next hnewline =>
    have hspace : Rune.isSpace first = false := by
      simpa [Rune.isBlank, hnewline] using hblank
    obtain ⟨found?, c₁, hoperator, hrest⟩ := Scan.run_bind_eq_ok h
    cases found? with
    | some found' =>
      cases hrest
      obtain ⟨rs, text, kind, hmem, hruns, rfl, hp⟩ := finds_operator hoperator
      refine ⟨rs, hp, ?_⟩
      have hfound : Found start text.toList
          (.ofToken start kind (String.ofList text.toList)) := .lexeme (.operator hmem)
      rwa [String.ofList_toList, hruns] at hfound
    | none =>
      obtain ⟨hp, hnone⟩ := passes_operator_none hoperator
      obtain ⟨rs, hp', hfound⟩ := finds_otherToken (hp.one_le_line hline) (hp.position.trans hpos)
        hspace hnone hrest
      exact ⟨[] ++ rs, hp.trans hp', hfound⟩

theorem fails_token (hline : 1 ≤ c.position.line)
    (h : (token start first).run c = (.error e, c')) : Fails start [first] c e := by
  unfold token at h
  split at h
  next => cases h
  next =>
    rcases Scan.run_bind_eq_error h with hoperator | ⟨found?, c₁, hoperator, hrest⟩
    · exact .decoding (faults_operator hoperator)
    · cases found? with
      | some found' => cases hrest
      | none =>
        obtain ⟨hp, -⟩ := passes_operator_none hoperator
        exact .of_passes hp (fails_otherToken (hp.one_le_line hline) hrest)

/-! ### Items -/

theorem takes_blankStep {here pos : Position} {bs : List Char}
    (h : Run.Takes blankStep here bs pos) :
    (∀ r ∈ bs, Rune.isBlank r = true) ∧ pos = here.advanceAll bs := by
  have htake : ∀ {pos r pos'}, blankStep pos r = .take pos' →
      Rune.isBlank r = true ∧ pos' = pos.advance r := by
    intro pos r pos' hr
    unfold blankStep at hr
    split at hr
    next hblank => cases hr; exact ⟨hblank, rfl⟩
    next => cases hr
  refine ⟨h.forall_mem fun hr => (htake hr).1, ?_⟩
  refine h.preserves (I := fun bs pos => pos = here.advanceAll bs) rfl fun hI hr => ?_
  rw [(htake hr).2, hI, Position.advanceAll_append]
  rfl

theorem blankStep_stop {pos : Position} {r : Char} (h : blankStep pos r = .stop) :
    Rune.isBlank r = false := by
  unfold blankStep at h
  split at h
  next => cases h
  next hblank => exact eq_false_of_ne_true hblank

/-- What the scan of an item finds behind the blanks, where the cursor `c` stands. -/
inductive Stands (c : Cursor σ) (found : Finding) (c' : Cursor σ) : Prop
  /-- The input ends at the cursor `c`. -/
  | eof (h : c.Ends [] c') (hnext : c'.lookahead = [])
      (hfound : found = .ofToken c.position .eof "")
  /-- Something that is no `eof` stands at the cursor `c`. -/
  | found (h : Finds c.position [] c found c')

/-- The scan of an `item` that succeeds passes the blanks `bs` and the runes of what it finds. -/
theorem finds_item (hline : 1 ≤ c.position.line) (h : item.run c = (.ok found, c')) :
    ∃ bs c₁, (∀ r ∈ bs, Rune.isBlank r = true) ∧ c.Passes bs c₁ ∧ Stands c₁ found c' := by
  unfold item at h
  rw [Scan.run_bind_ok (Scan.run_position c)] at h
  obtain ⟨run, c₁, hrun, hrest⟩ := Scan.run_bind_eq_ok h
  obtain ⟨bs, htakes, -, hout⟩ := Run.outcome_scan hline hrun
  obtain ⟨hblank, hstate⟩ := takes_blankStep htakes
  generalize hending : run.ending = ending at hout hrest
  cases hout with
  | stopped hr hp =>
    -- The run passes the rune that stops it; the token starts one rune before the cursor.
    obtain ⟨c₂, hp₂, hp₁⟩ := hp.split
    have hstart : run.state = c₂.position := hstate.trans hp₂.position.symm
    rw [hstart] at hrest
    obtain ⟨rs, hp', hfound⟩ := finds_token (hp.one_le_line hline) hp₁.position
      (blankStep_stop hr) hrest
    exact ⟨bs, c₂, hblank, hp₂, .found ⟨_, hp₁.trans hp', hfound⟩⟩
  | left hr =>
    unfold blankStep at hr
    split at hr <;> cases hr
  | exhausted hends hnext =>
    cases hrest
    obtain ⟨c₂, hp₂, hdecode⟩ := hends
    refine ⟨bs, c₂, hblank, hp₂, .eof ⟨c₂, .refl _, hdecode⟩ hnext ?_⟩
    rw [hp₂.position, hstate]
    rfl

/-- The scan of an `item` fails where a rune cannot be decoded, or at an incomplete literal behind
the blanks `bs`. -/
theorem fails_item (hline : 1 ≤ c.position.line) (h : item.run c = (.error e, c')) :
    ∃ bs c₁, (∀ r ∈ bs, Rune.isBlank r = true) ∧ c.Passes bs c₁ ∧ Fails c₁.position [] c₁ e := by
  unfold item at h
  rw [Scan.run_bind_ok (Scan.run_position c)] at h
  rcases Scan.run_bind_eq_error h with hrun | ⟨run, c₁, hrun, hrest⟩
  · exact ⟨[], c, fun r hr => absurd hr List.not_mem_nil, .refl _,
      .decoding (Run.faults_scan hrun)⟩
  · obtain ⟨bs, htakes, -, hout⟩ := Run.outcome_scan hline hrun
    obtain ⟨hblank, hstate⟩ := takes_blankStep htakes
    generalize hending : run.ending = ending at hout hrest
    cases hout with
    | stopped hr hp =>
      obtain ⟨c₂, hp₂, hp₁⟩ := hp.split
      have hstart : run.state = c₂.position := hstate.trans hp₂.position.symm
      rw [hstart] at hrest
      exact ⟨bs, c₂, hblank, hp₂, .of_passes hp₁ (fails_token (hp.one_le_line hline) hrest)⟩
    | left => cases hrest
    | exhausted => cases hrest

end LexStream.Scanner
