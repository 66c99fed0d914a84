import LexStream.Lexer
import LexStream.Proofs.Items
import LexStream.Proofs.LongestMatch
import LexStream.Proofs.RuneClasses
import LexStream.Proofs.Yields

/-!
# Recognising tokens

The other direction of scanning: a token of the grammar that stands in a text in front of a blank,
or at the end of the text, is found there, whole and as the kind it is.  The operators come first,
so no operator may start a text that another token starts (`Scanner.no_operator_starts`).

Main facts:

* `Scanner.yields_operator`, `Scanner.yields_operator_none`: the longest operator is found, if there
  is one;
* `Scanner.yields_token`: a token in front of a blank is found;
* `Scanner.item_of_lexeme`, `Scanner.item_of_blanks`: so is an item behind blanks, and the end.
-/

namespace LexStream

open Grammar

/-- The runes `behind` a token, if there are any, start with a blank. -/
def Apart (behind : List Char) : Prop :=
  ∀ r ∈ behind.head?, Rune.isBlank r = true

namespace Scanner

variable {start : Position} {first : Char} {rs behind : List Char}

/-! ### Operators -/

/-- Going down along a text `rs` with `peekNth` finds what looking at `rs[i]?` shows. -/
theorem yields_descend (b : OperatorTrie.Branches) (length : Nat) (best : Option OperatorMatch)
    (r : Char) :
    (b.descend Cursor.peekNth length best r).Yields rs
      (b.descend (m := Id) (fun i => rs[i]?) length best r) rs := by
  induction b generalizing length best r with
  | nil => exact .pure _
  | node rune token children siblings ihc ihs =>
    unfold OperatorTrie.Branches.descend
    dsimp only
    split
    · split
      · exact .pure _
      · refine .bind (.peekNth _) ?_
        cases rs[length - 1]? with
        | none => exact .pure _
        | some next => exact ihc _ _ next
    · exact ihs _ _ r

/-- Where a `row` of the table is the match, its runes are looked at already, and the scan passes
them. -/
theorem run_operator_of_row {σ : Type} [ByteSource σ] {c c₁ : Cursor σ} {row : String × Token}
    (hrow : row ∈ Token.operators) (hruns : row.1.toList = first :: rs)
    (h : (OperatorTrie.standard.longestMatch first Cursor.peekNth).run c =
      (.ok (some ⟨row.2, row.1.length⟩), c₁)) :
    c.Passes rs (c₁.skip rs.length) ∧ rs.length ≤ c₁.lookahead.length ∧
      (operator? start first).run c =
        (.ok (some (.ofToken start row.2 row.1)), c₁.skip rs.length) := by
  obtain ⟨rs', text, token, hmem, hruns', heq, hp, hrun⟩ := run_operator start h
  -- Each kind is spelled in one way only.
  obtain ⟨rfl, -⟩ := OperatorMatch.mk.inj heq
  have htext : text = row.1 := Option.some.inj
    (((Token.lexeme?_eq_some_iff _ _).2 hmem).symm.trans ((Token.lexeme?_eq_some_iff _ _).2 hrow))
  subst htext
  obtain ⟨-, rfl⟩ := List.cons.inj (hruns'.symm.trans hruns)
  have hlength : row.1.length = rs'.length + 1 := by
    rw [← String.length_toList, hruns, List.length_cons]
  refine ⟨hp, ?_, hrun⟩
  obtain ⟨-, -, hres⟩ := passes_descend h
  rcases hres with hnone | ⟨found, hsome, ws, -, hfound, hws⟩
  · cases hnone
  · obtain rfl := Option.some.inj hsome
    have hle := hws.length_le
    rw [List.drop_zero] at hle
    dsimp only at hfound
    omega

/-- The operator of a `row` that starts a text is found if no longer one does. -/
theorem yields_operator {row : String × Token} (hrow : row ∈ Token.operators)
    (hruns : row.1.toList = first :: rs)
    (hlongest : ∀ row' ∈ Token.operators, row'.1.toList <+: first :: (rs ++ behind) →
      row'.1.length ≤ row.1.length) :
    (operator? start first).Yields (rs ++ behind) (some (.ofToken start row.2 row.1)) behind := by
  have hbest : OperatorTrie.IsLongest Token.operators (first :: (rs ++ behind))
      ⟨row.2, row.1.length⟩ :=
    ⟨⟨row, hrow, by rw [hruns]; exact List.prefix_append (first :: rs) behind, rfl, rfl⟩, hlongest⟩
  have hmatch := ((OperatorTrie.longestMatch_eq_iff OperatorTrie.build_operators first
    (rs ++ behind)).1 _).2 hbest
  intro c hc
  obtain ⟨c₁, hrun, -⟩ := yields_descend OperatorTrie.standard.roots 1 none first c hc
  rw [show OperatorTrie.standard.roots.descend (m := Id) _ 1 none first = _ from hmatch] at hrun
  obtain ⟨hp, -, hrun'⟩ := run_operator_of_row hrow hruns hrun
  obtain ⟨rest, hrest, hc'⟩ := hc.passes hp
  rw [List.append_cancel_left hrest]
  exact ⟨_, hrun', hc'⟩

/-- Where no operator starts the text `first :: rs`, none is found and nothing is passed. -/
theorem yields_operator_none
    (hnone : ∀ row ∈ Token.operators, ¬row.1.toList <+: first :: rs) :
    (operator? start first).Yields rs none rs := by
  have hmatch := (OperatorTrie.longestMatch_eq_iff OperatorTrie.build_operators first rs).2.2 hnone
  have hdescend : Scan.Yields _ rs _ rs := yields_descend OperatorTrie.standard.roots 1 none first
  rw [show OperatorTrie.standard.roots.descend (m := Id) _ 1 none first = _ from hmatch] at hdescend
  exact .bind hdescend (.pure _)

/-! ### Literals -/

section Literals

variable {τ : Type} {kind : LiteralKind} {step : τ → Char → Verdict τ} {init s : τ}
  {P : List Char → Prop} {v ts : List Char} {r : Char}

theorem yields_untilStopped (htakes : Run.Takes step init ts s) (hstop : step s r = .stop) :
    (untilStopped kind start step init).Yields (ts ++ r :: behind) (String.ofList ts, r) behind :=
  .bind (Run.yields_scan htakes (.stopped hstop)) (.pure _)

/-- A run whose step decides a property `P` finds the shortest row `v` that has it. -/
theorem yields_untilStopped_of_decides (hdec : Run.Decides step init P) (hv : Shortest P v) :
    ∃ inside last, inside.push last = String.ofList v ∧
      (untilStopped kind start step init).Yields (v ++ behind) (inside, last) behind := by
  obtain ⟨ts, r, s, rfl, htakes, hstop⟩ := hdec.exists_takes_stop hv
  refine ⟨String.ofList ts, r, ?_, ?_⟩
  · rw [String.ofList_append, String.push_eq_append, String.singleton_eq_ofList]
  · rw [List.append_assoc]
    exact yields_untilStopped htakes hstop

/-- A literal that is one run behind its `sentinel` is found where the run stops. -/
theorem yields_oneRun {sentinel : Char} {lead : String} (hdec : Run.Decides step init P)
    (hlead : lead = String.ofList [sentinel]) (hv : Shortest P v) :
    (untilStopped kind start step init >>= fun inside =>
      pure (Finding.ofToken start (tokenOf kind) (lead ++ inside.1.push inside.2))).Yields
        (v ++ behind) (Finding.ofToken start (tokenOf kind) (String.ofList (sentinel :: v)))
        behind := by
  obtain ⟨inside, last, htext, hyields⟩ := yields_untilStopped_of_decides hdec hv
  have htext : lead ++ inside.push last = String.ofList (sentinel :: v) := by
    rw [htext, hlead, ← String.ofList_append]
    rfl
  rw [← htext]
  exact .bind hyields (.pure _)

/-- A `tag` takes letters. -/
theorem exists_takes_tagStep {tag : List Char} (htag : ∀ r ∈ tag, Rune.isAlphabetic r = true) :
    ∃ u, Run.Takes tagStep () tag u := by
  refine Run.exists_takes fun us r s hpre _ => ⟨(), ?_⟩
  rw [tagStep, if_pos (htag r (hpre.subset (by simp)))]

theorem yields_structured {tag payload : List Char} {opener closer : Char}
    (htag : ∀ r ∈ tag, Rune.isAlphabetic r = true) (hcloser : Rune.closer? opener = some closer)
    (h : Shortest (EndsPayload opener closer) payload) :
    (structured start).Yields (tag ++ opener :: payload ++ behind)
      (.ofToken start .structured (String.ofList ('#' :: (tag ++ opener :: payload)))) behind := by
  obtain ⟨u, htakes⟩ := exists_takes_tagStep htag
  have hstop : tagStep u opener = .stop := by
    rw [tagStep, if_neg (by simp [isAlphabetic_opener hcloser])]
  obtain ⟨inside, last, htext, hyields⟩ :=
    yields_untilStopped_of_decides (decides_payloadStep opener closer) h
  have htext : "#" ++ (String.ofList tag).push opener ++ inside.push last =
      String.ofList ('#' :: (tag ++ opener :: payload)) := structured_text htext
  rw [List.append_assoc, List.cons_append, ← htext]
  refine .bind (yields_untilStopped htakes hstop) ?_
  dsimp only
  rw [hcloser]
  exact .bind hyields (.pure _)

end Literals

/-! ### Names -/

/-- A row of a class `p` without white space ends in front of a blank. -/
theorem head?_of_isBlank {p : Char → Bool} (hp : ∀ {r}, Rune.isSpace r = true → p r = false)
    (hbehind : Apart behind) : ∀ r ∈ behind.head?, p r = false :=
  fun r hr => hp (Rune.isSpace_of_isBlank (hbehind r hr))

theorem yields_symbol {name : List Char} (hname : ∀ r ∈ name, Rune.isNameRune r = true)
    (hbehind : Apart behind) :
    (symbol start).Yields (name ++ behind)
      (.ofToken start .symbol (String.ofList (':' :: name))) behind := by
  rw [← singleton_append_ofList]
  exact .bind (Run.yields_scanClass hname
    (head?_of_isBlank Rune.not_isNameRune_of_isSpace hbehind)) (.pure _)

theorem yields_word {rest : List Char} (hrest : ∀ r ∈ rest, Rune.isNameRune r = true)
    (hbehind : Apart behind) :
    (word start first).Yields (rest ++ behind)
      (.ofToken start (Token.ofWord (String.ofList (first :: rest)))
        (String.ofList (first :: rest))) behind := by
  rw [← singleton_append_ofList]
  exact .bind (Run.yields_scanClass hrest
    (head?_of_isBlank Rune.not_isNameRune_of_isSpace hbehind)) (.pure _)

/-! ### Numerals -/

/-- A decimal number takes a digit, and a mark `.` or `e` that the runes `ts` do not hold yet. -/
theorem exists_decimalStep_take {ts : List Char} {marks : Marks} {r : Char}
    (hcount : marks.Count ts) (hr : r.isDigit = true ∨ r = '.' ∨ r = 'e')
    (hpoint : (ts ++ [r]).count '.' ≤ 1) (hexponent : (ts ++ [r]).count 'e' ≤ 1) :
    ∃ marks', decimalStep marks r = .take marks' := by
  -- A mark that is kept already would stand in the row twice.
  have hnew : ∀ q, (ts ++ [q]).count q ≤ 1 → ts.count q = 0 := by
    intro q hq
    rw [List.count_append, List.count_singleton_self] at hq
    omega
  rcases hr with hdigit | rfl | rfl
  · refine ⟨marks, ?_⟩
    have hpoint : r ≠ '.' := by rintro rfl; cases hdigit
    have hexponent : r ≠ 'e' := by rintro rfl; cases hdigit
    rw [decimalStep, if_neg hpoint, if_neg hexponent, if_pos hdigit]
  · have hzero := hnew '.' hpoint
    rw [hcount.point, Bool.toNat_eq_zero] at hzero
    exact ⟨_, by rw [decimalStep, if_pos rfl, hzero, if_neg (by simp)]⟩
  · have hzero := hnew 'e' hexponent
    rw [hcount.exponent, Bool.toNat_eq_zero] at hzero
    exact ⟨_, by rw [decimalStep, if_neg (by decide), if_pos rfl, hzero, if_neg (by simp)]⟩

/-- A decimal number takes digits, and one `.` and one `e` at most. -/
theorem exists_takes_decimalStep {rest : List Char}
    (hrest : ∀ r ∈ rest, r.isDigit = true ∨ r = '.' ∨ r = 'e') (hpoint : rest.count '.' ≤ 1)
    (hexponent : rest.count 'e' ≤ 1) : ∃ marks, Run.Takes decimalStep {} rest marks := by
  refine Run.exists_takes fun us r marks hpre hus => ?_
  have hr := hrest r (hpre.subset (by simp))
  exact exists_decimalStep_take (takes_decimalStep hus) hr
    ((hpre.sublist.count_le _).trans hpoint) ((hpre.sublist.count_le _).trans hexponent)

theorem decimalStep_of_isSpace {marks : Marks} {r : Char} (h : Rune.isSpace r = true) :
    decimalStep marks r = .leave := by
  have hpoint : r ≠ '.' := by rintro rfl; cases h
  have hexponent : r ≠ 'e' := by rintro rfl; cases h
  rw [decimalStep, if_neg hpoint, if_neg hexponent,
    if_neg (by rw [Rune.not_isDigit_of_isSpace h]; simp)]

theorem yields_decimal {rest : List Char} (h : Decimal (first :: rest)) (hbehind : Apart behind) :
    (decimal start first).Yields (rest ++ behind)
      (.ofToken start (if '.' ∈ first :: rest ∨ 'e' ∈ first :: rest then .float else .int)
        (String.ofList (first :: rest))) behind := by
  cases h with
  | intro hfirst hrest hpoint hexponent =>
    obtain ⟨marks, htakes⟩ := exists_takes_decimalStep hrest hpoint hexponent
    obtain ⟨ending, hne, hends⟩ := Run.exists_halts_of_leave (s := marks) fun r hr =>
      decimalStep_of_isSpace (Rune.isSpace_of_isBlank (hbehind r hr))
    refine .bind (Run.yields_scan htakes hends) ?_
    dsimp only
    split
    next => exact absurd rfl (hne _)
    next =>
      rw [(takes_decimalStep htakes).kind_eq hfirst, singleton_append_ofList]
      exact .pure _

theorem yields_wholeIn {base : Nat} {lead digits : List Char}
    (hdigits : ∀ r ∈ digits, Text.isDigitIn base r = true) (hbehind : Apart behind) :
    (wholeIn base start lead).Yields (digits ++ behind)
      (.ofToken start .int (String.ofList (lead ++ digits))) behind := by
  rw [String.ofList_append]
  exact .bind (Run.yields_scanClass hdigits
    (head?_of_isBlank (Rune.not_isDigitIn_of_isSpace base) hbehind)) (.pure _)

/-- In front of a blank, a zero is a whole number, of kind `int`. -/
theorem yields_zeroLed_nil (hbehind : Apart behind) :
    (zeroLed start).Yields behind (.ofToken start .int "0") behind := by
  unfold zeroLed
  cases behind with
  | nil => exact .bind .nextRune_nil (.pure _)
  | cons r rs =>
    have hspace := Rune.isSpace_of_isBlank (hbehind r rfl)
    have hletter : (r = 'b' || r = 'B') = false ∧ (r = 'x' || r = 'X') = false := by
      have hq := Rune.of_isSpace
        (q := fun r => !(r = 'b' || r = 'B') && !(r = 'x' || r = 'X')) (by decide) hspace
      simpa using hq
    refine .bind (.nextRune_cons r) ?_
    dsimp only
    rw [if_neg (by simp [hletter.1]), if_neg (by simp [hletter.2]),
      if_neg (by simp [Rune.not_isDigit_of_isSpace hspace])]
    exact .bind (.backup r) (.pure _)

theorem yields_zeroLed {rest : List Char} (h : Whole ('0' :: rest)) (hbehind : Apart behind) :
    (zeroLed start).Yields (rest ++ behind)
      (.ofToken start .int (String.ofList ('0' :: rest))) behind := by
  cases h with
  | binary hmark hdigits =>
    refine .bind (.nextRune_cons _) ?_
    dsimp only
    rw [if_pos (by simpa using hmark)]
    exact yields_wholeIn hdigits hbehind
  | hexadecimal hmark hdigits =>
    refine .bind (.nextRune_cons _) ?_
    dsimp only
    rw [if_neg (by rcases hmark with rfl | rfl <;> decide), if_pos (by simpa using hmark)]
    exact yields_wholeIn hdigits hbehind
  | decimal hdigits =>
    cases rest with
    | nil => exact yields_zeroLed_nil hbehind
    | cons r digits =>
      have hr := isDigit_of_isDigitIn_ten (hdigits r List.mem_cons_self)
      refine .bind (.nextRune_cons _) ?_
      dsimp only
      rw [if_neg (by simp; constructor <;> rintro rfl <;> cases hr),
        if_neg (by simp; constructor <;> rintro rfl <;> cases hr), if_pos hr]
      exact yields_wholeIn (fun q hq => hdigits q (List.mem_cons_of_mem r hq)) hbehind

theorem yields_numeral_whole {rest : List Char} (h : Whole ('0' :: rest)) (hbehind : Apart behind) :
    (numeral start '0').Yields (rest ++ behind)
      (.ofToken start .int (String.ofList ('0' :: rest))) behind := by
  unfold numeral
  rw [if_pos rfl]
  refine .bind (.peekNth 0) ?_
  split
  next hpoint =>
    -- No whole number goes on with a point, and no blank is one.
    rw [← List.head?_eq_getElem?] at hpoint
    cases rest with
    | nil => cases hbehind '.' hpoint
    | cons r digits =>
      obtain rfl : r = '.' := Option.some.inj hpoint
      cases h with
      | binary hmark => simp at hmark
      | hexadecimal hmark => simp at hmark
      | decimal hdigits => cases hdigits '.' List.mem_cons_self
  next => exact yields_zeroLed h hbehind

theorem yields_numeral_decimal {rest : List Char} (h : Decimal (first :: rest))
    (hzero : first = '0' → rest.head? = some '.') (hbehind : Apart behind) :
    (numeral start first).Yields (rest ++ behind)
      (.ofToken start (if '.' ∈ first :: rest ∨ 'e' ∈ first :: rest then .float else .int)
        (String.ofList (first :: rest))) behind := by
  unfold numeral
  split
  next hfirst =>
    have hpoint : (rest ++ behind)[0]? = some '.' := by
      rw [← List.head?_eq_getElem?, List.head?_append, hzero hfirst]
      rfl
    refine .bind (.peekNth 0) ?_
    rw [hpoint]
    exact yields_decimal h hbehind
  next => exact yields_decimal h hbehind

/-! ### Tokens -/

/-- Where no operator starts a text, what `otherToken` finds there is the token. -/
theorem yields_token_of_none {rest : List Char} {found : Finding} (hnewline : first ≠ '\n')
    (hnone : ∀ row ∈ Token.operators, ¬row.1.toList <+: first :: rs)
    (h : (otherToken start first).Yields rs found rest) :
    (token start first).Yields rs found rest := by
  unfold token
  rw [if_neg hnewline]
  exact .bind (yields_operator_none hnone) h

theorem exists_rest_of_operator {row : String × Token} (hrow : row ∈ Token.operators)
    {text : List Char} (hpre : row.1.toList <+: first :: text) :
    ∃ rest, row.1.toList = first :: rest ∧ rest <+: text := by
  rcases List.prefix_cons_iff.1 hpre with hnil | hrest
  · exact absurd hnil (operators_ne_nil hrow)
  · exact hrest

/-- No operator starts a text that a literal, a numeral or a word starts, by its `first` rune. -/
theorem no_operator_starts {text : List Char}
    (h : isSentinel first = true ∨ first.isDigit = true ∨
      Rune.isNameRune first = true ∧ first ≠ '_') :
    ∀ row ∈ Token.operators, ¬row.1.toList <+: first :: text := by
  intro row hrow hpre
  obtain ⟨rest, hruns, -⟩ := exists_rest_of_operator hrow hpre
  obtain ⟨-, hsentinel, hdigit, hname⟩ := start_operator hrow hruns
  rcases h with h | h | ⟨h, hne⟩
  · cases hsentinel.symm.trans h
  · cases hdigit.symm.trans h
  · exact hne (hname h)

/-- No operator starts a symbol `:name` that stands in front of a blank. -/
theorem no_operator_starts_symbol {name : List Char}
    (hname : ∀ r ∈ name, Rune.isNameRune r = true) (hbehind : Apart behind) :
    ∀ row ∈ Token.operators, ¬row.1.toList <+: ':' :: (name ++ behind) := by
  intro row hrow hpre
  obtain ⟨rest, hruns, hrest⟩ := exists_rest_of_operator hrow hpre
  -- The operator would go on with an equals sign.
  obtain rfl := colon_operator hrow hruns
  cases name with
  | nil =>
    obtain ⟨rs, rfl⟩ := hrest
    have hblank : Rune.isBlank '=' = true := hbehind '=' rfl
    revert hblank
    decide
  | cons r name =>
    have heq := hname r List.mem_cons_self
    rw [← (List.cons_prefix_cons.1 hrest).1] at heq
    revert heq
    decide

/-- An operator that starts `ts ++ behind` does not go on behind a blank. -/
theorem operator_prefix_of_blank {row : String × Token} (hrow : row ∈ Token.operators)
    {ts : List Char} (hpre : row.1.toList <+: ts ++ behind) (hbehind : Apart behind) :
    row.1.toList <+: ts := by
  rcases List.prefix_or_prefix_of_prefix hpre (List.prefix_append ts behind) with h | ⟨us, hruns⟩
  · exact h
  · rw [← hruns, List.prefix_append_right_inj] at hpre
    cases us with
    | nil => rw [← hruns, List.append_nil]
    | cons r us =>
      -- The operator would hold the blank.
      obtain ⟨_, rfl⟩ := hpre
      have hspace := isSpace_operator hrow (r := r) (by rw [← hruns]; simp)
      cases hspace.symm.trans (Rune.isSpace_of_isBlank (hbehind r rfl))

theorem otherToken_of_isDigit (h : first.isDigit = true) :
    otherToken (σ := Source) start first = numeral start first := by
  have hne : first ≠ '"' ∧ first ≠ ':' ∧ first ≠ '\x60' ∧ first ≠ '#' := by
    refine ⟨?_, ?_, ?_, ?_⟩ <;> rintro rfl <;> cases h
  unfold otherToken
  rw [if_neg hne.1, if_neg hne.2.1, if_neg hne.2.2.1, if_neg hne.2.2.2, if_pos h]

theorem otherToken_of_isNameRune (hdigit : first.isDigit = false)
    (h : Rune.isNameRune first = true) :
    otherToken (σ := Source) start first = word start first := by
  have hne : first ≠ '"' ∧ first ≠ ':' ∧ first ≠ '\x60' ∧ first ≠ '#' := by
    refine ⟨?_, ?_, ?_, ?_⟩ <;> rintro rfl <;> revert h <;> decide
  unfold otherToken
  rw [if_neg hne.1, if_neg hne.2.1, if_neg hne.2.2.1, if_neg hne.2.2.2, if_neg (by simp [hdigit]),
    if_pos h]

theorem yields_token_literal {kind : LiteralKind} {rest : List Char}
    (h : Literal kind (first :: rest)) :
    (token start first).Yields (rest ++ behind)
      (.ofToken start (tokenOf kind) (String.ofList (first :: rest))) behind := by
  cases h with
  | string h =>
    exact yields_token_of_none (by decide) (no_operator_starts (.inl rfl))
      (yields_oneRun decides_stringStep rfl h)
  | template h =>
    exact yields_token_of_none (by decide) (no_operator_starts (.inl rfl))
      (yields_oneRun decides_templateStep rfl h)
  | structured htag hcloser h =>
    exact yields_token_of_none (by decide) (no_operator_starts (.inl rfl))
      (yields_structured htag hcloser h)

/-- A token in front of a blank, or at the end of the text, is found by `token`. -/
theorem yields_token {rest : List Char} {kind : Token} (h : Lexeme (first :: rest) kind)
    (hbehind : Apart behind) :
    (token start first).Yields (rest ++ behind)
      (.ofToken start kind (String.ofList (first :: rest))) behind := by
  generalize hruns : first :: rest = rs at h
  cases h with
  | newline =>
    obtain ⟨rfl, rfl⟩ := List.cons.inj hruns
    exact .pure _
  | @operator text kind hrow =>
    unfold Scanner.token
    rw [if_neg (start_operator hrow hruns.symm).1, String.ofList_toList]
    refine .bind (yields_operator hrow hruns.symm fun row' hrow' hpre => ?_) (.pure _)
    have hpre : row'.1.toList <+: first :: rest := operator_prefix_of_blank hrow' hpre hbehind
    have hle := hpre.length_le
    rwa [hruns, String.length_toList, String.length_toList] at hle
  | literal h =>
    subst hruns
    exact yields_token_literal h
  | symbol hname =>
    obtain ⟨rfl, rfl⟩ := List.cons.inj hruns
    exact yields_token_of_none (by decide) (no_operator_starts_symbol hname hbehind)
      (yields_symbol hname hbehind)
  | whole h =>
    obtain rfl : first = '0' := by cases h <;> exact (List.cons.inj hruns).1
    subst hruns
    exact yields_token_of_none (by decide) (no_operator_starts (.inr (.inl rfl)))
      (yields_numeral_whole h hbehind)
  | decimal h hzero =>
    obtain ⟨rfl, rfl⟩ := List.cons.inj hruns
    have hdigit : first.isDigit = true := by cases h with | intro hfirst => exact hfirst
    refine yields_token_of_none ?_ (no_operator_starts (.inr (.inl hdigit))) ?_
    · rintro rfl; cases hdigit
    · rw [otherToken_of_isDigit hdigit]
      exact yields_numeral_decimal h hzero hbehind
  | word hfirst hunderscore hdigit hrest =>
    obtain ⟨rfl, rfl⟩ := List.cons.inj hruns
    refine yields_token_of_none ?_ (no_operator_starts (.inr (.inr ⟨hfirst, hunderscore⟩))) ?_
    · rintro rfl
      revert hfirst
      decide
    · rw [otherToken_of_isNameRune hdigit hfirst]
      exact yields_word hrest hbehind

/-! ### Items -/

/-- No token starts with a blank, so `first` is none. -/
theorem not_isBlank_of_lexeme {rest : List Char} {kind : Token} (h : Lexeme (first :: rest) kind) :
    Rune.isBlank first = false := by
  refine eq_false_of_ne_true fun hblank => ?_
  have hspace := Rune.isSpace_of_isBlank hblank
  generalize hruns : first :: rest = rs at h
  cases h with
  | newline =>
    obtain ⟨rfl, rfl⟩ := List.cons.inj hruns
    cases hblank
  | operator hrow =>
    have hfalse := isSpace_operator hrow (r := first) (by rw [← hruns]; exact List.mem_cons_self)
    cases hfalse.symm.trans hspace
  | literal h =>
    cases h <;> obtain ⟨rfl, rfl⟩ := List.cons.inj hruns <;> cases hspace
  | symbol =>
    obtain ⟨rfl, rfl⟩ := List.cons.inj hruns
    cases hspace
  | whole h =>
    cases h <;> obtain ⟨rfl, rfl⟩ := List.cons.inj hruns <;> cases hspace
  | decimal h =>
    obtain ⟨rfl, rfl⟩ := List.cons.inj hruns
    cases h with
    | intro hfirst =>
      cases (Rune.not_isDigit_of_isSpace hspace).symm.trans hfirst
  | word hfirst =>
    obtain ⟨rfl, rfl⟩ := List.cons.inj hruns
    cases (Rune.not_isNameRune_of_isSpace hspace).symm.trans hfirst

/-- The blanks `bs` are skipped, and counted from the position `here` on. -/
theorem takes_blanks {bs : List Char} (hblank : ∀ r ∈ bs, Rune.isBlank r = true)
    (here : Position) : Run.Takes blankStep here bs (here.advanceAll bs) := by
  induction bs generalizing here with
  | nil => exact .refl here
  | cons r bs ih =>
    refine .cons ?_ (ih (fun q hq => hblank q (List.mem_cons_of_mem r hq)) _)
    rw [blankStep, if_pos (hblank r List.mem_cons_self)]

/-- A token `ts` behind blanks `bs`, in front of a blank or at the end of the text, is the next
item. -/
theorem item_of_lexeme {bs ts : List Char} {kind : Token} {c : Cursor Source} (h : Lexeme ts kind)
    (hblank : ∀ r ∈ bs, Rune.isBlank r = true)
    (hbehind : Apart behind) (hc : c.Holds (bs ++ ts ++ behind)) :
    ∃ c', item.run c =
        (.ok (.ofToken (c.position.advanceAll bs) kind (String.ofList ts)), c') ∧
      c'.Holds behind := by
  obtain ⟨first, rest, rfl⟩ := List.exists_cons_of_ne_nil h.ne_nil
  have hstop : blankStep (c.position.advanceAll bs) first = .stop := by
    rw [blankStep, if_neg (by simp [not_isBlank_of_lexeme h])]
  rw [List.append_assoc] at hc
  obtain ⟨c₁, hrun, hc₁⟩ := Run.yields_scan (takes_blanks hblank c.position) (.stopped hstop) c hc
  obtain ⟨c', htoken, hc'⟩ := yields_token h hbehind c₁ hc₁
  refine ⟨c', ?_, hc'⟩
  unfold item
  rw [Scan.run_bind_ok (Scan.run_position c)]
  exact (Scan.run_bind_ok hrun).trans htoken

/-- Behind blanks `bs` alone the end, of kind `eof`, is the next item. -/
theorem item_of_blanks {bs : List Char} {c : Cursor Source}
    (hblank : ∀ r ∈ bs, Rune.isBlank r = true) (hc : c.Holds bs) :
    ∃ c', item.run c = (.ok (.ofToken (c.position.advanceAll bs) .eof ""), c') := by
  rw [← List.append_nil bs] at hc
  obtain ⟨c', hrun, -⟩ := Run.yields_scan (takes_blanks hblank c.position) .exhausted c hc
  refine ⟨c', ?_⟩
  unfold item
  rw [Scan.run_bind_ok (Scan.run_position c)]
  exact Scan.run_bind_ok hrun

end Scanner

end LexStream
