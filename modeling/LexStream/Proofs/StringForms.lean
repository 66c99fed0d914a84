import LexStream.Proofs.Decoding
import LexStream.Toml.StringForm
import Mathlib.Algebra.Group.Nat.Defs
import Mathlib.Tactic.SplitIfs

/-!
# Written strings

Every string has a written form from which it is read back, whatever quotes, backslashes, newlines
and controls it holds and wherever in it they stand.

`StringForm.Spells form r us` says that the runes `us` spell the rune `r`: as it is, by the letter
of its escape, or by its number.  `StringForm.Spelled form count ws content` says that the runes
`ws` spell the string `content` behind `count` quotes in a row, of which a form on several lines
keeps up to two.  Writing is proved against these rules of spelling, and so is reading; neither
proof looks at the other side.

Main facts:

* `readOn_spelled`: what is spelled is read back up to the quotes that close it, which may follow on
  quotes of the string;
* `spelled_choose`: in the form that is chosen for a string, writing spells the string;
* `read?_write`: a string written in the form chosen for it is read back.
-/

namespace LexStream.Toml

namespace StringForm

/-! ### Rules of spelling -/

/-- How many quotes in a row a `form` keeps as they are. -/
def kept (form : StringForm) : Nat :=
  if form.isMulti then 2 else 0

/-- Whether a `form` keeps a rune `r` that is no quote as it is. -/
def Keeps (form : StringForm) (r : Char) : Prop :=
  (form.hasEscapes = true → r ≠ '\\') ∧ (isPlain r = true ∨ (r = '\n' ∧ form.isMulti = true))

/-- The runes `us` spell the rune `r`. -/
inductive Spells (form : StringForm) (r : Char) : List Char → Prop
  /-- The rune `r` stands for itself. -/
  | itself (hquote : r ≠ form.quote) (hkeeps : form.Keeps r) : Spells form r [r]
  /-- A backslash and a letter `x` stand for the rune `r`. -/
  | letter {x : Char} (hescapes : form.hasEscapes = true) (hx : escape? x = some r) :
      Spells form r ['\\', x]
  /-- Four digits of base sixteen behind `\u` stand for the rune `r`. -/
  | number (hescapes : form.hasEscapes = true) (hr : r.toNat < 16 ^ 4) :
      Spells form r ('\\' :: 'u' :: Text.fixedHex Text.upperDigit 4 r.toNat)

/-- The runes `ws` spell the string `content` behind so many quotes in a row. -/
inductive Spelled (form : StringForm) : Nat → List Char → List Char → Prop
  /-- The string `[]` is spelled by nothing. -/
  | nil {count : Nat} : Spelled form count [] []
  /-- A quote is kept while there are less than `form.kept` in a row. -/
  | quote {count : Nat} {ws rs : List Char} (hcount : count < form.kept)
      (hrest : Spelled form (count + 1) ws rs) :
      Spelled form count (form.quote :: ws) (form.quote :: rs)
  /-- Any rune `r` may be spelled; it ends a row of quotes. -/
  | rune {count : Nat} {r : Char} {us ws rs : List Char} (hr : form.Spells r us)
      (hrest : Spelled form 0 ws rs) : Spelled form count (us ++ ws) (r :: rs)

variable {form : StringForm} {count : Nat} {s : String} {r : Char}
  {us ws rs rest content : List Char}

theorem kept_le_two (form : StringForm) : form.kept ≤ 2 := by
  unfold kept
  split <;> omega

theorem isMulti_of_lt_kept (h : count < form.kept) : form.isMulti = true := by
  unfold kept at h
  split at h
  · assumption
  · omega

theorem quote_ne_backslash (form : StringForm) : '\\' ≠ form.quote := by
  cases form <;> decide

theorem quote_ne_newline (form : StringForm) : '\n' ≠ form.quote ∧ '\r' ≠ form.quote := by
  cases form <;> decide

theorem quote_cases (form : StringForm) : form.quote = '"' ∨ form.quote = '\'' := by
  cases form <;> decide

theorem exists_fence_eq_cons (form : StringForm) : ∃ tail, form.fence = form.quote :: tail := by
  cases form <;> exact ⟨_, rfl⟩

/-! ### Reading on -/

@[simp] theorem pushQuotes_zero (form : StringForm) (s : String) : form.pushQuotes s 0 = s := rfl

theorem pushQuotes_succ (form : StringForm) (s : String) (count : Nat) :
    form.pushQuotes s (count + 1) = (form.pushQuotes s count).push form.quote := rfl

theorem push_append_ofList (s : String) (r : Char) (rs : List Char) :
    s.push r ++ String.ofList rs = s ++ String.ofList (r :: rs) := by
  apply String.ext
  simp [String.toList_append, String.toList_push]

theorem readOn_of_more {state state' : Undecided} {s' : String}
    (h : form.step s r state = .more state' s') :
    form.readOn state s (r :: ws) = form.readOn state' s' ws := by
  rw [readOn, h]

/-- Within a row of quotes that is kept, another quote is not decided on: the state is `quotes`
again. -/
theorem step_quote (hcount : count < form.kept) :
    form.step s form.quote (.quotes count) = .more (.quotes (count + 1)) s := by
  have hmulti := isMulti_of_lt_kept hcount
  have htwo := form.kept_le_two
  have hfour : count ≠ 4 := by omega
  simp [step, quotesStep, hmulti, hfour]

/-- A rune `r` that is no quote settles that the `count` quotes before it belong to the string. -/
theorem step_of_ne (hr : r ≠ form.quote) (hcount : count ≤ form.kept) :
    form.step s r (.quotes count) = form.plainStep (form.pushQuotes s count) r := by
  have htwo := form.kept_le_two
  have hthree : ¬ 3 ≤ count := by omega
  show form.quotesStep count s r = _
  rw [quotesStep, if_neg hr, if_neg hthree]

theorem plainStep_of_keeps (h : form.Keeps r) :
    form.plainStep s r = .more (.quotes 0) (s.push r) := by
  obtain ⟨hslash, hplain | ⟨rfl, hmulti⟩⟩ := h
  · have hescape : ¬ (r = '\\' ∧ form.hasEscapes = true) := fun ⟨hr, hescapes⟩ => hslash hescapes hr
    have hcarriage : r ≠ '\r' := by
      rintro rfl
      exact absurd hplain (by decide)
    by_cases hnewline : r = '\n' <;> simp_all [plainStep]
  · simp [plainStep, hmulti]

theorem step_backslash (hescapes : form.hasEscapes = true) (hcount : count ≤ form.kept) :
    form.step s '\\' (.quotes count) = .more .backslash (form.pushQuotes s count) := by
  rw [step_of_ne form.quote_ne_backslash hcount]
  simp [plainStep, hescapes]

/-! ### Escapes by number -/

theorem digitValue?_upperDigit : ∀ d < 16, Text.digitValue? (Text.upperDigit d) = some d := by
  decide

theorem isDigitIn_upperDigit {d : Nat} (hd : d < 16) :
    Text.isDigitIn 16 (Text.upperDigit d) = true := by
  rw [Text.isDigitIn, digitValue?_upperDigit d hd]
  exact decide_eq_true hd

/-- A row of `width` digits behind which more are `missing` adds to the `value` of an escape by
number.  The induction takes the last digit off, as writing puts it on. -/
theorem readOn_fixedHex (form : StringForm) (s : String) (ws : List Char)
    (width missing value n : Nat) :
    form.readOn (.number (width + missing) value) s
        (Text.fixedHex Text.upperDigit width n ++ ws) =
      form.readOn (.number missing (value * 16 ^ width + n % 16 ^ width)) s ws := by
  induction width generalizing missing n ws with
  | zero => simp [Text.fixedHex, Nat.mod_one]
  | succ width ih =>
    have hsum : width + 1 + missing = width + (missing + 1) := by omega
    have hdigit : n % 16 < 16 := Nat.mod_lt n (by omega)
    have hvalue : (value * 16 ^ width + n / 16 % 16 ^ width) * 16 + n % 16 =
        value * 16 ^ (width + 1) + n % 16 ^ (width + 1) := by
      rw [Nat.pow_succ', Nat.mod_mul, Nat.mul_left_comm]
      omega
    have hstep : form.step s (Text.upperDigit (n % 16))
        (.number (missing + 1) (value * 16 ^ width + n / 16 % 16 ^ width)) =
          .more (.number missing (value * 16 ^ (width + 1) + n % 16 ^ (width + 1))) s := by
      rw [← hvalue]
      simp [step, numberStep, isDigitIn_upperDigit hdigit, digitValue?_upperDigit _ hdigit]
    rw [Text.fixedHex, List.append_assoc, hsum, ih, List.singleton_append, readOn_of_more hstep]

/-- The four digits of the number of the rune `r` stand for it. -/
theorem readOn_number (hr : r.toNat < 16 ^ 4) :
    form.readOn (.number 3 0) s (Text.fixedHex Text.upperDigit 4 r.toNat ++ ws) =
      form.readOn (.quotes 0) (s.push r) ws := by
  have hdigit : r.toNat % 16 < 16 := Nat.mod_lt _ (by omega)
  have hvalue : (0 * 16 ^ 3 + r.toNat / 16 % 16 ^ 3) * 16 + r.toNat % 16 = r.toNat := by omega
  have hstep : form.step s (Text.upperDigit (r.toNat % 16))
      (.number 0 (0 * 16 ^ 3 + r.toNat / 16 % 16 ^ 3)) = .more (.quotes 0) (s.push r) := by
    show numberStep 0 _ s _ = _
    simp only [numberStep, isDigitIn_upperDigit hdigit, digitValue?_upperDigit _ hdigit, if_true,
      Option.getD_some, hvalue, Utf8.scalar?_toNat]
  rw [Text.fixedHex, List.append_assoc, readOn_fixedHex form s _ 3 0, List.singleton_append,
    readOn_of_more hstep]

/-! ### Reading what is spelled -/

/-- What spells a rune `r` is read as this rune, behind the `count` quotes before it. -/
theorem readOn_of_spells (h : form.Spells r us) (hcount : count ≤ form.kept) :
    form.readOn (.quotes count) s (us ++ ws) =
      form.readOn (.quotes 0) ((form.pushQuotes s count).push r) ws := by
  cases h with
  | itself hquote hkeeps =>
    have hstep := (step_of_ne (s := s) hquote hcount).trans (plainStep_of_keeps hkeeps)
    rw [List.singleton_append, readOn_of_more hstep]
  | @letter x hescapes hx =>
    have hstep : form.step (form.pushQuotes s count) x .backslash =
        .more (.quotes 0) ((form.pushQuotes s count).push r) := by
      simp [step, escapeStep, hx]
    rw [List.cons_append, readOn_of_more (step_backslash hescapes hcount), List.singleton_append,
      readOn_of_more hstep]
  | number hescapes hr =>
    have hstep : form.step (form.pushQuotes s count) 'u' .backslash =
        .more (.number 3 0) (form.pushQuotes s count) := by
      simp [step, escapeStep, escape?]
    rw [List.cons_append, readOn_of_more (step_backslash hescapes hcount), List.cons_append,
      readOn_of_more hstep, readOn_number hr]

/-- The closing quotes of a string may stand behind `count` quotes that belong to it.  On several
lines, reading sees that they have ended at the next rune, at the end of the text, or at a fifth
quote. -/
theorem readOn_fence (hcount : count ≤ form.kept) (hrest : rest.head? ≠ some form.quote) :
    form.readOn (.quotes count) s (form.fence ++ rest) = some (form.pushQuotes s count, rest) := by
  cases hmulti : form.isMulti with
  | false =>
    have hzero : count = 0 := by simpa [kept, hmulti] using hcount
    simp [fence, hmulti, hzero, readOn, step, quotesStep]
  | true =>
    have htwo : count ≤ 2 := by simpa [kept, hmulti] using hcount
    have hclosed : ∀ n, n ≤ 1 →
        form.readOn (.quotes (3 + n)) s rest = some (form.pushQuotes s n, rest) := by
      intro n hn
      cases rest with
      | nil => simp [readOn, atEnd?]
      | cons r rs =>
        have hr : r ≠ form.quote := by simpa using hrest
        simp [readOn, step, quotesStep, hr]
    obtain rfl | rfl | rfl : count = 0 ∨ count = 1 ∨ count = 2 := by omega
    · simpa [fence, hmulti, readOn, step, quotesStep] using hclosed 0 (by omega)
    · simpa [fence, hmulti, readOn, step, quotesStep] using hclosed 1 (by omega)
    · simp [fence, hmulti, readOn, step, quotesStep]

/-- What spells the string `content` is read back up to the quotes that close it. -/
theorem readOn_spelled (h : form.Spelled count ws content) (hcount : count ≤ form.kept)
    (hrest : rest.head? ≠ some form.quote) (s : String) :
    form.readOn (.quotes count) s (ws ++ (form.fence ++ rest)) =
      some (form.pushQuotes s count ++ String.ofList content, rest) := by
  -- The count of the spelling is that of the quotes that reading has not decided on.
  induction h generalizing s with
  | nil => simpa using readOn_fence hcount hrest
  | quote hlt hrest' ih =>
    rw [List.cons_append, readOn_of_more (step_quote hlt), ih hlt, pushQuotes_succ,
      push_append_ofList]
  | rune hr hrest' ih =>
    rw [List.append_assoc, readOn_of_spells hr hcount, ih (Nat.zero_le _), pushQuotes_zero,
      push_append_ofList]

/-! ### Opening quotes -/

/-- What spells a rune `r` starts with no quote, with no carriage return, and with a newline only
for the newline. -/
theorem Spells.exists_cons (h : form.Spells r us) :
    ∃ x xs, us = x :: xs ∧ x ≠ form.quote ∧ x ≠ '\r' ∧ (x = '\n' → r = '\n') := by
  cases h with
  | itself hquote hkeeps =>
    refine ⟨r, [], rfl, hquote, ?_, id⟩
    rintro rfl
    obtain ⟨-, hplain | ⟨hr, -⟩⟩ := hkeeps
    · exact absurd hplain (by decide)
    · exact absurd hr (by decide)
  | letter => exact ⟨_, _, rfl, form.quote_ne_backslash, by decide, fun h => absurd h (by decide)⟩
  | number => exact ⟨_, _, rfl, form.quote_ne_backslash, by decide, fun h => absurd h (by decide)⟩

/-- On one line, no quote of `content` stands for itself, so no third quote follows the opening one
and the closing one of an empty string. -/
theorem Spelled.not_fence (h : form.Spelled 0 ws content) (hmulti : form.isMulti = false)
    (hrest : rest.head? ≠ some form.quote) :
    ¬ [form.quote, form.quote] <+: ws ++ (form.fence ++ rest) := by
  have hkept : form.kept = 0 := by simp [kept, hmulti]
  cases h with
  | nil =>
    rintro ⟨tail, htail⟩
    apply hrest
    have htail' : form.quote :: form.quote :: tail = form.quote :: rest := by
      simpa [fence, hmulti] using htail
    rw [← (List.cons.inj htail').2]
    rfl
  | quote hlt => omega
  | rune hr =>
    obtain ⟨x, xs, rfl, hx, -⟩ := hr.exists_cons
    rintro ⟨tail, htail⟩
    exact hx (List.head_eq_of_cons_eq htail).symm

/-- A string `content` without newlines is not spelled with one in front, which `dropNewline` would
drop. -/
theorem Spelled.dropNewline_eq (h : form.Spelled 0 ws content) (hcontent : '\n' ∉ content)
    (rest : List Char) : dropNewline (ws ++ (form.fence ++ rest)) = ws ++ (form.fence ++ rest) := by
  have hkeep : ∀ x xs, x ≠ '\n' → x ≠ '\r' → dropNewline (x :: xs) = x :: xs := by
    intro x xs hnewline hcarriage
    unfold dropNewline
    split <;> simp_all
  obtain ⟨hnewline, hcarriage⟩ := form.quote_ne_newline
  cases h with
  | nil =>
    obtain ⟨tail, htail⟩ := form.exists_fence_eq_cons
    rw [htail]
    exact hkeep _ _ hnewline.symm hcarriage.symm
  | quote => exact hkeep _ _ hnewline.symm hcarriage.symm
  | rune hr =>
    obtain ⟨x, xs, rfl, -, hx, hxr⟩ := hr.exists_cons
    refine hkeep _ _ (fun heq => hcontent ?_) hx
    rw [hxr heq]
    exact List.mem_cons_self

/-- The `form` of a string is known from its opening quotes, the `fence`. -/
theorem read?_fence (h : form.isMulti = false → ¬ [form.quote, form.quote] <+: rest) :
    read? (form.fence ++ rest) =
      form.readOn (.quotes 0) "" (if form.isMulti then dropNewline rest else rest) := by
  have hfind : [multiBasic, basic, multiLiteral, literal].find?
      (fun form' => form'.fence.isPrefixOf (form.fence ++ rest)) = some form := by
    have hshort : form.isMulti = false → [form.quote, form.quote].isPrefixOf rest = false := by
      intro hmulti
      rw [Bool.eq_false_iff]
      exact fun hprefix => h hmulti (List.isPrefixOf_iff_prefix.1 hprefix)
    cases form <;> simp_all [List.find?, fence, isMulti, quote, List.isPrefixOf]
  rw [read?, readAny?, hfind]
  dsimp only
  rw [List.drop_left]

/-- A string `content` that is spelled between the quotes of a `form` is read back. -/
theorem read?_of_spelled (h : form.Spelled 0 ws content) (hrest : rest.head? ≠ some form.quote) :
    read? (form.fence ++ ((if form.isMulti && content.contains '\n' then ['\n'] else []) ++
      (ws ++ (form.fence ++ rest)))) = some (String.ofList content, rest) := by
  have hread : form.readOn (.quotes 0) "" (ws ++ (form.fence ++ rest)) =
      some (String.ofList content, rest) := by
    simpa using readOn_spelled h (Nat.zero_le _) hrest ""
  cases hmulti : form.isMulti with
  | false =>
    rw [Bool.false_and, if_neg Bool.false_ne_true, List.nil_append,
      read?_fence fun _ => h.not_fence hmulti hrest, hmulti, if_neg Bool.false_ne_true, hread]
  | true =>
    -- Reading drops one newline: the one that writing put in front, or else none that was written.
    rw [read?_fence fun hfalse => absurd hfalse (by rw [hmulti]; decide), hmulti,
      if_pos rfl, Bool.true_and]
    by_cases hcontent : '\n' ∈ content
    · rw [if_pos (List.contains_iff_mem.2 hcontent)]
      exact hread
    · rw [if_neg fun hmem => hcontent (List.contains_iff_mem.1 hmem), List.nil_append,
        h.dropNewline_eq hcontent, hread]

/-! ### Writing -/

theorem isPlain_of_not_isControl (h : isControl r = false) : isPlain r = true := by
  simp [isControl, isPlain] at *
  omega

/-- A form with escapes spells every rune but its quote by `escaped`. -/
theorem spells_escaped (hescapes : form.hasEscapes = true) (hr : r ≠ form.quote) :
    form.Spells r (form.escaped r) := by
  unfold escaped
  split_ifs with hnewline hb ht hn hf hret hslash hcontrol
  · simp only [Bool.and_eq_true, decide_eq_true_eq] at hnewline
    refine .itself hr ⟨fun _ => ?_, .inr hnewline⟩
    rw [hnewline.1]
    decide
  · exact .letter hescapes (by rw [hb]; rfl)
  · exact .letter hescapes (by rw [ht]; rfl)
  · exact .letter hescapes (by rw [hn]; rfl)
  · exact .letter hescapes (by rw [hf]; rfl)
  · exact .letter hescapes (by rw [hret]; rfl)
  · exact .letter hescapes (by rw [hslash]; rfl)
  · refine .number hescapes ?_
    simp only [isControl, Bool.or_eq_true, decide_eq_true_eq] at hcontrol
    omega
  · exact .itself hr ⟨fun _ => hslash, .inl (isPlain_of_not_isControl (by simpa using hcontrol))⟩

/-- With escapes, `writeOn` spells every string `content`. -/
theorem spelled_writeOn (hescapes : form.hasEscapes = true) (count : Nat) (content : List Char) :
    form.Spelled count (form.writeOn count content) content := by
  induction content generalizing count with
  | nil => exact .nil
  | cons r rs ih =>
    rw [writeOn, hescapes, Bool.not_true, if_neg Bool.false_ne_true]
    split_ifs with hr hfew
    · exact .rune (spells_escaped hescapes hr) (ih 0)
    · obtain rfl : r = form.quote := Decidable.not_not.1 hr
      simp only [Bool.and_eq_true, decide_eq_true_eq] at hfew
      exact .quote (by simp [kept, hfew]) (ih (count + 1))
    · obtain rfl : r = form.quote := Decidable.not_not.1 hr
      have hquote : escape? form.quote = some form.quote := by
        cases form <;> first | rfl | cases hescapes
      exact .rune (.letter hescapes hquote) (ih 0)

theorem writeOn_eq_self (hescapes : form.hasEscapes = false) (count : Nat) (content : List Char) :
    form.writeOn count content = content := by
  induction content generalizing count with
  | nil => rfl
  | cons r rs ih => simp [writeOn, hescapes, ih]

theorem le_longestRow (quote : Char) (count : Nat) (content : List Char) :
    count ≤ longestRow quote count content := by
  induction content generalizing count with
  | nil => exact Nat.le_refl _
  | cons r rs ih =>
    rw [longestRow]
    split_ifs
    · exact Nat.le_of_succ_le (ih (count + 1))
    · exact Nat.le_max_left _ _

/-- A string `content` spells itself when all its runes are kept and its rows of quotes are short
enough. -/
theorem spelled_self (hkeeps : ∀ r ∈ content, form.Keeps r)
    (hrow : longestRow form.quote count content ≤ form.kept) :
    form.Spelled count content content := by
  induction content generalizing count with
  | nil => exact .nil
  | cons r rs ih =>
    obtain ⟨hr, hrs⟩ := List.forall_mem_cons.1 hkeeps
    rw [longestRow] at hrow
    split_ifs at hrow with hquote
    · subst hquote
      have hcount := Nat.le_trans (le_longestRow form.quote (count + 1) rs) hrow
      exact .quote hcount (ih hrs hrow)
    · exact .rune (.itself hquote hr) (ih hrs (Nat.le_trans (Nat.le_max_right _ _) hrow))

/-- A `form` without escapes keeps the tab, on several lines the newline, and all that is no
control. -/
theorem keeps_of_isControl (hescapes : form.hasEscapes = false)
    (hcode : isControl r = true → r = '\t' ∨ r = '\n') (hnewline : r = '\n' → form.isMulti = true) :
    form.Keeps r := by
  refine ⟨fun h => absurd h (by rw [hescapes]; decide), ?_⟩
  cases hcontrol : isControl r with
  | false => exact .inl (isPlain_of_not_isControl hcontrol)
  | true =>
    rcases hcode hcontrol with rfl | rfl
    · exact .inl (by decide)
    · exact .inr ⟨rfl, hnewline rfl⟩

/-- A `form` without escapes is chosen only for a string `content` that it keeps as it is. -/
theorem keeps_of_choose (h : choose content = form) (hescapes : form.hasEscapes = false) :
    (∀ r ∈ content, form.Keeps r) ∧ longestRow form.quote 0 content ≤ form.kept := by
  have hcode : (content.any fun r => isControl r && r ≠ '\t' && r ≠ '\n') = false →
      ∀ r ∈ content, isControl r = true → r = '\t' ∨ r = '\n' := by
    intro hcodes r hr hcontrol
    have hno := List.any_eq_false.1 hcodes r hr
    simpa [hcontrol, Decidable.or_iff_not_imp_left] using hno
  unfold choose at h
  dsimp only at h
  split_ifs at h with hbasic hliteral hmultiBasic hmultiLiteral hlines <;> subst h
  · cases hescapes
  · simp only [Bool.and_eq_true, Bool.not_eq_true', decide_eq_true_eq] at hliteral
    obtain ⟨⟨hcodes, hrow⟩, hlines⟩ := hliteral
    refine ⟨fun r hr => keeps_of_isControl rfl (hcode hcodes r hr) ?_, Nat.le_of_eq hrow⟩
    rintro rfl
    exact absurd (List.contains_iff_mem.2 hr) (by rw [hlines]; decide)
  · cases hescapes
  · simp only [Bool.and_eq_true, Bool.not_eq_true', decide_eq_true_eq] at hmultiLiteral
    obtain ⟨hcodes, hrow⟩ := hmultiLiteral
    exact ⟨fun r hr => keeps_of_isControl rfl (hcode hcodes r hr) fun _ => rfl, hrow⟩
  · cases hescapes
  · cases hescapes

/-- In the form `choose content`, writing spells `content`. -/
theorem spelled_choose (content : List Char) :
    (choose content).Spelled 0 ((choose content).writeOn 0 content) content := by
  cases hescapes : (choose content).hasEscapes with
  | true => exact spelled_writeOn hescapes 0 content
  | false =>
    obtain ⟨hkeeps, hrow⟩ := keeps_of_choose rfl hescapes
    rw [writeOn_eq_self hescapes]
    exact spelled_self hkeeps hrow

/-- A string written in the form `choose content` is read back, when no quote follows. -/
theorem read?_write (content : List Char) (hrest : rest.head? ≠ some (choose content).quote) :
    read? ((choose content).write content ++ rest) = some (String.ofList content, rest) := by
  have hread := read?_of_spelled (spelled_choose content) hrest
  rw [write]
  simpa only [List.append_assoc] using hread

end StringForm

end LexStream.Toml
