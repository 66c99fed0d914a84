import LexStream.Proofs.Restart
import Mathlib.Data.List.TakeWhile

/-!
# The longest numeral

A numeral is the longest first part of the text that its grammar allows.  A zero that no point
follows starts a whole number, any other digit a decimal numeral; behind a decimal numeral another
mark may stand, which is an illegal item of its own and drops the numeral.

Both grammars hold with a row all its first parts that are not empty, so the longest row is the one
behind which the next rune fits no more (`Longest.of_head?`).  That is where the scan halts.

Main facts:

* `Scanner.exists_gives_zeroLed`, `Scanner.exists_gives_decimal`: what the scans of the two kinds of
  numerals find in front of any text;
* `Lexer.nextItem_of_digit`: the first item of a text that starts with a digit.
-/

namespace LexStream

open Grammar

namespace Grammar

/-! ### Longest rows with a property -/

/-- The row `v` is the longest first part of the text that has the property `P`. -/
def Longest (P : List Char → Prop) (text v : List Char) : Prop :=
  P v ∧ v <+: text ∧ ∀ w, w <+: text → P w → w <+: v

/-- Where all first parts of a row with the property `P` have it too, the longest row `v` ends in
front of the first rune that does not fit. -/
theorem Longest.of_head? {P : List Char → Prop} {v behind : List Char}
    (hclosed : ∀ us ws, us ≠ [] → P (us ++ ws) → P us) (hv : P v)
    (hstop : ∀ r ∈ behind.head?, ¬P (v ++ [r])) : Longest P (v ++ behind) v := by
  refine ⟨hv, List.prefix_append v behind, fun w hw hP => ?_⟩
  rcases List.prefix_or_prefix_of_prefix hw (List.prefix_append v behind) with hshort | ⟨us, rfl⟩
  · exact hshort
  · cases us with
    | nil => rw [List.append_nil]
    | cons r us =>
      rw [List.prefix_append_right_inj] at hw
      obtain ⟨rest, rfl⟩ := hw
      rw [List.append_cons] at hP
      have hfits : P (v ++ [r]) := hclosed _ us (by simp) hP
      exact absurd hfits (hstop r rfl)

theorem Longest.congr {P Q : List Char → Prop} {text v : List Char} (h : ∀ w, P w ↔ Q w)
    (hv : Longest P text v) : Longest Q text v := by
  obtain ⟨hP, hpre, hlongest⟩ := hv
  exact ⟨(h v).1 hP, hpre, fun w hw hQ => hlongest w hw ((h w).2 hQ)⟩

/-! ### Whole numbers, rune by rune -/

/-- A zero, one of the runes `marks`, and any number of the runes `digits`. -/
def Marked (marks digits : String) (v : List Char) : Prop :=
  ∃ mark ds, v = '0' :: mark :: ds ∧ mark ∈ marks.toList ∧ ∀ d ∈ ds, d ∈ digits.toList

/-- A zero and behind it any number of binary digits and their mark, hexadecimal digits and their
mark, or decimal digits: the row `v` without regard to how it is scanned. -/
def ZeroLed (v : List Char) : Prop :=
  Marked "bB" "01" v ∨ Marked "xX" "0123456789abcdefABCDEF" v ∨
    ∃ ds, v = '0' :: ds ∧ ∀ d ∈ ds, d ∈ "0123456789".toList

end Grammar

namespace Text

theorem toNat_lt_of_isDigitIn {base : Nat} {r : Char} (h : isDigitIn base r = true) :
    r.toNat < 128 := by
  have hle : ∀ {top : Char}, r ≤ top → r.toNat ≤ top.toNat := fun h => h
  unfold isDigitIn digitValue? at h
  split_ifs at h with hdigit hlower hupper
  · simp only [Bool.and_eq_true, decide_eq_true_eq] at hdigit
    exact (hle hdigit.2).trans_lt (by decide)
  · simp only [Bool.and_eq_true, decide_eq_true_eq] at hlower
    exact (hle hlower.2).trans_lt (by decide)
  · simp only [Bool.and_eq_true, decide_eq_true_eq] at hupper
    exact (hle hupper.2).trans_lt (by decide)

/-- The digits of a `base` are the row `digits`, if they are so among the first `128` runes. -/
theorem isDigitIn_iff_mem {base : Nat} {digits : List Char}
    (hfirst : ∀ n < 128, isDigitIn base (Char.ofNat n) = true → Char.ofNat n ∈ digits)
    (hdigits : digits.all (isDigitIn base) = true) (r : Char) :
    isDigitIn base r = true ↔ r ∈ digits := by
  refine ⟨fun h => ?_, List.all_eq_true.1 hdigits r⟩
  have hmem := hfirst r.toNat (toNat_lt_of_isDigitIn h)
  rw [Char.ofNat_toNat] at hmem
  exact hmem h

theorem isDigitIn_two_iff (r : Char) : isDigitIn 2 r = true ↔ r ∈ "01".toList :=
  isDigitIn_iff_mem (by decide +kernel) (by decide) r

theorem isDigitIn_ten_iff (r : Char) : isDigitIn 10 r = true ↔ r ∈ "0123456789".toList :=
  isDigitIn_iff_mem (by decide +kernel) (by decide) r

theorem isDigitIn_sixteen_iff (r : Char) :
    isDigitIn 16 r = true ↔ r ∈ "0123456789abcdefABCDEF".toList :=
  isDigitIn_iff_mem (by decide +kernel) (by decide) r

end Text

namespace Grammar

theorem whole_iff_zeroLed (v : List Char) : Whole v ↔ ZeroLed v := by
  unfold ZeroLed Marked
  simp only [← Text.isDigitIn_two_iff, ← Text.isDigitIn_ten_iff, ← Text.isDigitIn_sixteen_iff]
  constructor
  · intro h
    cases h with
    | @binary mark ds hmark hds => exact .inl ⟨mark, ds, rfl, by simpa using hmark, hds⟩
    | @hexadecimal mark ds hmark hds =>
      exact .inr (.inl ⟨mark, ds, rfl, by simpa using hmark, hds⟩)
    | @decimal ds hds => exact .inr (.inr ⟨ds, rfl, hds⟩)
  · rintro (⟨mark, ds, rfl, hmark, hds⟩ | ⟨mark, ds, rfl, hmark, hds⟩ | ⟨ds, rfl, hds⟩)
    · exact .binary (by simpa using hmark) hds
    · exact .hexadecimal (by simpa using hmark) hds
    · exact .decimal hds

/-- The base of a whole number, by the rune `mark` behind its zero. -/
def baseOf? (mark : Char) : Option Nat :=
  if mark = 'b' || mark = 'B' then some 2
  else if mark = 'x' || mark = 'X' then some 16
  else if mark.isDigit then some 10
  else none

/-- Behind the rune `mark` that tells the `base`, a whole number is a row of digits of this base. -/
theorem whole_cons_iff {mark : Char} {ds : List Char} :
    Whole ('0' :: mark :: ds) ↔
      ∃ base, baseOf? mark = some base ∧ ∀ d ∈ ds, Text.isDigitIn base d = true := by
  constructor
  · intro h
    cases h with
    | binary hmark hds =>
      refine ⟨2, ?_, hds⟩
      rcases hmark with rfl | rfl <;> rfl
    | hexadecimal hmark hds =>
      refine ⟨16, ?_, hds⟩
      rcases hmark with rfl | rfl <;> rfl
    | decimal hds =>
      have hmark := Scanner.isDigit_of_isDigitIn_ten (hds mark List.mem_cons_self)
      refine ⟨10, ?_, fun d hd => hds d (List.mem_cons_of_mem mark hd)⟩
      unfold baseOf?
      rw [if_neg, if_neg, if_pos hmark]
      · rw [Bool.or_eq_true, decide_eq_true_eq, decide_eq_true_eq]
        rintro (rfl | rfl) <;> cases hmark
      · rw [Bool.or_eq_true, decide_eq_true_eq, decide_eq_true_eq]
        rintro (rfl | rfl) <;> cases hmark
  · rintro ⟨base, hbase, hds⟩
    unfold baseOf? at hbase
    split_ifs at hbase with hbinary hhexadecimal hdigit
    all_goals obtain rfl := Option.some.inj hbase
    · exact .binary (by simpa using hbinary) hds
    · exact .hexadecimal (by simpa using hhexadecimal) hds
    · refine .decimal fun d hd => ?_
      rcases List.mem_cons.1 hd with rfl | hd
      · exact Scanner.isDigitIn_ten hdigit
      · exact hds d hd

/-! ### First parts of numerals -/

theorem whole_zero : Whole ['0'] :=
  .decimal (by simp)

theorem Whole.of_append {us ws : List Char} (hne : us ≠ []) (h : Whole (us ++ ws)) : Whole us := by
  obtain ⟨first, us, rfl⟩ := List.exists_cons_of_ne_nil hne
  obtain rfl : first = '0' := by
    generalize hrow : first :: us ++ ws = row at h
    cases h <;> exact (List.cons.inj hrow).1
  cases us with
  | nil => exact whole_zero
  | cons mark us =>
    obtain ⟨base, hbase, hds⟩ := whole_cons_iff.1 h
    exact whole_cons_iff.2 ⟨base, hbase, fun d hd => hds d (List.mem_append_left ws hd)⟩

theorem Decimal.of_append {us ws : List Char} (hne : us ≠ []) (h : Decimal (us ++ ws)) :
    Decimal us := by
  obtain ⟨first, us, rfl⟩ := List.exists_cons_of_ne_nil hne
  cases h with
  | intro hfirst hrest hpoint hexponent =>
    have hsub := List.sublist_append_left us ws
    exact .intro hfirst (fun r hr => hrest r (List.mem_append_left ws hr))
      ((hsub.count_le _).trans hpoint) ((hsub.count_le _).trans hexponent)

end Grammar

namespace Scanner

variable {start p : Position} {first : Char} {text us behind : List Char} {found : Finding}

/-! ### Whole numbers -/

/-- The digits `ds` of a whole number are the longest row of them. -/
theorem exists_gives_wholeIn (base : Nat) (lead text : List Char) :
    ∃ ds behind, text = ds ++ behind ∧ (∀ d ∈ ds, Text.isDigitIn base d = true) ∧
      (∀ r ∈ behind.head?, Text.isDigitIn base r = false) ∧
      ∀ start p, (wholeIn base start lead).Gives p ds behind
        (.ofToken start .int (String.ofList (lead ++ ds))) := by
  have hds : ∀ d ∈ text.takeWhile (Text.isDigitIn base), Text.isDigitIn base d = true :=
    fun d hd => List.mem_takeWhile_imp hd
  have hbehind : ∀ r ∈ (text.dropWhile (Text.isDigitIn base)).head?,
      Text.isDigitIn base r = false := by
    intro r hr
    have hhead := List.head?_dropWhile_not (Text.isDigitIn base) text
    rw [Option.mem_def.1 hr] at hhead
    exact hhead
  refine ⟨_, _, List.takeWhile_append_dropWhile.symm, hds, hbehind, fun start p => ?_⟩
  rw [String.ofList_append]
  exact (Run.gives_scanClass hds hbehind p).bind_stay (Scan.gives_pure _ _ _)

/-- The rune `mark` behind the zero tells the `base`. -/
theorem gives_zeroLed_of_base {mark : Char} {base : Nat} {ds : List Char}
    (hbase : baseOf? mark = some base)
    (h : (wholeIn base start ['0', mark]).Gives (p.advance mark) ds behind found) :
    (zeroLed start).Gives p (mark :: ds) behind found := by
  refine Scan.Gives.bind (Scan.Local.gives_nextRune_cons p mark (ds ++ behind)) ?_
  dsimp only
  unfold baseOf? at hbase
  split_ifs at hbase with hbinary hhexadecimal hdigit
  all_goals obtain rfl := Option.some.inj hbase
  · rw [if_pos hbinary]
    exact h
  · rw [if_neg hbinary, if_pos hhexadecimal]
    exact h
  · rw [if_neg hbinary, if_neg hhexadecimal, if_pos hdigit]
    exact h

/-- Behind a zero `zeroLed` finds the longest whole number. -/
theorem exists_gives_zeroLed (text : List Char) :
    ∃ v behind, text = v ++ behind ∧ Longest Whole ('0' :: text) ('0' :: v) ∧
      ∀ start p, (zeroLed start).Gives p v behind
        (.ofToken start .int (String.ofList ('0' :: v))) := by
  cases text with
  | nil =>
    refine ⟨[], [], rfl, ?_, fun start p => ?_⟩
    · exact .of_head? (fun _ _ => Whole.of_append) whole_zero (by simp)
    · exact (Scan.Local.gives_nextRune_nil p).bind_stay (Scan.gives_pure _ _ _)
  | cons mark text =>
    cases hbase : baseOf? mark with
    | none =>
      refine ⟨[], mark :: text, rfl, ?_, fun start p => ?_⟩
      · refine .of_head? (fun _ _ => Whole.of_append) whole_zero fun r hr hwhole => ?_
        obtain rfl := Option.some.inj hr
        obtain ⟨base, hsome, -⟩ := whole_cons_iff.1 hwhole
        cases hbase.symm.trans hsome
      · unfold baseOf? at hbase
        split_ifs at hbase with hbinary hhexadecimal hdigit
        exact Scan.Local.gives_zeroLed hbinary hhexadecimal hdigit p text
    | some base =>
      obtain ⟨ds, behind, rfl, hds, hbehind, hgives⟩ := exists_gives_wholeIn base ['0', mark] text
      refine ⟨mark :: ds, behind, rfl, ?_, fun start p => ?_⟩
      · have hwhole : Whole ('0' :: mark :: ds) := whole_cons_iff.2 ⟨base, hbase, hds⟩
        refine .of_head? (fun _ _ => Whole.of_append) hwhole fun r hr hmore => ?_
        obtain ⟨base', hsome, hdigits⟩ := whole_cons_iff.1 hmore
        obtain rfl := Option.some.inj (hbase.symm.trans hsome)
        have hr' := hdigits r (by simp)
        rw [hbehind r hr] at hr'
        cases hr'
      · exact gives_zeroLed_of_base hbase (hgives start _)

/-! ### Decimal numerals -/

/-- A rune `r` that `decimalStep` does not take fits no decimal numeral behind `first :: ts`. -/
theorem not_decimal_snoc {marks : Marks} {ts : List Char} {r : Char} (hcount : marks.Count ts)
    (hr : ∀ marks', decimalStep marks r ≠ .take marks') : ¬Decimal (first :: ts ++ [r]) := by
  intro h
  cases h with
  | intro hfirst hrest hpoint hexponent =>
    obtain ⟨marks', htake⟩ :=
      exists_decimalStep_take hcount (hrest r (by simp)) hpoint hexponent
    exact hr marks' htake

theorem decimalStep_mark_ne_leave {marks : Marks} {mark : Char} (hmark : mark = '.' ∨ mark = 'e') :
    decimalStep marks mark ≠ .leave := by
  unfold decimalStep
  rcases hmark with rfl | rfl
  · rw [if_pos rfl]
    split_ifs <;> simp
  · rw [if_neg (by decide), if_pos rfl]
    split_ifs <;> simp

/-- A second `mark` of a kind is illegal where it stands, and the numeral before it is dropped. -/
theorem gives_decimal_stopped {marks : Marks} {ts : List Char} {mark : Char}
    (htakes : Run.Takes decimalStep {} ts marks) (hstop : decimalStep marks mark = .stop)
    (start p : Position) :
    (decimal start first).Gives p (ts ++ [mark]) behind
      (.illegal (p.advanceAll ts) mark
        (.repeatedMark (p.advanceAll ts) mark (String.ofList (first :: ts)))) := by
  have hnewline : mark ≠ '\n' := by
    rcases decimalStep_stop hstop with ⟨rfl, -⟩ | ⟨rfl, -⟩ <;> decide
  have hbehind : p.advanceAll (ts ++ [mark]) = (p.advanceAll ts).advance mark :=
    p.advanceAll_append ts [mark]
  refine (Run.gives_scan htakes (.stopped hstop) p).bind_stay ?_
  refine (Scan.Local.gives_position _ behind).bind_stay ?_
  rw [Position.advanceAll_nil, hbehind, singleton_append_ofList]
  dsimp only
  rw [advance_col_sub_one hnewline]
  exact Scan.gives_pure _ _ behind

/-- In front of a rune that is neither a digit nor a mark the numeral `first :: ts` ends. -/
theorem gives_decimal_ended {marks : Marks} {ts : List Char} {ending : Ending}
    (hfirst : first.isDigit = true) (htakes : Run.Takes decimalStep {} ts marks)
    (hhalts : Run.Halts decimalStep marks behind ending behind) (hne : ∀ r, ending ≠ .stopped r)
    (start p : Position) :
    (decimal start first).Gives p ts behind
      (.ofToken start (if '.' ∈ first :: ts ∨ 'e' ∈ first :: ts then .float else .int)
        (String.ofList (first :: ts))) := by
  refine (Run.gives_scan_of_halts htakes hhalts p).bind_stay ?_
  dsimp only
  split
  next => exact absurd rfl (hne _)
  next =>
    rw [(takes_decimalStep htakes).kind_eq hfirst, singleton_append_ofList]
    exact Scan.gives_pure _ _ behind

/-- The longest decimal numeral `first :: ts` is found, unless another mark stands behind it. -/
theorem exists_gives_decimal (hfirst : first.isDigit = true) (text : List Char) :
    ∃ ts behind, text = ts ++ behind ∧ Longest Decimal (first :: text) (first :: ts) ∧
      (∀ mark rest, behind = mark :: rest → mark = '.' ∨ mark = 'e' →
        ∀ start p, (decimal start first).Gives p (ts ++ [mark]) rest
          (.illegal (p.advanceAll ts) mark
            (.repeatedMark (p.advanceAll ts) mark (String.ofList (first :: ts))))) ∧
      ((∀ r ∈ behind.head?, r ≠ '.' ∧ r ≠ 'e') →
        ∀ start p, (decimal start first).Gives p ts behind
          (.ofToken start (if '.' ∈ first :: ts ∨ 'e' ∈ first :: ts then .float else .int)
            (String.ofList (first :: ts)))) := by
  obtain ⟨ts, behind, marks, ending, rest, rfl, htakes, hhalts⟩ :=
    Run.exists_halts decimalStep {} text
  have hcount := takes_decimalStep htakes
  -- What is not taken fits no more, so the row that is taken is the longest.
  have hlongest : (∀ r ∈ behind.head?, ∀ marks', decimalStep marks r ≠ .take marks') →
      Longest Decimal (first :: (ts ++ behind)) (first :: ts) := fun hr =>
    .of_head? (fun _ _ => Decimal.of_append) (hcount.decimal hfirst) fun r hmem =>
      not_decimal_snoc hcount (hr r hmem)
  refine ⟨ts, behind, rfl, hlongest ?_, ?_, ?_⟩
  · intro r hr marks' htake
    cases hhalts with
    | stopped hstop =>
      obtain rfl := Option.some.inj hr
      cases hstop.symm.trans htake
    | left hleave =>
      obtain rfl := Option.some.inj hr
      cases hleave.symm.trans htake
    | exhausted => cases hr
  · rintro mark rest rfl hmark start p
    cases hhalts with
    | stopped hstop => exact gives_decimal_stopped htakes hstop start p
    | left hleave => exact absurd hleave (decimalStep_mark_ne_leave hmark)
  · intro hother start p
    cases hhalts with
    | @stopped r _ hstop =>
      obtain ⟨hpoint, hexponent⟩ := hother r rfl
      rcases decimalStep_stop hstop with ⟨rfl, -⟩ | ⟨rfl, -⟩
      · exact absurd rfl hpoint
      · exact absurd rfl hexponent
    | left hleave => exact gives_decimal_ended hfirst htakes (.left hleave) (by simp) start p
    | exhausted => exact gives_decimal_ended hfirst htakes .exhausted (by simp) start p

/-! ### Numerals -/

theorem gives_numeral_zeroLed (hnext : (us ++ behind).head? ≠ some '.')
    (h : (zeroLed start).Gives p us behind found) :
    (numeral start '0').Gives p us behind found := by
  unfold numeral
  rw [if_pos rfl]
  refine (Scan.Local.gives_peek p (us ++ behind)).stay_bind ?_
  split
  next hpoint => exact absurd hpoint hnext
  next => exact h

theorem gives_numeral_decimal (hnext : first = '0' → (us ++ behind).head? = some '.')
    (h : (decimal start first).Gives p us behind found) :
    (numeral start first).Gives p us behind found := by
  unfold numeral
  split_ifs with hzero
  · refine (Scan.Local.gives_peek p (us ++ behind)).stay_bind ?_
    rw [hnext hzero]
    exact h
  · exact h

/-! ### Items -/

/-- A digit `first` starts a numeral, so `numeral` tells what `item` gives. -/
theorem gives_item_of_numeral (hdigit : first.isDigit = true)
    (h : (numeral p first).Gives (p.advance first) us behind found) :
    item.Gives p (first :: us) behind found := by
  have hblank : Rune.isBlank first = false := by
    refine eq_false_of_ne_true fun hblank => ?_
    have hnone := Rune.not_isDigit_of_isSpace (Rune.isSpace_of_isBlank hblank)
    cases hnone.symm.trans hdigit
  have hnewline : first ≠ '\n' := by
    rintro rfl
    cases hdigit
  have htoken : (token p first).Gives (p.advance first) us behind found := by
    refine gives_token_of_none hnewline (no_operator_starts (.inr (.inl hdigit))) ?_
    rw [otherToken_of_isDigit hdigit]
    exact h
  have hnoBlanks : ∀ r ∈ ([] : List Char), Rune.isBlank r = true := by simp
  exact gives_item_of_token hnoBlanks hblank htoken

end Scanner

/-! ### The first item of a text -/

namespace Lexer

/-- A lexer gives the item that `Scanner.item` has `found`, and goes on behind the runes `us`
passed. -/
theorem Faces.nextItem_of_gives {l : Lexer Source} {p : Position} {us rest : List Char}
    {found : Finding} (h : l.Faces p (us ++ rest)) (hitem : Scanner.item.Gives p us rest found)
    (hne : found.item.token ≠ .eof) :
    l.nextItem.1 = .ok found.item ∧ l.nextItem.2.Faces (p.advanceAll us) rest := by
  obtain ⟨c, hrun, hc⟩ := hitem l.cursor h.cursor
  rw [nextItem_of_ok h.isOpen hrun]
  exact ⟨rfl, by simpa using hne, hc⟩

/-- A zero that no point follows starts the longest whole number `v` there is. -/
theorem Faces.nextItem_of_zero {l : Lexer Source} {p : Position} {rest : List Char}
    (h : l.Faces p ('0' :: rest)) (hnext : rest.head? ≠ some '.') :
    ∃ v behind, '0' :: rest = v ++ behind ∧ Longest ZeroLed ('0' :: rest) v ∧
      l.nextItem.1 = .ok ⟨p, .int, String.ofList v⟩ ∧
      l.nextItem.2.Faces (p.advanceAll v) behind := by
  obtain ⟨v, behind, rfl, hlongest, hgives⟩ := Scanner.exists_gives_zeroLed rest
  have hnumeral := Scanner.gives_numeral_zeroLed hnext (hgives p (p.advance '0'))
  have hint : Token.int ≠ .eof := by decide
  exact ⟨'0' :: v, behind, rfl, hlongest.congr whole_iff_zeroLed,
    h.nextItem_of_gives (Scanner.gives_item_of_numeral rfl hnumeral) hint⟩

/-- Another digit, or a zero in front of a point, starts the longest decimal numeral `m` there is,
which is dropped if one more mark stands behind it. -/
theorem Faces.nextItem_of_decimal {l : Lexer Source} {p : Position} {first : Char}
    {rest : List Char} (h : l.Faces p (first :: rest)) (hdigit : first.isDigit = true)
    (hnext : first = '0' → rest.head? = some '.') :
    ∃ m behind, first :: rest = m ++ behind ∧ Longest Decimal (first :: rest) m ∧
      (∀ mark behind', behind = mark :: behind' → mark = '.' ∨ mark = 'e' →
        l.nextItem.1 = .ok ⟨p.advanceAll m, .illegal, String.singleton mark⟩ ∧
        l.nextItem.2.Faces (p.advanceAll (m ++ [mark])) behind') ∧
      ((∀ r ∈ behind.head?, r ≠ '.' ∧ r ≠ 'e') →
        l.nextItem.1 =
          .ok ⟨p, if '.' ∈ m ∨ 'e' ∈ m then .float else .int, String.ofList m⟩ ∧
        l.nextItem.2.Faces (p.advanceAll m) behind) := by
  obtain ⟨ts, behind, rfl, hlongest, hmarked, hended⟩ := Scanner.exists_gives_decimal hdigit rest
  refine ⟨first :: ts, behind, rfl, hlongest, ?_, fun hends => ?_⟩
  · rintro mark behind' rfl hmark
    rw [List.append_cons] at hnext h
    have hnumeral := Scanner.gives_numeral_decimal hnext
      (hmarked mark behind' rfl hmark p (p.advance first))
    have hillegal : Token.illegal ≠ .eof := by decide
    exact h.nextItem_of_gives (Scanner.gives_item_of_numeral hdigit hnumeral) hillegal
  · have hnumeral := Scanner.gives_numeral_decimal hnext (hended hends p (p.advance first))
    have hkind : (if '.' ∈ first :: ts ∨ 'e' ∈ first :: ts then Token.float else .int) ≠ .eof := by
      split_ifs <;> decide
    exact h.nextItem_of_gives (Scanner.gives_item_of_numeral hdigit hnumeral) hkind

/-- The first item of a `text` that starts with a digit.  Behind a zero that no point follows it is
the longest whole number, by `ZeroLed`.  Otherwise it is the longest `Decimal`, a `float` if it
holds a mark, unless one more mark stands behind that: then this mark is the item, and `illegal`.
The lexer goes on right behind the item. -/
theorem nextItem_of_digit (text : String) (first : Char) (rest : List Char)
    (htext : text.toList = first :: rest) (hdigit : first.isDigit = true) :
    let l := ofString text
    (first = '0' ∧ rest.head? ≠ some '.' →
      ∃ v behind, text.toList = v ++ behind ∧ Longest ZeroLed text.toList v ∧
        l.nextItem.1 = .ok ⟨⟨1, 0⟩, .int, String.ofList v⟩ ∧
        l.nextItem.2.Faces (.after v) behind) ∧
    (¬(first = '0' ∧ rest.head? ≠ some '.') →
      ∃ m behind, text.toList = m ++ behind ∧ Longest Decimal text.toList m ∧
        (∀ mark behind', behind = mark :: behind' → mark = '.' ∨ mark = 'e' →
          l.nextItem.1 = .ok ⟨.after m, .illegal, String.singleton mark⟩ ∧
          l.nextItem.2.Faces (.after (m ++ [mark])) behind') ∧
        ((∀ r ∈ behind.head?, r ≠ '.' ∧ r ≠ 'e') →
          l.nextItem.1 =
            .ok ⟨⟨1, 0⟩, if '.' ∈ m ∨ 'e' ∈ m then .float else .int, String.ofList m⟩ ∧
          l.nextItem.2.Faces (.after m) behind)) := by
  intro l
  have hl : l.Faces .start text.toList := faces_ofString text
  rw [htext] at hl ⊢
  constructor
  · rintro ⟨rfl, hnext⟩
    exact hl.nextItem_of_zero hnext
  · intro hother
    refine hl.nextItem_of_decimal hdigit fun hzero => ?_
    by_contra hpoint
    exact hother ⟨hzero, hpoint⟩

/-- A binary numeral ends in front of another digit, as in `0b2`. -/
theorem nextItem_of_digit_binary :
    "0b2".toList = ['0', 'b', '2'] ∧ '0'.isDigit = true ∧
      ∃ v behind, "0b2".toList = v ++ behind ∧ Longest ZeroLed "0b2".toList v ∧
        (ofString "0b2").nextItem.1 = .ok ⟨⟨1, 0⟩, .int, String.ofList v⟩ ∧
        (ofString "0b2").nextItem.2.Faces (.after v) behind :=
  ⟨rfl, rfl, (nextItem_of_digit "0b2" '0' ['b', '2'] rfl rfl).1 ⟨rfl, by decide⟩⟩

example : ((ofString "1.e5.0").requests 3).1 =
    [⟨⟨1, 4⟩, .illegal, "."⟩, ⟨⟨1, 5⟩, .int, "0"⟩, ⟨⟨1, 6⟩, .eof, ""⟩].map .ok := by
  decide +kernel

end Lexer

end LexStream
