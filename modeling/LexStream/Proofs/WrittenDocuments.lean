import LexStream.Proofs.StringForms
import LexStream.Toml.Document
import Mathlib.Data.List.TakeWhile

/-!
# Written documents

A document that is written line by line, each line a key and a value, is read to its entries in
their order.

`Node.WrittenAs node ws` says that the runes `ws`, before the end of a line, are read as the value
`node`.  Whole numbers are written in decimal, truth values as words, and strings in the form chosen
for them.  `Row.Sound` says that a key needs no quotes and that its value is written.

Main facts:

* `Number.read?_toDigits`: a whole number within reach is read back from its decimal digits;
* `Node.writtenAs_integer`, `Node.writtenAs_boolean`, `Node.writtenAs_string`: the written forms of
  values;
* `Document.line?_line`: a line is read to its entry;
* `Document.read?_lines`: lines with keys that differ are read to their entries.
-/

namespace LexStream.Toml

/-- A rune `r` of a class `p` is none that is not of the class. -/
theorem ne_of_class {p : Char → Bool} {r x : Char} (hr : p r = true) (hx : p x = false) :
    r ≠ x := by
  rintro rfl
  rw [hr] at hx
  cases hx

theorem isBlank_of_class {p : Char → Bool} {r : Char} (hr : p r = true) (hspace : p ' ' = false)
    (htab : p '\t' = false) : isBlank r = false := by
  have hspace' : r ≠ ' ' := ne_of_class hr hspace
  have htab' : r ≠ '\t' := ne_of_class hr htab
  simp [isBlank, hspace', htab']

/-! ### Whole numbers -/

namespace Number

variable {n : Nat} {r : Char} {ds : List Char}

theorem isDigit_of_mem_toDigits {n : Nat} : ∀ r ∈ Nat.toDigits 10 n, r.isDigit = true :=
  fun _ hr => Nat.isDigit_of_mem_toDigits (by decide) (by decide) hr

/-- Only the number `0` is written with a zero in front. -/
theorem head?_toDigits_ne_zero (h : 0 < n) : (Nat.toDigits 10 n).head? ≠ some '0' := by
  induction n using Nat.strongRecOn with
  | ind n ih =>
    rcases Nat.lt_or_ge n 10 with hsmall | hlarge
    · rw [Nat.toDigits_of_lt_base hsmall, List.head?_cons]
      have hdigit : ∀ d < 10, 0 < d → Nat.digitChar d ≠ '0' := by decide
      exact fun hzero => hdigit n hsmall h (Option.some.inj hzero)
    · have hhead := ih (n / 10) (by omega) (by omega)
      obtain ⟨r, ds, hds⟩ :=
        List.exists_cons_of_ne_nil (Nat.toDigits_ne_nil (n := n / 10) (b := 10))
      rw [Nat.toDigits_of_base_le (by decide) hlarge, hds]
      rwa [hds] at hhead

/-- The row of decimal digits `Nat.toDigits 10 n` stands for the number `n`. -/
theorem numberIn_toDigits (n : Nat) : Text.numberIn 10 (Nat.toDigits 10 n) = n := by
  have hfold : ∀ (ds : List Char) (start : Nat), (∀ r ∈ ds, r.isDigit = true) →
      (ds.filterMap Text.digitValue?).foldl (fun n value => n * 10 + value) start =
        Nat.ofDigitChars 10 ds start := by
    intro ds
    induction ds with
    | nil => exact fun _ _ => rfl
    | cons r ds ih =>
      intro start hds
      obtain ⟨hr, hrest⟩ := List.forall_mem_cons.1 hds
      rw [List.filterMap_cons, Text.digitValue?_of_isDigit hr, Nat.ofDigitChars_cons, Nat.mul_comm]
      exact ih _ hrest
  rw [Text.numberIn, hfold _ _ isDigit_of_mem_toDigits, Nat.ofDigitChars_ten_toDigits]

/-- A row of digits `ds` ends with its line. -/
theorem digitsOn?_line (hds : ∀ r ∈ ds, r.isDigit = true) (before rest : List Char) :
    digitsOn? Char.isDigit before (ds ++ '\n' :: rest) = some (before ++ ds, '\n' :: rest) := by
  induction ds generalizing before with
  | nil => simp [digitsOn?]
  | cons r ds ih =>
    obtain ⟨hr, hrest⟩ := List.forall_mem_cons.1 hds
    have hunderscore : r ≠ '_' := ne_of_class hr (by decide)
    rw [List.cons_append, digitsOn?.eq_def]
    split
    next h => exact absurd (List.head_eq_of_cons_eq h) hunderscore
    next h =>
      cases h
      rw [if_pos hr, ih hrest, List.append_assoc, List.singleton_append]
    next h => cases h

/-- The digits of a number `n` are the whole part of what is written, with no zero in front of
others. -/
theorem wholeDigits?_toDigits (n : Nat) (rest : List Char) :
    wholeDigits? (Nat.toDigits 10 n ++ '\n' :: rest) = some (Nat.toDigits 10 n, '\n' :: rest) := by
  rcases Nat.eq_zero_or_pos n with rfl | hpos
  · rfl
  · obtain ⟨r, ds, hds⟩ := List.exists_cons_of_ne_nil (Nat.toDigits_ne_nil (n := n) (b := 10))
    have hzero : r ≠ '0' := by simpa [hds] using head?_toDigits_ne_zero hpos
    obtain ⟨hr, hrest⟩ := List.forall_mem_cons.1 (hds ▸ isDigit_of_mem_toDigits (n := n))
    rw [hds, List.cons_append, wholeDigits?.eq_def]
    split
    next h => exact absurd (List.head_eq_of_cons_eq h) hzero
    next => rw [digits?, if_pos hr, digitsOn?_line hrest, List.singleton_append]

/-- A digit `r` is no sign and starts no word, so `sign` finds none. -/
theorem sign_of_isDigit (hr : r.isDigit = true) (rs : List Char) :
    sign (r :: rs) = (false, r :: rs) ∧ wordRest? (r :: rs) = none := by
  have hplus : r ≠ '+' := ne_of_class hr (by decide)
  have hminus : r ≠ '-' := ne_of_class hr (by decide)
  have hi : r ≠ 'i' := ne_of_class hr (by decide)
  have hn : r ≠ 'n' := ne_of_class hr (by decide)
  constructor
  · unfold sign
    split <;> simp_all
  · unfold wordRest?
    split <;> simp_all

/-- A digit and more digits `ds` up to the end of the line have no mark of another base. -/
theorem read?_eq_decimal? (hds : ∀ r ∈ ds, r.isDigit = true) (r : Char) (rest : List Char) :
    read? (r :: (ds ++ '\n' :: rest)) = decimal? (r :: (ds ++ '\n' :: rest)) := by
  have hmark : ∀ x rs, x.isDigit = false → x ≠ '\n' → ds ++ '\n' :: rest ≠ x :: rs := by
    intro x rs hx hnewline heq
    cases ds with
    | nil => exact hnewline (List.head_eq_of_cons_eq heq).symm
    | cons d ds =>
      have hd := hds d List.mem_cons_self
      rw [List.head_eq_of_cons_eq heq, hx] at hd
      cases hd
  unfold read?
  split
  next h => exact absurd (List.tail_eq_of_cons_eq h) (hmark _ _ (by decide) (by decide))
  next h => exact absurd (List.tail_eq_of_cons_eq h) (hmark _ _ (by decide) (by decide))
  next h => exact absurd (List.tail_eq_of_cons_eq h) (hmark _ _ (by decide) (by decide))
  next => rfl

/-- A whole number `n` below `integerBound` is read back from its decimal digits. -/
theorem read?_toDigits (hn : n < integerBound) (rest : List Char) :
    read? (Nat.toDigits 10 n ++ '\n' :: rest) = some (.integer n, '\n' :: rest) := by
  have hwhole := wholeDigits?_toDigits n rest
  have hvalue := numberIn_toDigits n
  obtain ⟨r, ds, hds⟩ := List.exists_cons_of_ne_nil (Nat.toDigits_ne_nil (n := n) (b := 10))
  obtain ⟨hr, hrest⟩ := List.forall_mem_cons.1 (hds ▸ isDigit_of_mem_toDigits (n := n))
  obtain ⟨hsign, hword⟩ := sign_of_isDigit hr (ds ++ '\n' :: rest)
  rw [hds] at hvalue
  rw [hds, List.cons_append] at hwhole ⊢
  rw [read?_eq_decimal? hrest, decimal?, hsign]
  simp [hword, hwhole, hvalue, hn, fractionPart?, exponentPart?, integer?]

end Number

/-! ### Values -/

/-- The runes `ws` are no white space at their front, and before the end of a line they are read as
the value `node`. -/
structure Node.WrittenAs (node : Node) (ws : List Char) : Prop where
  exists_cons : ∃ r rs, ws = r :: rs ∧ isBlank r = false
  value?_eq : ∀ depth rest, value? depth (ws ++ '\n' :: rest) = some (node, '\n' :: rest)

/-- What opens no array and no inline table is read by `scalarValue?`. -/
theorem value?_eq_scalarValue? {r : Char} (harray : r ≠ '[') (htable : r ≠ '\x7b') (depth : Nat)
    (rs : List Char) : value? depth (r :: rs) = scalarValue? (r :: rs) := by
  cases depth with
  | zero => rfl
  | succ depth =>
    unfold value?
    split
    next h => exact absurd (List.head_eq_of_cons_eq h) harray
    next h => exact absurd (List.head_eq_of_cons_eq h) htable
    next => rfl

/-- Behind a row of digits `ds` that starts a line stand a digit or the end of the line: where the
first `k` runes are digits, the next one is such. -/
theorem getElem?_of_all_isDigit {ds rest : List Char} (hds : ∀ r ∈ ds, r.isDigit = true) {k : Nat}
    (h : ((ds ++ '\n' :: rest).take k).all Char.isDigit = true) :
    ∃ r, (ds ++ '\n' :: rest)[k]? = some r ∧ (r.isDigit = true ∨ r = '\n') := by
  rcases Nat.lt_trichotomy k ds.length with hlt | rfl | hgt
  · refine ⟨ds[k], ?_, .inl (hds _ (List.getElem_mem hlt))⟩
    rw [List.getElem?_append_left hlt, List.getElem?_eq_getElem hlt]
  · exact ⟨'\n', by simp, .inr rfl⟩
  · have hmem : '\n' ∈ (ds ++ '\n' :: rest).take k := by
      rw [List.take_append, List.mem_append]
      obtain ⟨j, hj⟩ : ∃ j, k - ds.length = j + 1 := ⟨k - ds.length - 1, by omega⟩
      rw [hj, List.take_succ_cons]
      exact .inr List.mem_cons_self
    exact absurd (List.all_eq_true.1 h _ hmem) (by decide)

/-- A row of digits `ds` on a line is no date and no time of day. -/
theorem not_startsDateTime {ds : List Char} (hds : ∀ r ∈ ds, r.isDigit = true) (rest : List Char) :
    (DateTime.startsDate (ds ++ '\n' :: rest) || DateTime.startsTime (ds ++ '\n' :: rest)) =
      false := by
  have hmark : ∀ k x, x.isDigit = false → x ≠ '\n' →
      (((ds ++ '\n' :: rest).take k).all Char.isDigit && (ds ++ '\n' :: rest)[k]? = some x) =
        false := by
    intro k x hx hnewline
    cases hall : ((ds ++ '\n' :: rest).take k).all Char.isDigit with
    | false => rfl
    | true =>
      obtain ⟨r, hr, hclass⟩ := getElem?_of_all_isDigit hds hall
      have hne : r ≠ x := by
        rintro rfl
        rcases hclass with hdigit | hend
        · rw [hx] at hdigit
          cases hdigit
        · exact hnewline hend
      simpa [hr] using hne
  rw [DateTime.startsDate, DateTime.startsTime, hmark 4 '-' (by decide) (by decide),
    hmark 2 ':' (by decide) (by decide)]
  rfl

/-- A whole number `n` below `integerBound` is written in decimal. -/
theorem Node.writtenAs_integer {n : Nat} (hn : n < integerBound) :
    (Node.integer n).WrittenAs (toString n).toList := by
  rw [Nat.toString_eq_ofList_toDigits, String.toList_ofList]
  have hdigits := Number.isDigit_of_mem_toDigits (n := n)
  have hread := Number.read?_toDigits hn
  have hdate := not_startsDateTime hdigits
  obtain ⟨r, ds, hds⟩ := List.exists_cons_of_ne_nil (Nat.toDigits_ne_nil (n := n) (b := 10))
  rw [hds] at hdigits hread hdate ⊢
  have hr := hdigits r List.mem_cons_self
  have hdouble : r ≠ '"' := ne_of_class hr (by decide)
  have hsingle : r ≠ '\'' := ne_of_class hr (by decide)
  have ht : r ≠ 't' := ne_of_class hr (by decide)
  have hf : r ≠ 'f' := ne_of_class hr (by decide)
  have harray : r ≠ '[' := ne_of_class hr (by decide)
  have htable : r ≠ '\x7b' := ne_of_class hr (by decide)
  refine ⟨⟨r, ds, rfl, isBlank_of_class hr (by decide) (by decide)⟩, fun depth rest => ?_⟩
  rw [List.cons_append, value?_eq_scalarValue? harray htable, scalarValue?]
  simp only [hdouble, hsingle, ht, hf, decide_false, Bool.or_self, if_false]
  rw [← List.cons_append, hdate, hread]
  rfl

/-- A truth value `b` is written as a word. -/
theorem Node.writtenAs_boolean (b : Bool) : (Node.boolean b).WrittenAs (toString b).toList := by
  cases b with
  | false =>
    refine ⟨⟨'f', ['a', 'l', 's', 'e'], rfl, rfl⟩, fun depth rest => ?_⟩
    show value? depth ('f' :: 'a' :: 'l' :: 's' :: 'e' :: '\n' :: rest) = _
    rw [value?_eq_scalarValue? (by decide) (by decide)]
    simp [scalarValue?, word?, List.isPrefixOf]
  | true =>
    refine ⟨⟨'t', ['r', 'u', 'e'], rfl, rfl⟩, fun depth rest => ?_⟩
    show value? depth ('t' :: 'r' :: 'u' :: 'e' :: '\n' :: rest) = _
    rw [value?_eq_scalarValue? (by decide) (by decide)]
    simp [scalarValue?, word?, List.isPrefixOf]

/-- A string is written in the form that `StringForm.choose` picks for its `content`. -/
theorem Node.writtenAs_string (content : List Char) :
    (Node.string (String.ofList content)).WrittenAs
      ((StringForm.choose content).write content) := by
  generalize hform : StringForm.choose content = form
  have hread : ∀ rest, StringForm.read? (form.write content ++ '\n' :: rest) =
      some (String.ofList content, '\n' :: rest) := by
    intro rest
    have hend : '\n' ≠ (StringForm.choose content).quote := (StringForm.quote_ne_newline _).1
    rw [← hform]
    exact StringForm.read?_write content (by simpa using hend)
  obtain ⟨tail, hwrite⟩ : ∃ tail, form.write content = form.quote :: tail := by
    obtain ⟨tail, hfence⟩ := form.exists_fence_eq_cons
    rw [StringForm.write, hfence]
    exact ⟨_, rfl⟩
  have hquote := form.quote_cases
  have hblank : isBlank form.quote = false := by rcases hquote with h | h <;> rw [h] <;> rfl
  have harray : form.quote ≠ '[' := by rcases hquote with h | h <;> rw [h] <;> decide
  have htable : form.quote ≠ '\x7b' := by rcases hquote with h | h <;> rw [h] <;> decide
  have hopens : (form.quote = '"' || form.quote = '\'') = true := by simpa using hquote
  rw [hwrite] at hread ⊢
  refine ⟨⟨form.quote, tail, rfl, hblank⟩, fun depth rest => ?_⟩
  rw [List.cons_append, value?_eq_scalarValue? harray htable, scalarValue?, if_pos hopens,
    ← List.cons_append, hread]
  rfl

/-! ### Lines -/

/-- A line of a document that gives a `key` its value. -/
structure Row where
  /-- The key, a single part without quotes. -/
  key : String
  /-- The written form of the value `node`. -/
  written : List Char
  /-- The value that `written` stands for. -/
  node : Node

namespace Row

/-- The runes of the line of a `row`. -/
def line (row : Row) : List Char :=
  row.key.toList ++ [' ', '=', ' '] ++ row.written ++ ['\n']

/-- The entry that the line of a `row` gives. -/
def entry (row : Row) : String × Node :=
  (row.key, row.node)

/-- The `key` of a line needs no quotes, and what stands for its value is the written form of it. -/
structure Sound (row : Row) : Prop where
  key_ne_nil : row.key.toList ≠ []
  isKeyRune : ∀ r ∈ row.key.toList, isKeyRune r = true
  written : row.node.WrittenAs row.written

end Row

theorem dropBlanks_of_not_isBlank {r : Char} (hr : isBlank r = false) (rs : List Char) :
    dropBlanks (r :: rs) = r :: rs :=
  List.dropWhile_cons_of_neg (by rw [hr]; decide)

theorem isBlank_of_isKeyRune {r : Char} (hr : isKeyRune r = true) : isBlank r = false :=
  isBlank_of_class hr (by decide) (by decide)

/-- A key `name` without quotes is read up to the sign of equality. -/
theorem key?_bare {name : List Char} (hne : name ≠ []) (hname : ∀ r ∈ name, isKeyRune r = true)
    (rest : List Char) :
    key? (name ++ ' ' :: '=' :: rest) = some ([String.ofList name], '=' :: rest) := by
  have htake : (name ++ ' ' :: '=' :: rest).takeWhile isKeyRune = name := by
    rw [List.takeWhile_append_of_pos hname]
    simp [isKeyRune]
  have hdrop : (name ++ ' ' :: '=' :: rest).dropWhile isKeyRune = ' ' :: '=' :: rest := by
    rw [List.dropWhile_append_of_pos hname]
    simp [isKeyRune]
  obtain ⟨r, rs, rfl⟩ := List.exists_cons_of_ne_nil hne
  have hr := hname r List.mem_cons_self
  have hpart : keyPart? (r :: (rs ++ ' ' :: '=' :: rest)) =
      some (String.ofList (r :: rs), ' ' :: '=' :: rest) := by
    unfold keyPart?
    split
    next h => exact absurd (List.head_eq_of_cons_eq h) (ne_of_class hr (by decide))
    next h => exact absurd (List.head_eq_of_cons_eq h) (ne_of_class hr (by decide))
    next =>
      rw [← List.cons_append, htake, hdrop]
      rfl
  have hdepth : depthLimit - 1 = depthLimit - 2 + 1 := rfl
  rw [key?, hdepth, List.cons_append, keyParts?,
    dropBlanks_of_not_isBlank (isBlank_of_isKeyRune hr), hpart]
  rfl

theorem lineEnd?_newline (rest : List Char) : lineEnd? ('\n' :: rest) = some rest := rfl

/-- A key, which starts with a rune `r` with `isKeyRune`, is not what may stand at the end of a
line. -/
theorem lineEnd?_of_isKeyRune {r : Char} (hr : isKeyRune r = true) (rs : List Char) :
    lineEnd? (r :: rs) = none := by
  have hcomment : r ≠ '#' := ne_of_class hr (by decide)
  have hnewline : r ≠ '\n' := ne_of_class hr (by decide)
  have hcarriage : r ≠ '\r' := ne_of_class hr (by decide)
  have hdrop : dropComment (r :: rs) = r :: rs := by
    unfold dropComment
    split <;> simp_all
  rw [lineEnd?, dropBlanks_of_not_isBlank (isBlank_of_isKeyRune hr), hdrop]
  unfold newlineOrEnd?
  split <;> simp_all

/-- A line that gives a key its value is read by `entry?` to its entry, where the top table is open
and lacks the key. -/
theorem Document.entry?_line {row : Row} (hrow : row.Sound) {d : Document} (hhere : d.here = [])
    (hnew : d.root.lookup row.key = none) (rest : List Char) :
    d.entry? (row.line ++ rest) = some ({ d with root := d.root ++ [row.entry] }, rest) := by
  obtain ⟨r, rs, hwritten, hr⟩ := hrow.written.exists_cons
  have hkey := key?_bare hrow.key_ne_nil hrow.isKeyRune (' ' :: (row.written ++ '\n' :: rest))
  have hblank :
      dropBlanks (' ' :: (row.written ++ '\n' :: rest)) = row.written ++ '\n' :: rest := by
    rw [hwritten]
    exact dropBlanks_of_not_isBlank hr _
  have hvalue := hrow.written.value?_eq (depthLimit - 1) rest
  have hextend : Entries.modifyAt (Entries.extend row.node row.key .header false []) [] d.root =
      some (d.root ++ [row.entry]) := by
    simp [Entries.modifyAt, Entries.extend, hnew, Row.entry]
  have hline : row.line ++ rest =
      row.key.toList ++ ' ' :: '=' :: ' ' :: (row.written ++ '\n' :: rest) := by
    simp [Row.line]
  rw [hline, entry?, hkey]
  simp [hblank, hvalue, lineEnd?_newline, hhere, hextend]

/-- A line is read by `line?` to its entry, where the top table is open and lacks the key. -/
theorem Document.line?_line {row : Row} (hrow : row.Sound) {d : Document} (hhere : d.here = [])
    (hnew : d.root.lookup row.key = none) (rest : List Char) :
    d.line? (row.line ++ rest) = some ({ d with root := d.root ++ [row.entry] }, rest) := by
  have hentry := entry?_line hrow hhere hnew rest
  obtain ⟨r, rs, hkey⟩ := List.exists_cons_of_ne_nil hrow.key_ne_nil
  have hr : isKeyRune r = true := hrow.isKeyRune r (by rw [hkey]; exact List.mem_cons_self)
  obtain ⟨tail, hline⟩ : ∃ tail, row.line ++ rest = r :: tail := by
    rw [Row.line, hkey]
    exact ⟨_, rfl⟩
  rw [hline] at hentry ⊢
  unfold line?
  rw [dropBlanks_of_not_isBlank (isBlank_of_isKeyRune hr)]
  split
  next h => exact absurd (List.head_eq_of_cons_eq h) (ne_of_class hr (by decide))
  next h => exact absurd (List.head_eq_of_cons_eq h) (ne_of_class hr (by decide))
  next =>
    rw [lineEnd?_of_isKeyRune hr]
    exact hentry

/-! ### Documents -/

theorem Row.line_ne_nil (row : Row) : row.line ≠ [] := by
  simp [Row.line]

theorem Row.length_le_length_lines (rows : List Row) :
    rows.length ≤ (rows.flatMap Row.line).length := by
  induction rows with
  | nil => exact Nat.le_refl _
  | cons row rows ih =>
    have hrow := List.length_pos_iff.2 row.line_ne_nil
    rw [List.flatMap_cons, List.length_append, List.length_cons]
    omega

theorem Document.lines?_of_line? {d d' : Document} {text rest : List Char}
    (h : d.line? text = some (d', rest)) (hne : text ≠ []) (n : Nat) :
    lines? (n + 1) d text = lines? n d' rest := by
  cases text with
  | nil => exact absurd rfl hne
  | cons r rs => simp [lines?, h]

/-- The lines of `rows` whose keys differ from each other and from those of the top table are read
to their entries behind those of the table. -/
theorem Document.lines?_lines {rows : List Row} (hrows : ∀ row ∈ rows, row.Sound) {n : Nat}
    (hn : rows.length ≤ n) {d : Document} (hhere : d.here = [])
    (hkeys : (d.root.map Prod.fst ++ rows.map Row.key).Nodup) :
    lines? n d (rows.flatMap Row.line) = some { d with root := d.root ++ rows.map Row.entry } := by
  induction rows generalizing n d with
  | nil => simp [lines?]
  | cons row rows ih =>
    obtain ⟨hrow, hrest⟩ := List.forall_mem_cons.1 hrows
    obtain ⟨n, rfl⟩ : ∃ m, n = m + 1 := ⟨n - 1, by rw [List.length_cons] at hn; omega⟩
    have hnew : d.root.lookup row.key = none := by
      obtain ⟨-, -, hdiffer⟩ := List.nodup_append.1 hkeys
      refine List.lookup_eq_none_iff.2 fun entry hentry => ?_
      have hne := hdiffer entry.1 (List.mem_map_of_mem hentry) row.key (by simp)
      simpa using hne.symm
    have hstep := line?_line hrow hhere hnew (rows.flatMap Row.line)
    have hih := ih hrest (n := n) (Nat.le_of_succ_le_succ hn)
      (d := { d with root := d.root ++ [row.entry] }) hhere (by simpa [Row.entry] using hkeys)
    rw [List.flatMap_cons, lines?_of_line? hstep (by simp [row.line_ne_nil]), hih,
      List.append_assoc]
    rfl

/-- A document of the lines of `rows` with keys that differ is read to their entries. -/
theorem Document.read?_lines {rows : List Row} (hrows : ∀ row ∈ rows, row.Sound)
    (hkeys : (rows.map Row.key).Nodup) :
    read? (rows.flatMap Row.line) = some (rows.map Row.entry) := by
  have hmark : dropMark (rows.flatMap Row.line) = rows.flatMap Row.line := by
    cases rows with
    | nil => rfl
    | cons row rows =>
      obtain ⟨hne, hkey, -⟩ := hrows row List.mem_cons_self
      obtain ⟨r, rs, heq⟩ := List.exists_cons_of_ne_nil hne
      have hclass : isKeyRune r = true := hkey r (by rw [heq]; exact List.mem_cons_self)
      have hr : r ≠ '\uFEFF' := ne_of_class hclass (by decide)
      rw [List.flatMap_cons, Row.line, heq]
      unfold dropMark
      split
      next h => exact absurd (List.head_eq_of_cons_eq h) hr
      next => rfl
  have hlines := lines?_lines hrows (n := (rows.flatMap Row.line).length + 1)
    (Nat.le_succ_of_le (Row.length_le_length_lines rows)) (d := {}) rfl (by simpa using hkeys)
  rw [read?, hmark, hlines]
  rfl

end LexStream.Toml
