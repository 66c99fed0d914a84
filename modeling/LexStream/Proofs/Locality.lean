import LexStream.Proofs.Recognition
import LexStream.Proofs.StrictDecoding

/-!
# What a scan depends on

In a text a scan sees the runes that it passes and the one behind them, and of its cursor nothing
but the position.  `Scan.Local base f x y` says this of a computation `x`, and that `y` is `x` moved
to `base`: in front of every text, `x` either gives a value and passes some runes, and `y` gives the
moved value and passes the same runes, whatever follows them behind the next rune; or both fail, and
their errors differ by the move.  The runes that were looked at, the width of the line before and
the state of the buffers do not occur in it.  There is one lemma for each computation, and the scan
of an item is put together from these.

Main facts:

* `Position.translate_advanceAll`: moving to another place goes along with passing runes;
* `Scan.Local.operator?`: of an operator the next rune shows whether it goes on, because the first
  two runes of every operator are one;
* `Scan.Local.item`: the scan of an item depends on the runes of the item, the one behind them, and
  the position.
-/

namespace LexStream

/-! ### Moving to another place -/

/-- Where a text is part of another one and starts at `base` there, its position `p` is this one. -/
def Position.translate (base p : Position) : Position :=
  if p.line = 1 then ⟨base.line, base.col + p.col⟩ else ⟨base.line + p.line - 1, p.col⟩

namespace Position

@[simp] theorem translate_start (base : Position) : base.translate start = base := rfl

@[simp] theorem start_translate (p : Position) : start.translate p = p := by
  unfold translate start
  split_ifs with h
  · rw [← h, Nat.zero_add]
  · dsimp only
    rw [Nat.add_sub_cancel_left]

theorem translate_advance_of_ne (base p : Position) {r : Char} (hr : r ≠ '\n') :
    base.translate (p.advance r) = (base.translate p).advance r := by
  unfold translate advance
  rw [if_neg hr, if_neg hr]
  split_ifs <;> rfl

theorem translate_advance (base : Position) {p : Position} (h : 1 ≤ p.line) (r : Char) :
    base.translate (p.advance r) = (base.translate p).advance r := by
  by_cases hr : r = '\n'
  · have hline : ¬p.line + 1 = 1 := by omega
    unfold translate advance
    rw [if_pos hr, if_pos hr, if_neg hline]
    split_ifs with hfirst
    · rw [hfirst]
      rfl
    · congr 1
      dsimp only
      omega
  · exact base.translate_advance_of_ne p hr

/-- To `translate` a place goes along with passing the runes `rs`. -/
theorem translate_advanceAll (base : Position) {p : Position} (h : 1 ≤ p.line) (rs : List Char) :
    base.translate (p.advanceAll rs) = (base.translate p).advanceAll rs := by
  induction rs generalizing p with
  | nil => rfl
  | cons r rs ih =>
    have hline : 1 ≤ (p.advance r).line := h.trans (p.line_le_line_advanceAll [r])
    rw [advanceAll_cons, advanceAll_cons, ih hline, base.translate_advance h]

end Position

/-- An item of a text that starts at `base`. -/
def Item.translate (base : Position) (i : Item) : Item :=
  { i with pos := base.translate i.pos }

def Remark.translate (base : Position) : Remark → Remark
  | .strayRune pos r => .strayRune (base.translate pos) r
  | .repeatedMark pos r numeral => .repeatedMark (base.translate pos) r numeral

def Finding.translate (base : Position) (found : Finding) : Finding :=
  ⟨found.item.translate base, found.remark.map (·.translate base)⟩

/-- An error in a text that starts at `base`. -/
def LexError.translate (base : Position) : LexError → LexError
  | .readFailed pos failure => .readFailed (base.translate pos) failure
  | .invalidUtf8 pos bytes => .invalidUtf8 (base.translate pos) bytes
  | .unterminated kind start => .unterminated kind (base.translate start)
  | .missingDelimiter start found => .missingDelimiter (base.translate start) found
  | .cancelled => .cancelled

@[simp] theorem Item.start_translate (i : Item) : i.translate .start = i := by
  rw [Item.translate, Position.start_translate]

/-! ### Places in a text -/

/-- The cursor stands at `p`, and the runes `rs` are all that comes next. -/
structure Cursor.Faces (c : Cursor Source) (p : Position) (rs : List Char) : Prop where
  holds : c.Holds rs
  position : c.position = p
  one_le_line : 1 ≤ p.line

namespace Cursor.Faces

variable {c c' : Cursor Source} {p : Position} {r : Char} {us rs : List Char}

/-- What is passed on the way to a place `rs` in the text `us ++ rs` are the runes `us` before
it. -/
theorem of_passes {vs : List Char} (h : c.Faces p (us ++ rs)) (hp : c.Passes vs c')
    (hc' : c'.Holds rs) : c'.Faces (p.advanceAll us) rs := by
  obtain ⟨rest, htext, hrest⟩ := h.holds.passes hp
  obtain rfl := hc'.unique hrest
  obtain rfl := List.append_cancel_right htext
  refine ⟨hc', ?_, h.one_le_line.trans (p.line_le_line_advanceAll us)⟩
  rw [hp.position, h.position]

/-- The next rune `r` can be passed, and put back again. -/
theorem exists_nextRune (h : c.Faces p (r :: rs)) :
    ∃ c', nextRune.run c = (.ok (some r), c') ∧ c'.Faces (p.advance r) rs ∧
      (c'.backup r).Faces p (r :: rs) := by
  obtain ⟨c', hnext, hc'⟩ := Scan.Yields.nextRune_cons r c h.holds
  obtain ⟨d, hback, hd⟩ := Scan.Yields.backup r c' hc'
  cases hback
  have hpass : c.Faces p ([r] ++ rs) := h
  have hline : 1 ≤ c.position.line := h.position ▸ h.one_le_line
  have hnone : c.Faces p ([] ++ (r :: rs)) := h
  exact ⟨c', hnext, hpass.of_passes (passes_nextRune hnext).1 hc',
    hnone.of_passes (passes_backup hline hnext) hd⟩

end Cursor.Faces

/-- At `p`, in front of the runes `us` and then `rest`, the computation gives `b` and passes
`us`. -/
def Scan.Gives {β : Type} (y : Scan Source β) (p : Position) (us rest : List Char) (b : β) : Prop :=
  ∀ d : Cursor Source, d.Faces p (us ++ rest) →
    ∃ d', y.run d = (.ok b, d') ∧ d'.Faces (p.advanceAll us) rest

/-- At `p`, in front of the runes `text`, the computation fails with the error `e`. -/
def Scan.Refuses {β : Type} (y : Scan Source β) (p : Position) (text : List Char) (e : LexError) :
    Prop :=
  ∀ d : Cursor Source, d.Faces p text → ∃ d', y.run d = (.error e, d')

namespace Scan

variable {α β : Type} {x : Scan Source α} {f : α → Scan Source β} {p : Position}
  {us vs rest text : List Char} {a : α} {b : β} {e : LexError}

theorem gives_pure (b : β) (p : Position) (rest : List Char) :
    (Pure.pure b : Scan Source β).Gives p [] rest b :=
  fun d hd => ⟨d, rfl, hd⟩

theorem Gives.bind (hx : x.Gives p us (vs ++ rest) a)
    (hf : (f a).Gives (p.advanceAll us) vs rest b) : (x >>= f).Gives p (us ++ vs) rest b := by
  intro d hd
  rw [List.append_assoc] at hd
  obtain ⟨d₁, hrun, hd₁⟩ := hx d hd
  obtain ⟨d', hrun', hd'⟩ := hf d₁ hd₁
  rw [← Position.advanceAll_append] at hd'
  exact ⟨d', (run_bind_ok hrun).trans hrun', hd'⟩

/-- What comes first, `x`, passes nothing. -/
theorem Gives.stay_bind (hx : x.Gives p [] (us ++ rest) a) (hf : (f a).Gives p us rest b) :
    (x >>= f).Gives p us rest b :=
  hx.bind hf

/-- What comes last, `f a`, passes nothing. -/
theorem Gives.bind_stay (hx : x.Gives p us rest a)
    (hf : (f a).Gives (p.advanceAll us) [] rest b) : (x >>= f).Gives p us rest b := by
  have hfirst : x.Gives p us ([] ++ rest) a := hx
  have h := hfirst.bind hf
  rwa [List.append_nil] at h

theorem Gives.refuses_bind (hx : x.Gives p us rest a)
    (hf : (f a).Refuses (p.advanceAll us) rest e) : (x >>= f).Refuses p (us ++ rest) e := by
  intro d hd
  obtain ⟨d₁, hrun, hd₁⟩ := hx d hd
  obtain ⟨d', hrun'⟩ := hf d₁ hd₁
  exact ⟨d', (run_bind_ok hrun).trans hrun'⟩

theorem Refuses.bind (hx : x.Refuses p text e) : (x >>= f).Refuses p text e := by
  intro d hd
  obtain ⟨d', hrun⟩ := hx d hd
  exact ⟨d', run_bind_error hrun⟩

/-- What a computation `Yields` it gives wherever the text stands, if it passes runes at all. -/
theorem Yields.gives (h : x.Yields (us ++ rest) a rest)
    (hpasses : ∀ {c c' : Cursor Source}, 1 ≤ c.position.line → x.run c = (.ok a, c') →
      ∃ vs, c.Passes vs c') : x.Gives p us rest a := by
  intro c hc
  obtain ⟨c', hrun, hc'⟩ := h c hc.holds
  have hline : 1 ≤ c.position.line := hc.position ▸ hc.one_le_line
  obtain ⟨vs, hp⟩ := hpasses hline hrun
  exact ⟨c', hrun, hc.of_passes hp hc'⟩

end Scan

/-! ### Computations that see one rune ahead -/

section

variable {α α' β β' : Type}

/-- What `x` does at `p` in front of the runes `text`, and `y` where `base` moves this place to. -/
inductive Scan.Meets (base : Position) (f : α → α') (x : Scan Source α) (y : Scan Source α')
    (p : Position) : List Char → Prop
  /-- Both give a value and pass the runes `us`, with the next rune in sight. -/
  | gives (us rest : List Char) (a : α) (hx : x.Gives p us rest a)
      (hy : ∀ rest', rest'.head? = rest.head? → y.Gives (base.translate p) us rest' (f a)) :
      Meets base f x y p (us ++ rest)
  /-- Both computations fail, and the error `e` of the one is that of the other translated. -/
  | refuses (text : List Char) (e : LexError) (hx : x.Refuses p text e)
      (hy : y.Refuses (base.translate p) text (e.translate base)) : Meets base f x y p text

/-- The computation `x` depends on its position, on the runes that it passes and on the one behind
them, and `y` is `x` moved to `base`; the values differ by `f`. -/
def Scan.Local (base : Position) (f : α → α') (x : Scan Source α) (y : Scan Source α') : Prop :=
  ∀ p text, 1 ≤ p.line → Scan.Meets base f x y p text

namespace Scan

variable {base : Position} {f : α → α'} {g : β → β'} {x : Scan Source α} {y : Scan Source α'}
  {u : α → Scan Source β} {v : α' → Scan Source β'}

/-- Behind the runes `us` that are passed, one computation may follow another. -/
theorem Meets.bind {p : Position} {us rest : List Char} {a : α} (hline : 1 ≤ p.line)
    (hx : x.Gives p us rest a)
    (hy : ∀ rest', rest'.head? = rest.head? → y.Gives (base.translate p) us rest' (f a))
    (huv : Meets base g (u a) (v (f a)) (p.advanceAll us) rest) :
    Meets base g (x >>= u) (y >>= v) p (us ++ rest) := by
  have hmove := base.translate_advanceAll hline us
  cases huv with
  | gives vs rest b hu hv =>
    rw [← List.append_assoc]
    refine .gives (us ++ vs) rest b (hx.bind hu) fun rest' hhead => ?_
    have hfirst : (vs ++ rest').head? = (vs ++ rest).head? := by
      rw [List.head?_append, List.head?_append, hhead]
    have hrest := hv rest' hhead
    rw [hmove] at hrest
    exact (hy (vs ++ rest') hfirst).bind hrest
  | refuses _ e hu hv =>
    rw [hmove] at hv
    exact .refuses _ e (hx.refuses_bind hu) ((hy rest rfl).refuses_bind hv)

namespace Local

theorem pure (a : α) : Local base f (Pure.pure a) (Pure.pure (f a)) :=
  fun p text _ => .gives [] text a (gives_pure a p text) fun rest' _ => gives_pure _ _ rest'

theorem fail (e : LexError) : Local base f (Scan.fail e) (Scan.fail (e.translate base)) :=
  fun _ text _ => .refuses text e (fun d _ => ⟨d, rfl⟩) fun d _ => ⟨d, rfl⟩

theorem gives_position (p : Position) (rest : List Char) : Scan.position.Gives p [] rest p := by
  intro d hd
  refine ⟨d, ?_, hd⟩
  rw [run_position]
  exact congrArg (fun q => (Except.ok q, d)) hd.position

theorem position : Local base base.translate Scan.position Scan.position :=
  fun p text _ => .gives [] text p (gives_position p text) fun rest' _ => gives_position _ rest'

/-- Computations that are `Local` may follow one another. -/
theorem bind (hx : Local base f x y) (huv : ∀ a, Local base g (u a) (v (f a))) :
    Local base g (x >>= u) (y >>= v) := by
  intro p text hline
  cases hx p text hline with
  | gives us rest a hx hy =>
    exact .bind hline hx hy (huv a _ _ (hline.trans (p.line_le_line_advanceAll us)))
  | refuses _ e hx hy => exact .refuses text e hx.bind hy.bind

/-- Where the one computation gives a value `a`, the other gives `f a`, whatever lies further on. -/
theorem ok {c c' : Cursor Source} {p : Position} {text : List Char} {a : α}
    (h : Local base f x y) (hc : c.Faces p text) (hrun : x.run c = (.ok a, c')) :
    ∃ us rest, text = us ++ rest ∧ c'.Faces (p.advanceAll us) rest ∧
      ∀ rest', rest'.head? = rest.head? → y.Gives (base.translate p) us rest' (f a) := by
  cases h p text hc.one_le_line with
  | gives us rest a' hx hy =>
    obtain ⟨d, hrun', hd⟩ := hx c hc
    cases hrun.symm.trans hrun'
    exact ⟨us, rest, rfl, hd, hy⟩
  | refuses _ e hx hy =>
    obtain ⟨d, hrun'⟩ := hx c hc
    cases hrun.symm.trans hrun'

theorem error {c c' : Cursor Source} {p : Position} {text : List Char} {e : LexError}
    (h : Local base f x y) (hc : c.Faces p text) (hrun : x.run c = (.error e, c')) :
    y.Refuses (base.translate p) text (e.translate base) := by
  cases h p text hc.one_le_line with
  | gives us rest a hx hy =>
    obtain ⟨d, hrun', hd⟩ := hx c hc
    cases hrun.symm.trans hrun'
  | refuses _ e' hx hy =>
    obtain ⟨d, hrun'⟩ := hx c hc
    cases hrun.symm.trans hrun'
    exact hy

/-! ### Cursors -/

theorem gives_nextRune_nil (p : Position) : Cursor.nextRune.Gives p [] [] none :=
  Yields.gives Yields.nextRune_nil fun _ hrun => ⟨[], (Cursor.ends_nextRune hrun).1.passes⟩

theorem gives_nextRune_cons (p : Position) (r : Char) (rest : List Char) :
    Cursor.nextRune.Gives p [r] rest (some r) :=
  Yields.gives (Yields.nextRune_cons r) fun _ hrun => ⟨[r], (Cursor.passes_nextRune hrun).1⟩

theorem gives_peek (p : Position) (rest : List Char) :
    Cursor.peek.Gives p [] rest rest.head? := by
  rw [List.head?_eq_getElem?]
  exact Yields.gives (.peekNth 0) fun _ hrun => ⟨[], (Cursor.passes_peekNth hrun).1⟩

theorem peek : Local base id Cursor.peek Cursor.peek := by
  intro p text hline
  refine .gives [] text text.head? (gives_peek p text) fun rest' hhead => ?_
  rw [← hhead]
  exact gives_peek _ rest'

end Local

end Scan

end

/-! ### Runs -/

section

variable {τ υ : Type}

/-- The same verdict, with a state of another kind, by `g`. -/
def Verdict.map (g : τ → υ) : Verdict τ → Verdict υ
  | .take next => .take (g next)
  | .stop => .stop
  | .leave => .leave

/-- The same run, with a state of another kind, by `g`. -/
def Run.map (g : τ → υ) (run : Run τ) : Run υ :=
  ⟨run.taken, g run.state, run.ending⟩

theorem Verdict.map_id (verdict : Verdict τ) : verdict.map id = verdict := by
  cases verdict <;> rfl

namespace Run

variable {step : τ → Char → Verdict τ} {step' : υ → Char → Verdict υ} {g : τ → υ} {s s' : τ}
  {ts behind rest : List Char} {ending : Ending}

theorem Takes.map (hstep : ∀ s r, step' (g s) r = (step s r).map g) (h : Takes step s ts s') :
    Takes step' (g s) ts (g s') := by
  induction h with
  | refl s => exact .refl (g s)
  | @cons s₀ s₁ s₂ r rs hr _ ih =>
    refine .cons ?_ ih
    rw [hstep, hr]
    rfl

/-- A `step` halts somewhere in every `text`. -/
theorem exists_halts (step : τ → Char → Verdict τ) (s : τ) (text : List Char) :
    ∃ ts behind s' ending rest, text = ts ++ behind ∧ Takes step s ts s' ∧
      Halts step s' behind ending rest := by
  induction text generalizing s with
  | nil => exact ⟨[], [], s, .exhausted, [], rfl, .refl s, .exhausted⟩
  | cons r text ih =>
    cases hr : step s r with
    | take next =>
      obtain ⟨ts, behind, s', ending, rest, rfl, htakes, hhalts⟩ := ih next
      exact ⟨r :: ts, behind, s', ending, rest, rfl, .cons hr htakes, hhalts⟩
    | stop => exact ⟨[], r :: text, s, .stopped r, text, rfl, .refl s, .stopped hr⟩
    | leave => exact ⟨[], r :: text, s, .left, r :: text, rfl, .refl s, .left hr⟩

/-- Where a step halts, it halts with the same rune behind it, whatever `rest'` follows that one. -/
theorem Halts.exists_passed (hstep : ∀ s r, step' (g s) r = (step s r).map g)
    (h : Halts step s behind ending rest) :
    ∃ passed, behind = passed ++ rest ∧
      (∀ r, ending = .stopped r → passed = [r] ∧ step s r = .stop) ∧
      ∀ rest', rest'.head? = rest.head? → Halts step' (g s) (passed ++ rest') ending rest' := by
  cases h with
  | @stopped r rs h =>
    refine ⟨[r], rfl, ?_, fun rest' _ => .stopped ?_⟩
    · rintro r' heq
      obtain rfl := Ending.stopped.inj heq
      exact ⟨rfl, h⟩
    · rw [hstep, h]
      rfl
  | @left r rs h =>
    refine ⟨[], rfl, by rintro r' ⟨⟩, fun rest' hhead => ?_⟩
    obtain ⟨rs', rfl⟩ := List.head?_eq_some_iff.1 hhead
    refine .left ?_
    rw [hstep, h]
    rfl
  | exhausted =>
    refine ⟨[], rfl, by rintro r' ⟨⟩, fun rest' hhead => ?_⟩
    obtain rfl := List.head?_eq_none_iff.1 hhead
    exact .exhausted

theorem Outcome.exists_passes {σ : Type} [ByteSource σ] {c c' : Cursor σ}
    (h : Outcome step s c ts c' ending) : ∃ vs, c.Passes vs c' := by
  cases h with
  | @stopped r hr hp => exact ⟨ts ++ [r], hp⟩
  | left hr hp hnext => exact ⟨ts, hp⟩
  | exhausted hends hnext => exact ⟨ts, hends.passes⟩

theorem gives_scan {passed : List Char} (htakes : Takes step s ts s')
    (hhalts : Halts step s' (passed ++ rest) ending rest) (p : Position) :
    (scan step s).Gives p (ts ++ passed) rest ⟨String.ofList ts, s', ending⟩ := by
  refine Scan.Yields.gives ?_ fun hline hrun => ?_
  · rw [List.append_assoc]
    exact yields_scan htakes hhalts
  · obtain ⟨_, -, -, hout⟩ := outcome_scan hline hrun
    exact hout.exists_passes

/-- A run that halts at no rune passes just the `ts` that it took. -/
theorem gives_scan_of_halts (htakes : Takes step init ts s)
    (hhalts : Halts step s behind ending behind) (p : Position) :
    (scan step init).Gives p ts behind ⟨String.ofList ts, s, ending⟩ := by
  have hnone : Halts step s ([] ++ behind) ending behind := hhalts
  have hgives := gives_scan htakes hnone p
  rwa [List.append_nil] at hgives

/-- A row `ts` of the class `q` is passed where the next rune is not of the class. -/
theorem gives_scanClass {q : Char → Bool} (hts : ∀ r ∈ ts, q r = true)
    (hbehind : ∀ r ∈ behind.head?, q r = false) (p : Position) :
    (scanClass q).Gives p ts behind (String.ofList ts) := by
  refine Scan.Yields.gives (yields_scanClass hts hbehind) fun hline hrun => ?_
  obtain ⟨vs, -, -, hp⟩ := passes_scanClass hline hrun
  exact ⟨vs, hp⟩

/-- What a run does in front of a `text` depends on the runes that it passes and the one behind. -/
theorem exists_gives_scan (hstep : ∀ s r, step' (g s) r = (step s r).map g) (init : τ)
    (text : List Char) :
    ∃ ts s ending passed rest, text = ts ++ passed ++ rest ∧
      (∀ r, ending = .stopped r → passed = [r] ∧ step s r = .stop) ∧
      (∀ p, (scan step init).Gives p (ts ++ passed) rest ⟨String.ofList ts, s, ending⟩) ∧
      ∀ p rest', rest'.head? = rest.head? →
        (scan step' (g init)).Gives p (ts ++ passed) rest' ⟨String.ofList ts, g s, ending⟩ := by
  obtain ⟨ts, behind, s, ending, rest, rfl, htakes, hhalts⟩ := exists_halts step init text
  obtain ⟨passed, rfl, hstopped, hmoved⟩ := hhalts.exists_passed hstep
  exact ⟨ts, s, ending, passed, rest, (List.append_assoc ts passed rest).symm, hstopped,
    gives_scan htakes hhalts,
    fun p rest' hhead => gives_scan (htakes.map hstep) (hmoved rest' hhead) p⟩

end Run

namespace Scan.Local

variable {base : Position} {step : τ → Char → Verdict τ} {step' : υ → Char → Verdict υ} {g : τ → υ}

theorem scan (hstep : ∀ s r, step' (g s) r = (step s r).map g) (init : τ) :
    Local base (Run.map g) (Run.scan step init) (Run.scan step' (g init)) := by
  intro p text hline
  obtain ⟨ts, s, ending, passed, rest, rfl, -, hx, hy⟩ := Run.exists_gives_scan hstep init text
  exact .gives (ts ++ passed) rest _ (hx p) (hy _)

/-- A `step` whose state holds no position makes the same run everywhere. -/
theorem scan_self (step : τ → Char → Verdict τ) (init : τ) :
    Local base id (Run.scan step init) (Run.scan step init) :=
  scan (g := id) (fun s r => (step s r).map_id.symm) init

theorem scanClass (q : Char → Bool) : Local base id (Run.scanClass q) (Run.scanClass q) :=
  bind (scan_self _ _) fun run => pure run.taken

end Scan.Local

end

/-! ### Operators -/

namespace Token

/-- The first two runes of an operator are one, and so are all its beginnings `w` from there on. -/
theorem exists_operator_of_prefix {row : String × Token} (h : row ∈ operators) {w : List Char}
    (hw : w <+: row.1.toList) (hlength : 2 ≤ w.length) :
    ∃ row' ∈ operators, row'.1.toList = w := by
  have htable : ∀ row ∈ operators, ∀ n ≤ row.1.length, 2 ≤ n →
      ∃ row' ∈ operators, row'.1.toList = row.1.toList.take n := by
    decide
  have hle : w.length ≤ row.1.length := by
    rw [← String.length_toList]
    exact hw.length_le
  obtain ⟨row', hrow', hruns⟩ := htable row h w.length hle hlength
  refine ⟨row', hrow', ?_⟩
  rw [hruns]
  exact (List.prefix_iff_eq_take.1 hw).symm

/-- Whether an operator goes on behind the runes `w`, one rune shows. -/
theorem length_le_of_longest {w rest rest' : List Char} (hne : w ≠ [])
    (hlongest : ∀ row ∈ operators, row.1.toList <+: w ++ rest → row.1.length ≤ w.length)
    (hhead : rest'.head? = rest.head?) {row : String × Token} (hrow : row ∈ operators)
    (hpre : row.1.toList <+: w ++ rest') : row.1.length ≤ w.length := by
  by_contra hlong
  have hlt : w.length < row.1.toList.length := by
    rw [String.length_toList]
    omega
  have hpos := List.length_pos_iff.2 hne
  -- The operator goes on with the next rune, up to which it is an operator as well.
  obtain ⟨rs, hruns⟩ : w <+: row.1.toList :=
    List.prefix_of_prefix_length_le (List.prefix_append w rest') hpre hlt.le
  cases rs with
  | nil =>
    rw [← hruns, List.append_nil] at hlt
    omega
  | cons r rs =>
    rw [← hruns, List.prefix_append_right_inj] at hpre
    obtain ⟨rest'', rfl⟩ := hpre
    obtain ⟨rest, rfl⟩ := List.head?_eq_some_iff.1 hhead.symm
    obtain ⟨row', hrow', hruns'⟩ := exists_operator_of_prefix (w := w ++ [r]) hrow
      (by rw [← hruns]; simp) (by rw [List.length_append, List.length_singleton]; omega)
    have hle := hlongest row' hrow' (by rw [hruns']; simp)
    rw [← String.length_toList, hruns', List.length_append, List.length_singleton] at hle
    omega

end Token

namespace Scan.Local

variable {base start : Position} {first : Char}

theorem gives_operator (p : Position) {row : String × Token} {rs rest : List Char}
    (hrow : row ∈ Token.operators) (hruns : row.1.toList = first :: rs)
    (hlongest : ∀ row' ∈ Token.operators, row'.1.toList <+: first :: rs ++ rest →
      row'.1.length ≤ (first :: rs).length) :
    (Scanner.operator? start first).Gives p rs rest (some (.ofToken start row.2 row.1)) := by
  rw [← hruns, String.length_toList] at hlongest
  rw [hruns] at hlongest
  refine Yields.gives (Scanner.yields_operator hrow hruns hlongest) fun _ hrun => ?_
  obtain ⟨vs, -, -, -, -, -, hp⟩ := Scanner.finds_operator hrun
  exact ⟨vs, hp⟩

theorem gives_operator_none (p : Position) {rest : List Char}
    (hnone : ∀ row ∈ Token.operators, ¬row.1.toList <+: first :: rest) :
    (Scanner.operator? start first).Gives p [] rest none :=
  Yields.gives (Scanner.yields_operator_none hnone) fun _ hrun =>
    ⟨[], (Scanner.passes_operator_none hrun).1⟩

theorem operator? : Local base (Option.map (·.translate base)) (Scanner.operator? start first)
    (Scanner.operator? (base.translate start) first) := by
  intro p text hline
  -- The longest operator that starts the text, if one does.
  have hmatch := OperatorTrie.longestMatch_eq_iff OperatorTrie.build_operators first text
  cases hfound : OperatorTrie.standard.longestMatch (m := Id) first (fun i => text[i]?) with
  | none =>
    have hnone := hmatch.2.1 hfound
    refine .gives [] text none (gives_operator_none p hnone) fun rest' hhead => ?_
    refine gives_operator_none _ fun row hrow hpre => ?_
    -- One that starts the other text is the first rune alone, or starts with the rune behind it.
    obtain ⟨rs, hruns, hrs⟩ := Scanner.exists_rest_of_operator hrow hpre
    cases rs with
    | nil => exact hnone row hrow (by rw [hruns]; simp)
    | cons r rs =>
      obtain ⟨rest', rfl⟩ := hrs
      obtain ⟨rest, rfl⟩ := List.head?_eq_some_iff.1 hhead.symm
      obtain ⟨row', hrow', hruns'⟩ := Token.exists_operator_of_prefix (w := [first, r]) hrow
        (by rw [hruns]; simp) (Nat.le_refl 2)
      exact hnone row' hrow' (by rw [hruns']; simp)
  | some found =>
    obtain ⟨⟨row, hrow, hpre, hlength, -⟩, hlongest⟩ := (hmatch.1 found).1 hfound
    obtain ⟨rs, hruns, rest, rfl⟩ := Scanner.exists_rest_of_operator hrow hpre
    have hlength : found.length = (first :: rs).length := by
      rw [← hlength, ← String.length_toList, hruns]
    rw [hlength] at hlongest
    refine .gives rs rest _ (gives_operator p hrow hruns hlongest) fun rest' hhead => ?_
    refine gives_operator _ hrow hruns fun row' hrow' hpre' => ?_
    exact Token.length_le_of_longest (by simp) hlongest hhead hrow' hpre'

/-! ### Literals -/

theorem untilStopped {τ : Type} (kind : LiteralKind) (step : τ → Char → Verdict τ) (init : τ) :
    Local base id (Scanner.untilStopped kind start step init)
      (Scanner.untilStopped kind (base.translate start) step init) := by
  refine bind (scan_self _ _) fun run => ?_
  dsimp only [id]
  cases run.ending with
  | stopped r => exact pure _
  | left => exact fail _
  | exhausted => exact fail _

theorem string : Local base (·.translate base) (Scanner.string start)
    (Scanner.string (base.translate start)) :=
  bind (untilStopped _ _ _) fun _ => pure _

theorem template : Local base (·.translate base) (Scanner.template start)
    (Scanner.template (base.translate start)) :=
  bind (untilStopped _ _ _) fun _ => pure _

theorem structured : Local base (·.translate base) (Scanner.structured start)
    (Scanner.structured (base.translate start)) := by
  refine bind (untilStopped _ _ _) fun tag => ?_
  dsimp only [id]
  cases Rune.closer? tag.2 with
  | some closer => exact bind (untilStopped _ _ _) fun _ => pure _
  | none => exact fail _

/-! ### Numerals -/

theorem decimal : Local base (·.translate base) (Scanner.decimal start first)
    (Scanner.decimal (base.translate start) first) := by
  intro p text hline
  obtain ⟨ts, marks, ending, passed, rest, rfl, hstopped, hx, hy⟩ :=
    Run.exists_gives_scan (g := id) (fun s r => (Scanner.decimalStep s r).map_id.symm) {} text
  refine .bind (f := id) hline (hx p) (hy _) ?_
  have hbehind : 1 ≤ (p.advanceAll (ts ++ passed)).line :=
    hline.trans (p.line_le_line_advanceAll _)
  cases ending with
  | left => exact pure _ _ _ hbehind
  | exhausted => exact pure _ _ _ hbehind
  | stopped r =>
    obtain ⟨rfl, hstop⟩ := hstopped r rfl
    -- The mark is no newline, so both step back to where it stands.
    have hr : r ≠ '\n' := by
      rcases Scanner.decimalStep_stop hstop with ⟨rfl, -⟩ | ⟨rfl, -⟩ <;> decide
    have hmark : p.advanceAll (ts ++ [r]) = (p.advanceAll ts).advance r :=
      p.advanceAll_append ts [r]
    have hmoved := base.translate_advance_of_ne (p.advanceAll ts) hr
    rw [hmark] at hbehind ⊢
    refine Meets.bind (f := base.translate) hbehind (gives_position _ rest)
      (fun rest' _ => gives_position _ rest') ?_
    dsimp only
    rw [hmoved, Scanner.advance_col_sub_one hr, Scanner.advance_col_sub_one hr]
    exact pure _ _ _ hbehind

theorem wholeIn (radix : Nat) (lead : List Char) : Local base (·.translate base)
    (Scanner.wholeIn radix start lead) (Scanner.wholeIn radix (base.translate start) lead) :=
  bind (scanClass _) fun _ => pure _

/-- A rune `r` that no whole number goes on with is put back, and `0` is found. -/
theorem gives_zeroLed {r : Char} (hbinary : ¬(r = 'b' || r = 'B') = true)
    (hhexadecimal : ¬(r = 'x' || r = 'X') = true) (hdigit : ¬r.isDigit = true) (p : Position)
    (rest : List Char) :
    (Scanner.zeroLed start).Gives p [] (r :: rest) (.ofToken start .int "0") := by
  intro d hd
  obtain ⟨d', hnext, -, hback⟩ := hd.exists_nextRune
  refine ⟨d'.backup r, ?_, hback⟩
  unfold Scanner.zeroLed
  rw [run_bind_ok hnext]
  dsimp only
  rw [if_neg hbinary, if_neg hhexadecimal, if_neg hdigit]
  rfl

theorem zeroLed : Local base (·.translate base) (Scanner.zeroLed start)
    (Scanner.zeroLed (base.translate start)) := by
  intro p text hline
  cases text with
  | nil =>
    refine Meets.bind (f := id) hline (gives_nextRune_nil p) (fun rest' hhead => ?_)
      (pure _ _ _ hline)
    obtain rfl := List.head?_eq_none_iff.1 hhead
    exact gives_nextRune_nil _
  | cons r text =>
    by_cases hrest : (r = 'b' || r = 'B') = true ∨ (r = 'x' || r = 'X') = true ∨ r.isDigit = true
    · have hbehind : 1 ≤ (p.advanceAll [r]).line := hline.trans (p.line_le_line_advanceAll [r])
      refine Meets.bind (f := id) hline (gives_nextRune_cons p r text)
        (fun rest' _ => gives_nextRune_cons _ r rest') ?_
      dsimp only [id]
      split_ifs with hbinary hhexadecimal hdigit
      · exact wholeIn 2 _ _ _ hbehind
      · exact wholeIn 16 _ _ _ hbehind
      · exact wholeIn 10 _ _ _ hbehind
      · exact absurd hrest (by simp [hbinary, hhexadecimal, hdigit])
    · obtain ⟨hbinary, hhexadecimal, hdigit⟩ := by
        simpa only [not_or] using hrest
      refine .gives [] (r :: text) _ (gives_zeroLed hbinary hhexadecimal hdigit p text)
        fun rest' hhead => ?_
      obtain ⟨rest', rfl⟩ := List.head?_eq_some_iff.1 hhead
      exact gives_zeroLed hbinary hhexadecimal hdigit _ rest'

theorem numeral : Local base (·.translate base) (Scanner.numeral start first)
    (Scanner.numeral (base.translate start) first) := by
  unfold Scanner.numeral
  split_ifs
  · refine bind peek fun seen => ?_
    dsimp only [id]
    split
    · exact decimal
    · exact zeroLed
  · exact decimal

/-! ### Tokens -/

theorem word : Local base (·.translate base) (Scanner.word start first)
    (Scanner.word (base.translate start) first) :=
  bind (scanClass _) fun _ => pure _

theorem symbol : Local base (·.translate base) (Scanner.symbol start)
    (Scanner.symbol (base.translate start)) :=
  bind (scanClass _) fun _ => pure _

theorem otherToken : Local base (·.translate base) (Scanner.otherToken start first)
    (Scanner.otherToken (base.translate start) first) := by
  unfold Scanner.otherToken
  split_ifs
  · exact string
  · exact symbol
  · exact template
  · exact structured
  · exact numeral
  · exact word
  · exact pure _

theorem token : Local base (·.translate base) (Scanner.token start first)
    (Scanner.token (base.translate start) first) := by
  unfold Scanner.token
  split_ifs
  · exact pure _
  · refine bind operator? fun found => ?_
    cases found with
    | none => exact otherToken
    | some found => exact pure found

theorem blankStep_translate (base pos : Position) (r : Char) :
    Scanner.blankStep (base.translate pos) r = (Scanner.blankStep pos r).map base.translate := by
  unfold Scanner.blankStep
  split_ifs with hblank
  · have hr : r ≠ '\n' := by
      rintro rfl
      cases hblank
    rw [← base.translate_advance_of_ne pos hr]
    rfl
  · rfl

/-- The scan of an `item` sees its position, the runes of the item and the one behind them. -/
theorem item (base : Position) : Local base (·.translate base) Scanner.item Scanner.item := by
  refine bind position fun here => bind (scan (blankStep_translate base) here) fun blanks => ?_
  dsimp only [Run.map]
  cases blanks.ending with
  | stopped r => exact token
  | left => exact pure _
  | exhausted => exact pure _

end Scan.Local

/-! ### Items in front of a text -/

namespace Scanner

variable {start p : Position} {first : Char} {bs us behind : List Char} {found : Finding}

/-- Where no operator starts the text, what `otherToken` gives there is the token. -/
theorem gives_token_of_none (hnewline : first ≠ '\n')
    (hnone : ∀ row ∈ Token.operators, ¬row.1.toList <+: first :: (us ++ behind))
    (h : (otherToken start first).Gives p us behind found) :
    (token start first).Gives p us behind found := by
  unfold token
  rw [if_neg hnewline]
  exact (Scan.Local.gives_operator_none p hnone).stay_bind h

/-- A token behind blanks `bs` is the next item. -/
theorem gives_item_of_token (hblanks : ∀ r ∈ bs, Rune.isBlank r = true)
    (hfirst : Rune.isBlank first = false)
    (h : (token (p.advanceAll bs) first).Gives ((p.advanceAll bs).advance first) us behind found) :
    item.Gives p (bs ++ first :: us) behind found := by
  have hstop : blankStep (p.advanceAll bs) first = .stop := by
    rw [blankStep, if_neg (by simp [hfirst])]
  have hrun : (Run.scan blankStep p).Gives p (bs ++ [first]) (us ++ behind) _ :=
    Run.gives_scan (takes_blanks hblanks p) (.stopped hstop) p
  have hbehind : p.advanceAll (bs ++ [first]) = (p.advanceAll bs).advance first :=
    p.advanceAll_append bs [first]
  rw [← hbehind] at h
  rw [List.append_cons]
  exact (Scan.Local.gives_position p _).stay_bind (hrun.bind h)

end Scanner

end LexStream
