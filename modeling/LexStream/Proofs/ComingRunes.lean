import LexStream.Proofs.Locality

/-!
# The runes that come next

`Cursor.Delivers c rs c'` says which runes come next: asked for one rune after another by
`Cursor.nextRune`, the cursor `c` gives the runes `rs` and has become `c'`.  It says so for every
`ByteSource`, whatever is in the lookahead of `c`, and nothing about what stands behind `rs`.  So a
scan is compared with the cursor alone, and not with the text that a source holds.

A literal that needs an end is a `Scanner.untilStopped`.  Over runes that come next it either stops
at the last of them, or it takes them all.  In the second case the rune behind them decides:
`Scanner.LacksEnd` says that the literal is unterminated where the input ends there, and that the
error of decoding is given where this rune does not decode.

Main facts:

* `Run.Decides.shortest_or_never`: a text starts with the shortest row that ends a run, or none of
  its first parts ends it;
* `Run.goOn_of_takes`: a run goes over the runes that its step takes as the cursor itself does;
* `Scanner.untilStopped_of_shortest`, `Scanner.lacksEnd_of_never`: the two ways in which
  `Scanner.untilStopped` comes out;
* `Cursor.Faces.exists_delivers`, `Scanner.exists_unterminated`: the runes that come next in a text,
  and what becomes there of a literal that lacks its end.
-/

namespace LexStream

open Grammar

namespace Cursor

variable {σ : Type} [ByteSource σ]

/-- Asked for one rune after another, the cursor `c` gives the runes `rs` and becomes `c'`. -/
inductive Delivers : Cursor σ → List Char → Cursor σ → Prop
  | refl (c : Cursor σ) : Delivers c [] c
  | cons {c c₁ c' : Cursor σ} {r : Char} {rs : List Char}
      (hr : nextRune.run c = (.ok (some r), c₁)) (hrs : Delivers c₁ rs c') : Delivers c (r :: rs) c'

namespace Delivers

variable {c c₁ c' : Cursor σ} {us vs rs : List Char}

/-- The runes `rs` that `c` gives lie between `c` and `c'`; in particular, the position of `c'` is
that of `c` advanced over `rs`. -/
theorem passes (h : Delivers c rs c') : Passes c rs c' := by
  induction h with
  | refl c => exact .refl c
  | cons hr _ ih => exact (passes_nextRune hr).1.trans ih

theorem trans (h : Delivers c us c₁) (h' : Delivers c₁ vs c') : Delivers c (us ++ vs) c' := by
  induction h with
  | refl c => exact h'
  | cons hr _ ih => exact .cons hr (ih h')

/-- There is a cursor `c₁` between the runes `us` and `vs` that come one behind the other. -/
theorem split (h : Delivers c (us ++ vs) c') : ∃ c₁, Delivers c us c₁ ∧ Delivers c₁ vs c' := by
  induction us generalizing c with
  | nil => exact ⟨c, .refl c, h⟩
  | cons u us ih =>
    cases h with
    | cons hr hrs =>
      obtain ⟨c₁, hus, hvs⟩ := ih hrs
      exact ⟨c₁, .cons hr hus, hvs⟩

end Delivers

/-- A source gives the runes `us` of its text, whatever is in the lookahead of `c`. -/
theorem Faces.exists_delivers {c : Cursor Source} {p : Position} {us rest : List Char}
    (h : c.Faces p (us ++ rest)) :
    ∃ c₁, c.Delivers us c₁ ∧ c₁.Faces (p.advanceAll us) rest := by
  induction us generalizing c p with
  | nil => exact ⟨c, .refl c, h⟩
  | cons r us ih =>
    obtain ⟨c₂, hr, hc₂, -⟩ := h.exists_nextRune
    obtain ⟨c₁, hus, hc₁⟩ := ih hc₂
    exact ⟨c₁, .cons hr hus, hc₁⟩

end Cursor

/-! ### Runs that a property ends -/

namespace Run.Decides

variable {τ : Type} {step : τ → Char → Verdict τ} {init : τ} {P : List Char → Prop}

/-- Every `text` starts with the shortest row `v` that has the property `P`, or no first part of it
has `P`. -/
theorem shortest_or_never (hdec : Decides step init P) (text : List Char) :
    (∃ v behind, text = v ++ behind ∧ Shortest P v) ∨ Never P text := by
  obtain ⟨ts, behind, s, ending, rest, rfl, htakes, hhalts⟩ := exists_halts step init text
  cases hhalts with
  | @stopped r _ hstop =>
    have hshortest := hdec.shortest htakes hstop
    exact .inl ⟨ts ++ [r], rest, by simp, hshortest⟩
  | left hleave => exact absurd hleave (hdec.not_leave _ _)
  | exhausted =>
    rw [List.append_nil]
    exact .inr (hdec.never htakes)

/-- If `Never P v`, a `step` that decides `P` takes all of `v`. -/
theorem exists_takes_of_never (hdec : Decides step init P) {v : List Char} (h : Never P v) :
    ∃ s, Takes step init v s := by
  refine exists_takes fun us r s hpre hus => ?_
  cases hr : step s r with
  | take s' => exact ⟨s', rfl⟩
  | stop => exact absurd ((hdec.stop_iff r hus).1 hr) (h _ hpre)
  | leave => exact absurd hr (hdec.not_leave s r)

end Run.Decides

/-! ### Runs over the runes that come -/

variable {σ τ β γ : Type} [ByteSource σ] {step : τ → Char → Verdict τ} {init s s' : τ}
  {P : List Char → Prop} {c c₁ c' : Cursor σ} {ts us vs : List Char} {r : Char}

/-- Behind runes `ts` that come next and that `step` takes from `s` to `s'`, the loop `Run.goOn`
goes on in the state `s'`, with `ts` added to what was `taken`. -/
theorem Run.goOn_of_takes (htakes : Run.Takes step s ts s') (h : c.Delivers ts c₁)
    (taken : String) :
    (Run.goOn step s taken).run c = (Run.goOn step s' (taken ++ String.ofList ts)).run c₁ := by
  induction htakes generalizing c taken with
  | refl s =>
    cases h
    rw [String.ofList_nil, String.append_empty]
  | @cons s s₁ s' r rs hr _ ih =>
    cases h with
    | cons hnext hrs =>
      have htaken : taken.push r ++ String.ofList rs = taken ++ String.ofList (r :: rs) := by
        rw [String.ofList_cons, String.push_eq_append, String.append_assoc]
      rw [Run.goOn_of_some hnext, hr, ← htaken]
      exact ih hrs (taken.push r)

namespace Scanner

variable {kind : LiteralKind} {start : Position} {x : Scan σ β} {f : β → Scan σ γ} {b : β}

/-- Where `step` takes the runes `ts` and stops at `r`, `untilStopped` passes `ts ++ [r]`. -/
theorem untilStopped_of_takes (htakes : Run.Takes step init ts s) (hstop : step s r = .stop)
    (h : c.Delivers (ts ++ [r]) c') :
    (untilStopped kind start step init).run c = (.ok (String.ofList ts, r), c') := by
  obtain ⟨c₁, hts, hlast⟩ := h.split
  obtain _ | ⟨hr, ⟨⟩⟩ := hlast
  have hrun : (Run.scan step init).run c = (.ok ⟨String.ofList ts, s, .stopped r⟩, c') := by
    unfold Run.scan
    rw [Run.goOn_of_takes htakes hts, String.empty_append, Run.goOn_of_some hr, hstop]
  exact Scan.run_bind_ok hrun

/-- Where the shortest row with `P` comes next, an `untilStopped` whose `step` decides `P` passes
just this row. -/
theorem untilStopped_of_shortest (hdec : Run.Decides step init P) (hv : Shortest P vs)
    (h : c.Delivers vs c') :
    ∃ inside last, inside.push last = String.ofList vs ∧
      (untilStopped kind start step init).run c = (.ok (inside, last), c') := by
  obtain ⟨ts, r, s, rfl, htakes, hstop⟩ := hdec.exists_takes_stop hv
  refine ⟨String.ofList ts, r, ?_, untilStopped_of_takes htakes hstop h⟩
  rw [String.ofList_append, String.push_eq_append, String.singleton_eq_ofList]

/-! ### Literals without an end -/

/-- Run from the cursor `c`, the scan `x` goes over the runes `us`, behind which the cursor is `c₁`,
and needs more of them. -/
structure LacksEnd (kind : LiteralKind) (start : Position) (x : Scan σ β) (c : Cursor σ)
    (us : List Char) (c₁ : Cursor σ) : Prop where
  /-- Where the input ends behind `us`, the literal that started at `start` is unterminated, and
  exactly `us` is passed. -/
  unended : ∀ c₂, Cursor.nextRune.run c₁ = (.ok none, c₂) →
    x.run c = (.error (.unterminated kind start), c₂) ∧ c.Passes us c₂
  /-- Where the rune behind `us` does not decode, this is the error. -/
  faulty : ∀ e c₂, Cursor.nextRune.run c₁ = (.error e, c₂) → x.run c = (.error e, c₂)

/-- What would follow a scan that lacks its end makes no difference. -/
theorem LacksEnd.bind (h : LacksEnd kind start x c us c₁) :
    LacksEnd kind start (x >>= f) c us c₁ where
  unended c₂ hnone := ⟨Scan.run_bind_error (h.unended c₂ hnone).1, (h.unended c₂ hnone).2⟩
  faulty e c₂ herror := Scan.run_bind_error (h.faulty e c₂ herror)

/-- If `x` gives `b` and passes `us`, and `f b` lacks its end behind `us`, so does `x >>= f`. -/
theorem LacksEnd.behind (hrun : x.run c = (.ok b, c')) (hus : c.Delivers us c')
    (h : LacksEnd kind start (f b) c' vs c₁) :
    LacksEnd kind start (x >>= f) c (us ++ vs) c₁ where
  unended c₂ hnone :=
    ⟨(Scan.run_bind_ok hrun).trans (h.unended c₂ hnone).1,
      hus.passes.trans (h.unended c₂ hnone).2⟩
  faulty e c₂ herror := (Scan.run_bind_ok hrun).trans (h.faulty e c₂ herror)

theorem lacksEnd_of_takes (htakes : Run.Takes step init ts s) (h : c.Delivers ts c₁) :
    LacksEnd kind start (untilStopped kind start step init) c ts c₁ where
  unended c₂ hnone := by
    have hrun : (Run.scan step init).run c = (.ok ⟨String.ofList ts, s, .exhausted⟩, c₂) := by
      unfold Run.scan
      rw [Run.goOn_of_takes htakes h, String.empty_append, Run.goOn_of_none hnone]
    have hend := h.passes.trans (Cursor.ends_nextRune hnone).1.passes
    rw [List.append_nil] at hend
    exact ⟨Scan.run_bind_ok hrun, hend⟩
  faulty e c₂ herror := by
    have hrun : (Run.scan step init).run c = (.error e, c₂) := by
      unfold Run.scan
      rw [Run.goOn_of_takes htakes h, Run.goOn_of_error herror]
    exact Scan.run_bind_error hrun

/-- Where no first part of the runes `us` that come next has the property `P`, an `untilStopped`
whose `step` decides `P` lacks its end. -/
theorem lacksEnd_of_never (hdec : Run.Decides step init P) (hnever : Never P us)
    (h : c.Delivers us c₁) :
    LacksEnd kind start (untilStopped kind start step init) c us c₁ := by
  obtain ⟨s, htakes⟩ := hdec.exists_takes_of_never hnever
  exact lacksEnd_of_takes htakes h

/-- In front of the text `us` of a source, a literal that lacks its end is unterminated, and nothing
of the text is left. -/
theorem exists_unterminated {y : Scan Source β} {d : Cursor Source} {p : Position}
    (h : ∀ d₁, d.Delivers us d₁ → LacksEnd kind start y d us d₁) (hd : d.Faces p us) :
    ∃ d', y.run d = (.error (.unterminated kind start), d') ∧ d'.Faces (p.advanceAll us) [] := by
  rw [← List.append_nil us] at hd
  obtain ⟨d₁, hus, hd₁⟩ := hd.exists_delivers
  obtain ⟨d', hnone, hd'⟩ := Scan.Local.gives_nextRune_nil _ d₁ hd₁
  obtain ⟨hrun, hpasses⟩ := (h d₁ hus).unended d' hnone
  exact ⟨d', hrun, hd.of_passes hpasses hd'.holds⟩

end Scanner

end LexStream
