import LexStream.Proofs.Runs

/-!
# Computations in front of a text

The other direction of what a computation passes.  `Scan.Yields x rs a rest` says what the
computation `x` does in front of the runes `rs` of a text: it gives `a` and leaves the runes `rest`.
What a computation yields is put together from what its parts yield.  A run yields the runes that
its step takes, up to a place where the step halts (`Run.Halts`).

Main facts:

* `Run.yields_scan`, `Run.yields_scanClass`: what a run yields;
* `Run.Decides.exists_takes_stop`: a step that decides a property stops at the end of the shortest
  row that has it.
-/

namespace LexStream

open Grammar

/-! ### What a computation yields -/

/-- In front of the runes `rs` of a text the computation gives `a` and leaves the runes `rest`. -/
def Scan.Yields {α : Type} (x : Scan Source α) (rs : List Char) (a : α) (rest : List Char) : Prop :=
  ∀ c : Cursor Source, c.Holds rs → ∃ c', x.run c = (.ok a, c') ∧ c'.Holds rest

namespace Scan.Yields

variable {α β : Type} {rs rs' rs'' : List Char}

theorem pure (a : α) : Yields (Pure.pure a) rs a rs :=
  fun c hc => ⟨c, rfl, hc⟩

theorem bind {x : Scan Source α} {f : α → Scan Source β} {a : α} {b : β} (hx : Yields x rs a rs')
    (hf : Yields (f a) rs' b rs'') : Yields (x >>= f) rs b rs'' := by
  intro c hc
  obtain ⟨c₁, hrun, hc₁⟩ := hx c hc
  obtain ⟨c', hrun', hc'⟩ := hf c₁ hc₁
  exact ⟨c', (run_bind_ok hrun).trans hrun', hc'⟩

theorem nextRune_cons (r : Char) : Yields Cursor.nextRune (r :: rs) (some r) rs := by
  intro c hc
  match hnext : Cursor.nextRune.run c with
  | (.ok (some r'), c') =>
    obtain ⟨rest, hrest, hc'⟩ := hc.passes (Cursor.passes_nextRune hnext).1
    obtain ⟨rfl, rfl⟩ := List.cons.inj hrest
    exact ⟨c', rfl, hc'⟩
  | (.ok none, c') =>
    obtain ⟨hends, hnil⟩ := Cursor.ends_nextRune hnext
    have hrs := (hc.ends hends).1
    rw [hnil] at hrs
    cases hrs
  | (.error e, c') => exact absurd (Cursor.faults_nextRune hnext) hc.not_faults

theorem nextRune_nil : Yields Cursor.nextRune [] none [] := by
  intro c hc
  match hnext : Cursor.nextRune.run c with
  | (.ok (some r), c') =>
    obtain ⟨rest, hrest, -⟩ := hc.passes (Cursor.passes_nextRune hnext).1
    cases hrest
  | (.ok none, c') =>
    obtain ⟨hends, hnil⟩ := Cursor.ends_nextRune hnext
    exact ⟨c', rfl, hnil ▸ (hc.ends hends).2⟩
  | (.error e, c') => exact absurd (Cursor.faults_nextRune hnext) hc.not_faults

theorem peekNth (n : Nat) : Yields (Cursor.peekNth n) rs rs[n]? rs :=
  fun _ hc => hc.peekNth n

theorem backup (r : Char) : Yields (Scan.move (·.backup r)) rs () (r :: rs) := by
  intro c hc
  obtain ⟨pending, hspells, rfl⟩ := hc
  exact ⟨c.backup r, rfl, pending, hspells, rfl⟩

end Scan.Yields

/-! ### Runs -/

namespace Run

variable {τ : Type} {step : τ → Char → Verdict τ} {init s : τ} {ts behind rest : List Char}
  {ending : Ending}

theorem Takes.snoc {r : Char} {s' : τ} (h : Takes step init ts s) (hr : step s r = .take s') :
    Takes step init (ts ++ [r]) s' := by
  induction h with
  | refl s => exact .cons hr (.refl s')
  | cons ht _ ih => exact .cons ht (ih hr)

/-- The runes `ts` are taken when `step` takes each of them behind the ones before it. -/
theorem exists_takes {init : τ}
    (h : ∀ us r s, us ++ [r] <+: ts → Takes step init us s → ∃ s', step s r = .take s') :
    ∃ s, Takes step init ts s := by
  induction ts using List.reverseRecOn with
  | nil => exact ⟨init, .refl init⟩
  | append_singleton ts r ih =>
    obtain ⟨s, hs⟩ := ih fun us q s hpre => h us q s (hpre.trans (List.prefix_append ts [r]))
    obtain ⟨s', hs'⟩ := h ts r s (List.prefix_refl _) hs
    exact ⟨s', hs.snoc hs'⟩

/-- The step that has reached the state `s` ends its run in front of the first runes: how it ends,
and the runes that it leaves. -/
inductive Halts (step : τ → Char → Verdict τ) (s : τ) : List Char → Ending → List Char → Prop
  | stopped {r : Char} {rs : List Char} (h : step s r = .stop) :
      Halts step s (r :: rs) (.stopped r) rs
  | left {r : Char} {rs : List Char} (h : step s r = .leave) :
      Halts step s (r :: rs) .left (r :: rs)
  | exhausted : Halts step s [] .exhausted []

/-- If `step` leaves every rune that may come next, it halts there without stopping at one. -/
theorem exists_halts_of_leave (h : ∀ r ∈ behind.head?, step s r = .leave) :
    ∃ ending, (∀ r, ending ≠ .stopped r) ∧ Halts step s behind ending behind := by
  cases behind with
  | nil => exact ⟨.exhausted, by simp, .exhausted⟩
  | cons r rs => exact ⟨.left, by simp, .left (h r rfl)⟩

theorem yields_goOn (htakes : Takes step init ts s) (hends : Halts step s behind ending rest)
    (taken : String) :
    (goOn step init taken).Yields (ts ++ behind) ⟨taken ++ String.ofList ts, s, ending⟩ rest := by
  intro c hc
  induction htakes generalizing c taken with
  | refl s =>
    rw [String.ofList_nil, String.append_empty]
    cases hends with
    | @stopped r rs h =>
      obtain ⟨c', hnext, hc'⟩ := Scan.Yields.nextRune_cons r c hc
      exact ⟨c', (goOn_of_some hnext).trans (by rw [h]), hc'⟩
    | @left r rs h =>
      obtain ⟨c₁, hnext, hc₁⟩ := Scan.Yields.nextRune_cons r c hc
      obtain ⟨c', hback, hc'⟩ := Scan.Yields.backup r c₁ hc₁
      cases hback
      exact ⟨c₁.backup r, (goOn_of_some hnext).trans (by rw [h]), hc'⟩
    | exhausted =>
      obtain ⟨c', hnext, hc'⟩ := Scan.Yields.nextRune_nil c hc
      exact ⟨c', goOn_of_none hnext, hc'⟩
  | @cons s₀ s₁ s₂ r rs hr hrs ih =>
    obtain ⟨c₁, hnext, hc₁⟩ := Scan.Yields.nextRune_cons r c hc
    obtain ⟨c', hrun, hc'⟩ := ih hends (taken.push r) c₁ hc₁
    have htaken : taken.push r ++ String.ofList rs = taken ++ String.ofList (r :: rs) := by
      rw [String.ofList_cons, String.push_eq_append, String.append_assoc]
    rw [htaken] at hrun
    refine ⟨c', Eq.trans ?_ hrun, hc'⟩
    rw [goOn_of_some hnext, hr]

/-- In a text a run yields the runes `ts` that its step takes, up to a place where the step
`Halts`. -/
theorem yields_scan (htakes : Takes step init ts s) (hends : Halts step s behind ending rest) :
    (scan step init).Yields (ts ++ behind) ⟨String.ofList ts, s, ending⟩ rest := by
  have h := yields_goOn htakes hends ""
  rwa [String.empty_append] at h

/-- The row `ts` of the class `p` is the longest one where the next rune is not of the class. -/
theorem yields_scanClass {p : Char → Bool} (hts : ∀ r ∈ ts, p r = true)
    (hbehind : ∀ r ∈ behind.head?, p r = false) :
    (scanClass p).Yields (ts ++ behind) (String.ofList ts) behind := by
  obtain ⟨u, htakes⟩ : ∃ u, Takes (ofClass p) () ts u := by
    refine exists_takes fun us r s hpre _ => ⟨(), ?_⟩
    rw [ofClass, if_pos (hts r (hpre.subset (by simp)))]
  obtain ⟨ending, -, hends⟩ : ∃ ending, (∀ r, ending ≠ .stopped r) ∧
      Halts (ofClass p) u behind ending behind := by
    refine exists_halts_of_leave fun r hr => ?_
    rw [ofClass, if_neg (by simp [hbehind r hr])]
  exact .bind (yields_scan htakes hends) (.pure _)

/-- If `v` is the shortest row with the property `P`, it is taken up to its last rune `r`, at which
the `step` that decides `P` stops. -/
theorem Decides.exists_takes_stop {P : List Char → Prop} (hdec : Decides step init P)
    {v : List Char} (h : Shortest P v) :
    ∃ ts r s, v = ts ++ [r] ∧ Takes step init ts s ∧ step s r = .stop := by
  rcases List.eq_nil_or_concat v with rfl | ⟨ts, r, rfl⟩
  · exact absurd h.1 hdec.not_nil
  rw [List.concat_eq_append] at h ⊢
  obtain ⟨s, htakes⟩ : ∃ s, Takes step init ts s := by
    refine exists_takes fun us q s hpre hus => ?_
    cases hq : step s q with
    | take s' => exact ⟨s', rfl⟩
    | leave => exact absurd hq (hdec.not_leave s q)
    | stop =>
      -- A row that ends earlier would have the property already.
      have hshort := h.2 (us ++ [q]) (hpre.trans (List.prefix_append ts [r]))
        ((hdec.stop_iff q hus).1 hq)
      have hle := hpre.length_le
      rw [hshort, List.length_append] at hle
      exact absurd hle (by simp)
  exact ⟨ts, r, s, rfl, htakes, (hdec.stop_iff r htakes).2 h.1⟩

end Run

end LexStream
