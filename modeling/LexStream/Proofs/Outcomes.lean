import LexStream.Proofs.Computations
import LexStream.Proofs.Items

/-!
# Outcomes of decodings

A computation that moves a cursor asks its source for runes, one decoding after another.
`Utf8.Trace s os s'` says that the decodings from the source `s` to the source `s'` come to the
outcomes `os`: runes, ends and faults.  Every scan has such a trace, and it holds no fault where the
scan succeeds (`Scan.Traces`).

A rune makes its source smaller, so a source that comes back to itself has given none in between.
Therefore the runes decoded from one source to another are always the same, and so are the runes
passed from one cursor to another.

Main facts:

* `Utf8.Decodes.unique`, `Cursor.Passes.unique`: the runes between two sources, or two cursors;
* `Run.goOn_eq_bind`, `Run.goOn_induction`: a run is what its first rune says, and then a run again;
* `Scan.Traces.item`: the scan of an item has a trace, without a fault if it succeeds;
* `Scanner.passes_item`: an item that is no end passes a rune at least.
-/

namespace LexStream

variable {σ α β : Type} [ByteSource σ]

/-! ### Traces -/

namespace Utf8

variable {s s' s'' : σ} {ds ds' : List Char}

/-- The decodings from one source to another, with their outcomes `os`: runes, ends and faults. -/
inductive Trace : σ → List (Except Fault (Option Char)) → σ → Prop
  | refl (s : σ) : Trace s [] s
  | step {s s' s'' : σ} {outcome : Except Fault (Option Char)}
      {os : List (Except Fault (Option Char))} (hd : decode s = (outcome, s'))
      (h : Trace s' os s'') : Trace s (outcome :: os) s''

/-- None of the outcomes `os` is a fault. -/
def Faultless (os : List (Except Fault (Option Char))) : Prop :=
  ∀ fault, .error fault ∉ os

theorem Faultless.append {os os' : List (Except Fault (Option Char))} (h : Faultless os)
    (h' : Faultless os') : Faultless (os ++ os') := by
  intro fault hmem
  rcases List.mem_append.1 hmem with hmem | hmem
  · exact h fault hmem
  · exact h' fault hmem

namespace Trace

variable {os os' : List (Except Fault (Option Char))}

theorem single {outcome : Except Fault (Option Char)} (h : decode s = (outcome, s')) :
    Trace s [outcome] s' :=
  .step h (.refl s')

theorem trans (h : Trace s os s') (h' : Trace s' os' s'') : Trace s (os ++ os') s'' := by
  induction h with
  | refl s => exact h'
  | step hd _ ih => exact .step hd (ih h')

/-- The runes among the outcomes `os` are the ones decoded. -/
theorem decodes (h : Trace s os s') : Decodes s (os.flatMap given) s' := by
  induction h with
  | refl s => exact .refl s
  | step hd _ ih =>
    rw [List.flatMap_cons]
    exact .step hd ih

end Trace

/-! ### The runes between two sources -/

/-- A decoding makes its source smaller by one for a rune at least: by the number of runes that its
`outcome` gives. -/
theorem size_add_length_given_le {outcome : Except Fault (Option Char)}
    (h : decode s = (outcome, s')) :
    ByteSource.size s' + (given outcome).length ≤ ByteSource.size s := by
  have hle := size_decode_le s
  rw [h] at hle
  match outcome with
  | .ok (some r) => exact size_decode_lt h
  | .ok none => exact hle
  | .error fault => exact hle

/-- Every rune of `ds` makes the source smaller. -/
theorem Decodes.size_add_length_le (h : Decodes s ds s') :
    ByteSource.size s' + ds.length ≤ ByteSource.size s := by
  induction h with
  | refl s => exact Nat.le_refl _
  | step hd _ ih =>
    have hstep := size_add_length_given_le hd
    rw [List.length_append]
    omega

/-- A source `s` that has come back to itself has given no rune. -/
theorem Decodes.eq_nil (h : Decodes s ds s) : ds = [] := by
  have hsize := h.size_add_length_le
  apply List.eq_nil_of_length_eq_zero
  omega

/-- The runes decoded from one source `s` to another `s'` are always the same. -/
theorem Decodes.unique (h : Decodes s ds s') (h' : Decodes s ds' s') : ds = ds' := by
  induction h generalizing ds' with
  | refl s => exact h'.eq_nil.symm
  | step hd hrest ih =>
    cases h' with
    -- The other row of decodings is empty, so this one leads back to where it starts.
    | refl => exact (Decodes.step hd hrest).eq_nil
    | step hd' hrest' =>
      obtain ⟨rfl, rfl⟩ := Prod.mk.inj (hd.symm.trans hd')
      rw [ih hrest']

end Utf8

/-- The runes passed from one cursor `c` to another `c'` are always the same. -/
theorem Cursor.Passes.unique {c c' : Cursor σ} {rs rs' : List Char} (h : c.Passes rs c')
    (h' : c.Passes rs' c') : rs = rs' := by
  obtain ⟨ds, hd, hs⟩ := h.stream
  obtain ⟨ds', hd', hs'⟩ := h'.stream
  rw [hd.unique hd', hs'] at hs
  exact (List.append_cancel_right hs).symm

/-! ### Runs, one rune at a time -/

namespace Run

variable {τ : Type} (step : τ → Char → Verdict τ)

/-- A run passes a rune by `nextRune`, and goes on or ends as its `step` says. -/
theorem goOn_eq_bind (state : τ) (taken : String) :
    (goOn step state taken : Scan σ (Run τ)) = do
      match ← Cursor.nextRune with
      | some r =>
        match step state r with
        | .take next => goOn step next (taken.push r)
        | .stop => return ⟨taken, state, .stopped r⟩
        | .leave =>
          Scan.move (·.backup r)
          return ⟨taken, state, .left⟩
      | none => return ⟨taken, state, .exhausted⟩ := by
  funext c
  show (goOn step state taken).run c = Scan.run _ c
  match hnext : Cursor.nextRune.run c with
  | (.error e, c') => rw [goOn_of_error hnext, Scan.run_bind_error hnext]
  | (.ok none, c') =>
    rw [goOn_of_none hnext, Scan.run_bind_ok hnext]
    rfl
  | (.ok (some r), c') =>
    rw [goOn_of_some hnext, Scan.run_bind_ok hnext]
    dsimp only
    cases step state r <;> rfl

/-- If `P` holds at a cursor whenever it holds behind a rune that the `step` takes there, it holds
at every cursor.  The induction is on the runes that are left. -/
theorem goOn_induction {P : τ → String → Cursor σ → Prop}
    (h : ∀ state taken c, (∀ r c' next, Cursor.nextRune.run c = (.ok (some r), c') →
      step state r = .take next → P next (taken.push r) c') → P state taken c)
    (state : τ) (taken : String) (c : Cursor σ) : P state taken c := by
  induction hn : c.size using Nat.strongRecOn generalizing state taken c with
  | ind n ih =>
    subst hn
    apply h
    intro r c' next hnext _
    exact ih _ (Cursor.size_nextRune_lt hnext) next _ c' rfl

end Run

/-! ### Traces of computations -/

/-- On the cursor `c`, the computation goes from source to source by decodings, none of which comes
to a fault if it succeeds. -/
def Scan.Traces (x : Scan σ α) (c : Cursor σ) : Prop :=
  ∃ os, Utf8.Trace c.source os (x.run c).2.source ∧
    ((x.run c).1.isOk = true → Utf8.Faultless os)

namespace Scan.Traces

variable {c c' : Cursor σ} {x : Scan σ α}

/-- A computation `x` that leaves the source alone decodes nothing. -/
theorem of_source_eq (h : (x.run c).2.source = c.source) : x.Traces c := by
  refine ⟨[], ?_, fun _ fault => List.not_mem_nil⟩
  rw [h]
  exact .refl _

theorem pure (a : α) (c : Cursor σ) : Traces (Pure.pure a : Scan σ α) c :=
  of_source_eq rfl

theorem fail (e : LexError) (c : Cursor σ) : Traces (Scan.fail e : Scan σ α) c :=
  of_source_eq rfl

theorem position (c : Cursor σ) : Traces (Scan.position : Scan σ Position) c :=
  of_source_eq rfl

theorem backup (r : Char) (c : Cursor σ) : Traces (Scan.move (·.backup r) : Scan σ Unit) c :=
  of_source_eq rfl

theorem skip (n : Nat) (c : Cursor σ) : Traces (Scan.move (·.skip n) : Scan σ Unit) c :=
  of_source_eq rfl

/-- The outcomes of `x` stand before those of `f a` that follows it, so `x >>= f` has a trace. -/
theorem bind {f : α → Scan σ β} (hx : x.Traces c)
    (hf : ∀ a c₁, x.run c = (.ok a, c₁) → (f a).Traces c₁) : (x >>= f).Traces c := by
  obtain ⟨os, htrace, hok⟩ := hx
  match hrun : x.run c with
  | (.error e, c₁) =>
    rw [hrun] at htrace
    refine ⟨os, ?_, fun h => ?_⟩
    · rw [run_bind_error hrun]
      exact htrace
    · rw [run_bind_error hrun] at h
      cases h
  | (.ok a, c₁) =>
    rw [hrun] at htrace hok
    obtain ⟨os', htrace', hok'⟩ := hf a c₁ hrun
    refine ⟨os ++ os', ?_, fun h => ?_⟩
    · rw [run_bind_ok hrun]
      exact htrace.trans htrace'
    · rw [run_bind_ok hrun] at h
      exact (hok rfl).append (hok' h)

/-! ### Moving a cursor -/

theorem decode (c : Cursor σ) : Traces Cursor.decode c := by
  unfold Traces Scan.run Cursor.decode
  split
  next r s hs =>
    refine ⟨[.ok r], .single hs, fun _ fault hmem => ?_⟩
    cases List.mem_singleton.1 hmem
  next fault s hs => exact ⟨[.error fault], .single hs, fun h => by cases h⟩

theorem nextRune (c : Cursor σ) : Traces Cursor.nextRune c := by
  have h := decode c
  unfold Traces at h ⊢
  unfold Scan.run Cursor.nextRune
  split
  next r rs _ => exact ⟨[], .refl _, fun _ fault => List.not_mem_nil⟩
  next _ =>
    split
    next r c₁ hd => rw [hd] at h; exact h
    next c₁ hd => rw [hd] at h; exact h
    next e c₁ hd => rw [hd] at h; exact h

theorem lookFurther (k : Nat) (c : Cursor σ) : Traces (Cursor.lookFurther k) c := by
  induction k generalizing c with
  | zero => exact pure () c
  | succ k ih =>
    obtain ⟨os, htrace, hok⟩ := decode c
    unfold Traces Scan.run Cursor.lookFurther
    split
    next r c₁ hd =>
      rw [hd] at htrace hok
      obtain ⟨os', htrace', hok'⟩ := ih { c₁ with lookahead := c₁.lookahead ++ [r] }
      exact ⟨os ++ os', htrace.trans htrace', fun h => (hok rfl).append (hok' h)⟩
    next c₁ hd => rw [hd] at htrace hok; exact ⟨os, htrace, fun _ => hok rfl⟩
    next e c₁ hd => rw [hd] at htrace; exact ⟨os, htrace, fun h => by cases h⟩

theorem peekNth (n : Nat) (c : Cursor σ) : Traces (Cursor.peekNth n) c := by
  have h := lookFurther (n + 1 - c.lookahead.length) c
  unfold Traces at h ⊢
  unfold Scan.run Cursor.peekNth
  split
  next c₁ hl => rw [hl] at h; exact h
  next e c₁ hl => rw [hl] at h; exact h

/-! ### Scans -/

theorem scan {τ : Type} (step : τ → Char → Verdict τ) (init : τ) (c : Cursor σ) :
    Traces (Run.scan step init) c := by
  suffices h : ∀ state taken c, Traces (Run.goOn step state taken) c from h init "" c
  refine Run.goOn_induction step fun state taken c ih => ?_
  rw [Run.goOn_eq_bind]
  refine bind (nextRune c) fun r? c₁ hnext => ?_
  cases r? with
  | none => exact pure _ c₁
  | some r =>
    dsimp only
    cases hverdict : step state r with
    | take next => exact ih r c₁ next hnext hverdict
    | stop => exact pure _ c₁
    | leave => exact bind (backup r c₁) fun _ c₂ _ => pure _ c₂

theorem inherited :
    Inherited (fun (x : Scan σ _) (_ : Scan σ _) => ∀ c, x.Traces c) where
  pure := pure
  bind hx hf c := bind (hx c) fun a c₁ _ => hf a c₁
  position := position
  peek := peekNth 0
  scan := scan

theorem untilStopped {τ : Type} {kind : LiteralKind} {start : Position}
    (step : τ → Char → Verdict τ) (init : τ) (c : Cursor σ) :
    Traces (Scanner.untilStopped kind start step init) c :=
  inherited.untilStopped step init (fail _) c

theorem zeroLed (start : Position) (c : Cursor σ) : Traces (Scanner.zeroLed start) c := by
  refine bind (nextRune c) fun r? c₁ _ => ?_
  cases r? with
  | none => exact pure _ c₁
  | some r =>
    dsimp only
    split_ifs
    · exact inherited.wholeIn _ _ c₁
    · exact inherited.wholeIn _ _ c₁
    · exact inherited.wholeIn _ _ c₁
    · exact bind (backup r c₁) fun _ c₂ _ => pure _ c₂

/-- The scan of an `item` goes from source to source by decodings, none of which comes to a fault if
it succeeds. -/
theorem item (c : Cursor σ) : Traces (Scanner.item : Scan σ Finding) c := by
  refine inherited.item (fun start first => inherited.token ?_ (inherited.otherToken ?_ ?_ ?_ ?_)) c
  · exact inherited.operator? peekNth skip
  · exact inherited.string (untilStopped _ _)
  · exact inherited.template (untilStopped _ _)
  · exact inherited.structured untilStopped fun opener => fail _
  · exact zeroLed start

end Scan.Traces

/-! ### What an item passes -/

theorem Grammar.Found.ne_nil {start : Position} {rs : List Char} {found : Finding}
    (h : Found start rs found) : rs ≠ [] := by
  cases h with
  | lexeme h => exact h.ne_nil
  | repeatedMark => simp
  | stray => simp

/-- The scan of an `item` that succeeds passes runes `us`, and one at least if it has not found
`eof`. -/
theorem Scanner.passes_item {c c' : Cursor σ} {found : Finding} (hline : 1 ≤ c.position.line)
    (h : Scanner.item.run c = (.ok found, c')) :
    ∃ us, c.Passes us c' ∧ (found.item.token ≠ .eof → us ≠ []) := by
  obtain ⟨bs, c₁, -, hp, hstands⟩ := Scanner.finds_item hline h
  cases hstands with
  | eof hends _ hfound =>
    have hp' := hp.trans hends.passes
    exact ⟨_, hp', fun hne => absurd (hfound ▸ rfl) hne⟩
  | found hfinds =>
    obtain ⟨rs, hp', hfound⟩ := hfinds
    refine ⟨bs ++ rs, hp.trans hp', fun _ hnil => ?_⟩
    exact hfound.ne_nil (List.append_eq_nil_iff.1 hnil).2

end LexStream
