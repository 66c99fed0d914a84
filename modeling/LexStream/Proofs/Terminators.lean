import LexStream.Proofs.ComingRunes

/-!
# Where strings and templates end

Behind its sentinel a string goes on up to the first double quote that no backslash precedes
immediately (`EndsString`), and a template up to the first backtick (`EndsTemplate`).  The scans
`Scanner.string` and `Scanner.template` pass just the runes up to there, newlines among them,
whatever is in the lookahead and whichever reader the other runes come from.  Where no such rune
comes, they pass all that comes, and the literal has no end.

Main facts:

* `Scanner.endsFirst_oneRun`: a literal that is one run behind its sentinel ends at the first place
  where its step decides that it does;
* `Scanner.endsFirst_string_template`: so strings and templates end at the first rune that ends
  them.
-/

namespace LexStream

open Grammar

/-- Passing the runes `rs` adds a line for each newline among them. -/
theorem Position.line_advanceAll (p : Position) (rs : List Char) :
    (p.advanceAll rs).line = p.line + rs.count '\n' := by
  induction rs generalizing p with
  | nil => rfl
  | cons r rs ih =>
    have hr : (p.advance r).line = p.line + if r = '\n' then 1 else 0 := by
      unfold advance
      split_ifs <;> rfl
    rw [advanceAll_cons, ih, hr, List.count_cons]
    simp only [beq_iff_eq]
    omega

/-! ### Literals of one run -/

namespace Scanner

variable {σ : Type} [ByteSource σ] {start : Position} {c c₁ : Cursor σ} {u : List Char}

/-- The scan `x` of a literal whose sentinel stood at `start` ends at the first place where the
runes behind the cursor `c` have the property `P`.  These runes are `u`, and `c₁` is the cursor
behind them. -/
structure EndsFirst (P : List Char → Prop) (kind : LiteralKind) (sentinel : Char) (start : Position)
    (x : Scan σ Finding) (c : Cursor σ) (u : List Char) (c₁ : Cursor σ) : Prop where
  /-- If some first part of `u` has the property `P`, the shortest one `v` is passed, and the
  literal is the `sentinel` and `v`. -/
  ended : (∃ v, v <+: u ∧ P v) →
    ∃ v behind c', u = v ++ behind ∧ Shortest P v ∧
      x.run c = (.ok (.ofToken start (tokenOf kind) (String.ofList (sentinel :: v))), c') ∧
      c.Delivers v c' ∧ c'.Delivers behind c₁ ∧
      c'.position = c.position.advanceAll v ∧
      c'.position.line = c.position.line + v.count '\n'
  /-- If none has, all of `u` is passed, and the literal has no end where the input ends behind
  `c₁`. -/
  unended : (∀ v, v <+: u → ¬P v) → ∀ c₂, Cursor.nextRune.run c₁ = (.ok none, c₂) →
    x.run c = (.error (.unterminated kind start), c₂)
  /-- If none has, and the rune behind `c₁` cannot be decoded, that is the error. -/
  faulty : (∀ v, v <+: u → ¬P v) → ∀ e c₂, Cursor.nextRune.run c₁ = (.error e, c₂) →
    x.run c = (.error e, c₂)

/-- A literal that is one run behind its `sentinel` ends at the first place where the `step` decides
that it does. -/
theorem endsFirst_oneRun {τ : Type} {kind : LiteralKind} {step : τ → Char → Verdict τ} {init : τ}
    {P : List Char → Prop} {sentinel : Char} {lead : String} (hdec : Run.Decides step init P)
    (hlead : lead = String.ofList [sentinel]) (h : c.Delivers u c₁) :
    EndsFirst P kind sentinel start
      (untilStopped kind start step init >>= fun inside =>
        pure (.ofToken start (tokenOf kind) (lead ++ inside.1.push inside.2))) c u c₁ where
  ended := by
    rintro ⟨w, hw, hP⟩
    obtain ⟨v, behind, rfl, hv⟩ | hnever := hdec.shortest_or_never u
    · obtain ⟨c', hc', hbehind⟩ := h.split
      have hpos : c'.position = c.position.advanceAll v := hc'.passes.position
      have hline : c'.position.line = c.position.line + v.count '\n' := by
        rw [hpos, Position.line_advanceAll]
      refine ⟨v, behind, c', rfl, hv, ?_, hc', hbehind, hpos, hline⟩
      obtain ⟨inside, last, htext, hrun⟩ := untilStopped_of_shortest hdec hv hc'
      have htext : lead ++ inside.push last = String.ofList (sentinel :: v) := by
        rw [htext, hlead, ← String.ofList_append]
        rfl
      rw [Scan.run_bind_ok hrun, htext]
      rfl
    · exact absurd hP (hnever w hw)
  unended := by
    intro hnever c₂ hnone
    exact ((lacksEnd_of_never hdec hnever h).bind.unended c₂ hnone).1
  faulty := by
    intro hnever e c₂ herror
    exact (lacksEnd_of_never hdec hnever h).bind.faulty e c₂ herror

/-- A string ends at the first double quote that no backslash precedes immediately, and a template
at the first backtick: at the end of the shortest first part of `u` with `EndsString`, or with
`EndsTemplate`.  Up to there the scan passes just the runes that the cursor `c` gives, and a newline
among them moves the line and is no item of its own. -/
theorem endsFirst_string_template (start : Position) (c c₁ : Cursor σ) (u : List Char)
    (h : c.Delivers u c₁) :
    EndsFirst EndsString .string '"' start (string start) c u c₁ ∧
      EndsFirst EndsTemplate .template '\x60' start (template start) c u c₁ :=
  ⟨endsFirst_oneRun decides_stringStep rfl h, endsFirst_oneRun decides_templateStep rfl h⟩

/-- The first rune was looked at already, a quote behind a backslash and a newline follow it, and
the runes of `u` go on behind the quote that ends the string. -/
theorem endsFirst_string_template_escaped :
    let c : Cursor (List Signal) :=
      { source := (Utf8.encode "\\\"\né\"\x60b".toList).map .byte, caret := ⟨⟨1, 1⟩, 0⟩,
        lookahead := ['a'] }
    let c₁ : Cursor (List Signal) := { source := [], caret := ⟨⟨2, 4⟩, 4⟩ }
    c.Delivers "a\\\"\né\"\x60b".toList c₁ ∧
      EndsFirst EndsString .string '"' ⟨1, 0⟩ (string ⟨1, 0⟩) c "a\\\"\né\"\x60b".toList c₁ ∧
      EndsFirst EndsTemplate .template '\x60' ⟨1, 0⟩ (template ⟨1, 0⟩) c
        "a\\\"\né\"\x60b".toList c₁ := by
  intro c c₁
  have h : c.Delivers "a\\\"\né\"\x60b".toList c₁ :=
    .cons rfl <| .cons rfl <| .cons rfl <| .cons rfl <| .cons rfl <| .cons rfl <| .cons rfl <|
      .cons rfl <| .refl c₁
  exact ⟨h, endsFirst_string_template ⟨1, 0⟩ c c₁ _ h⟩

end Scanner

end LexStream
