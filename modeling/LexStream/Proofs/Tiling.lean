import LexStream.Proofs.Items
import LexStream.Proofs.Results

/-!
# Items tile the text

The items of a text lie in it one behind the other.  Each of them spells the runes at its position,
and the runes between two of them are blanks, except before a repeated mark, where the numeral that
is dropped stands behind the blanks.  So nothing else of a text is lost, doubled or moved.

Main facts:

* `Grammar.Found.gap`: what is found is a gap and the runes of its item;
* `Lexer.tiles_results`: the results of every text tile it.
-/

namespace LexStream

open Grammar

/-- The runes `gap` that may stand between an `item` and the one before it.  They are blanks, and
before a point or an exponent mark that is `illegal` they are blanks and one `numeral` that holds
this mark. -/
def Item.Gap (item : Item) (gap : List Char) : Prop :=
  if item.token = .illegal ∧ (item.text = "." ∨ item.text = "e") then
    ∃ blanks numeral, gap = blanks ++ numeral ∧ (∀ r ∈ blanks, Rune.isBlank r = true) ∧
      Decimal numeral ∧ item.text.toList ⊆ numeral
  else ∀ r ∈ gap, Rune.isBlank r = true

namespace Item.Gap

variable {item : Item} {gap : List Char}

theorem of_token_ne (hne : item.token ≠ .illegal) (h : ∀ r ∈ gap, Rune.isBlank r = true) :
    item.Gap gap := by
  unfold Gap
  rw [if_neg fun hillegal => hne hillegal.1]
  exact h

theorem of_text_ne (hpoint : item.text ≠ ".") (hexponent : item.text ≠ "e")
    (h : ∀ r ∈ gap, Rune.isBlank r = true) : item.Gap gap := by
  unfold Gap
  rw [if_neg fun hmark => hmark.2.elim hpoint hexponent]
  exact h

end Item.Gap

namespace Lexer

/-- The results of a scan lie in the text, of which the runes `before` are passed and the runes in
the second place are left. -/
inductive Tiles : List Char → List Char → List LexResult → Prop
  /-- Only `blanks` are left, and `eof` stands behind the last rune. -/
  | eof {before blanks : List Char} (hblank : ∀ r ∈ blanks, Rune.isBlank r = true) :
      Tiles before blanks [.ok ⟨.after (before ++ blanks), .eof, ""⟩]
  /-- A fatal error comes last. -/
  | error {before left : List Char} {e : LexError} : Tiles before left [.error e]
  /-- An `item` spells the runes at its position, behind a `gap`, and the others lie behind it. -/
  | item {before gap behind : List Char} {item : Item} {results : List LexResult}
      (hgap : item.Gap gap) (htoken : item.token ≠ .eof)
      (hpos : item.pos = .after (before ++ gap))
      (hrest : Tiles (before ++ (gap ++ item.text.toList)) behind results) :
      Tiles before (gap ++ item.text.toList ++ behind) (.ok item :: results)

end Lexer

/-! ### What is found -/

/-- A stray rune `r` is no point, which is an operator, and no letter `e`. -/
theorem stray_ne_mark {r : Char} (hoperator : ∀ row ∈ Token.operators, row.1.toList ≠ [r])
    (hname : Rune.isNameRune r = false) : r ≠ '.' ∧ r ≠ 'e' := by
  constructor
  · rintro rfl
    exact hoperator (".", .dot) (by decide) rfl
  · rintro rfl
    have hletter : Rune.isNameRune 'e' = true := by decide
    rw [hletter] at hname
    cases hname

/-- Behind the blanks `bs`, what is `Found` is a gap and the runes of its item, which stands behind
the gap. -/
theorem Grammar.Found.gap {start : Position} {bs rs : List Char} {found : Finding}
    (hblank : ∀ r ∈ bs, Rune.isBlank r = true) (h : Found start rs found) :
    ∃ dropped, rs = dropped ++ found.item.text.toList ∧
      found.item.pos = start.advanceAll dropped ∧ found.item.Gap (bs ++ dropped) := by
  cases h with
  | @lexeme rs token h =>
    refine ⟨[], ?_, rfl, .of_token_ne h.token_ne.2 ?_⟩
    · exact String.toList_ofList.symm
    · rwa [List.append_nil]
  | @repeatedMark rs mark h hmark hmem =>
    refine ⟨rs, ?_, rfl, ?_⟩
    · exact congrArg (rs ++ ·) (String.toList_singleton _).symm
    · have htext : String.singleton mark = "." ∨ String.singleton mark = "e" := by
        rcases hmark with rfl | rfl
        · exact .inl rfl
        · exact .inr rfl
      unfold Item.Gap
      rw [if_pos ⟨rfl, htext⟩]
      refine ⟨bs, rs, rfl, hblank, h, ?_⟩
      intro r hr
      have hr : r ∈ (String.singleton mark).toList := hr
      rw [String.toList_singleton, List.mem_singleton] at hr
      exact hr ▸ hmem
  | @stray r hspace hoperator hsentinel hcolon hname =>
    obtain ⟨hpoint, hexponent⟩ := stray_ne_mark hoperator hname
    have hinj : ∀ {q : Char}, String.singleton r = String.singleton q → r = q := by
      intro q hq
      have hlist := congrArg String.toList hq
      rw [String.toList_singleton, String.toList_singleton] at hlist
      exact List.singleton_injective hlist
    refine ⟨[], ?_, rfl, .of_text_ne ?_ ?_ ?_⟩
    · exact (String.toList_singleton _).symm
    · exact fun heq => hpoint (hinj (heq.trans rfl))
    · exact fun heq => hexponent (hinj (heq.trans rfl))
    · rwa [List.append_nil]

/-! ### What is left of a text -/

namespace Scanner

/-- In front of the runes `left`, an item that is found stands behind blanks `bs`, and the text goes
on behind it. -/
theorem finds_item_of_holds {c c' : Cursor Source} {left : List Char} {found : Finding}
    (hline : 1 ≤ c.position.line) (hc : c.Holds left) (h : item.run c = (.ok found, c')) :
    ∃ bs, (∀ r ∈ bs, Rune.isBlank r = true) ∧
      ((left = bs ∧ found = .ofToken (c.position.advanceAll bs) .eof "") ∨
        ∃ rs behind, left = bs ++ rs ++ behind ∧ c'.Holds behind ∧
          c'.position = c.position.advanceAll (bs ++ rs) ∧
          Found (c.position.advanceAll bs) rs found) := by
  obtain ⟨bs, c₁, hblank, hp, hstands⟩ := finds_item hline h
  obtain ⟨left₁, rfl, hc₁⟩ := hc.passes hp
  refine ⟨bs, hblank, ?_⟩
  cases hstands with
  | eof hends hnext hfound =>
    obtain ⟨hleft, -⟩ := hc₁.ends hends
    left
    rw [hleft, hnext, hfound, hp.position]
    exact ⟨by simp, rfl⟩
  | found hfinds =>
    obtain ⟨rs, hp', hfound⟩ := hfinds
    obtain ⟨behind, rfl, hc'⟩ := hc₁.passes hp'
    refine .inr ⟨rs, behind, (List.append_assoc _ _ _).symm, hc', (hp.trans hp').position, ?_⟩
    rw [← hp.position]
    exact hfound

end Scanner

theorem Cursor.holds_ofString (text : String) : (Lexer.ofString text).cursor.Holds text.toList :=
  ⟨text.toList, Source.spells_ofBytes _, rfl⟩

namespace Lexer

/-- The results of every `text` tile it, as `Tiles` says. -/
theorem tiles_results (text : String) : Tiles [] text.toList (ofString text).results := by
  have htiles : ∀ before left, (ofString text).cursor.Holds left →
      (ofString text).cursor.position = .after before →
      Tiles before left (ofString text).results := by
    have hline : ∀ {before}, 1 ≤ (Position.after before).line :=
      Position.start.line_le_line_advanceAll _
    refine results_induction (P := fun c rs => ∀ before left, c.Holds left →
      c.position = .after before → Tiles before left rs) ?_ ?_ ?_ rfl
    -- The end is found behind the blanks that are left.
    · intro c c' found h heof before left hc hpos
      obtain ⟨bs, hblank, ⟨rfl, rfl⟩ | ⟨rs, behind, -, -, -, hfound⟩⟩ :=
        Scanner.finds_item_of_holds (hpos ▸ hline) hc h
      · rw [hpos, Position.after_advanceAll]
        exact .eof hblank
      · exact absurd heof hfound.token_ne_eof
    · intro c c' e _ before left _ _
      exact .error
    · intro c c' found results h hne ih before left hc hpos
      obtain ⟨bs, hblank, ⟨-, rfl⟩ | ⟨rs, behind, rfl, hc', hpos', hfound⟩⟩ :=
        Scanner.finds_item_of_holds (hpos ▸ hline) hc h
      · exact absurd rfl hne
      · -- The blanks and what is dropped are the gap before the item.
        obtain ⟨dropped, rfl, hitem, hgap⟩ := hfound.gap hblank
        rw [← List.append_assoc bs]
        refine .item hgap hne ?_ (ih _ _ hc' ?_)
        · rw [hitem, hpos, Position.after_advanceAll, Position.after_advanceAll,
            List.append_assoc]
        · rw [hpos', hpos, Position.after_advanceAll, List.append_assoc bs]
  exact htiles [] text.toList (Cursor.holds_ofString text) rfl

end Lexer

end LexStream
