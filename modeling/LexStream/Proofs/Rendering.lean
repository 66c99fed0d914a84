import LexStream.Proofs.Recognition
import LexStream.Proofs.Tiling

/-!
# Texts that are rendered anew

The texts of items, joined by blanks, are scanned back to items of the same kinds and texts.  Which
blanks stand between them, and how many, does not matter, as long as there is one between any two.

Main facts:

* `Lexer.lexeme_of_mem`: an item that is neither illegal nor the end of a text spells a token;
* `Lexer.results_of_spaced`: the results of tokens that stand apart are these tokens and the end;
* `tokenize_rendering`: a rendering of the items of a text has the same items.
-/

namespace LexStream

open Grammar

/-! ### Renderings -/

/-- The texts stand one behind the other, each with a `gap` of blanks behind it, and with one blank
at least where another text follows. -/
inductive Spaced : List String → List Char → Prop
  | nil : Spaced [] []
  | cons {text : String} {texts : List String} {gap rs : List Char}
      (hgap : ∀ r ∈ gap, Rune.isBlank r = true) (hne : texts ≠ [] → gap ≠ [])
      (h : Spaced texts rs) : Spaced (text :: texts) (text.toList ++ gap ++ rs)

/-- The `texts` in order, with blanks between any two of them; blanks may also stand in front of the
first one and behind the last one. -/
def Renders (texts : List String) (rendering : String) : Prop :=
  ∃ lead rs, rendering.toList = lead ++ rs ∧ (∀ r ∈ lead, Rune.isBlank r = true) ∧ Spaced texts rs

/-- What an item is, wherever it stands: its `token` and its `text`. -/
def Item.spelling (item : Item) : Token × String :=
  (item.token, item.text)

namespace Lexer

/-! ### The items of a text -/

/-- An item that is neither `illegal` nor `eof` spells a token (`Lexeme`). -/
theorem lexeme_of_mem {text : String} {item : Item} (hmem : .ok item ∈ (ofString text).results)
    (hend : item.token ≠ .eof) (hlegal : item.token ≠ .illegal) :
    Lexeme item.text.toList item.token := by
  have hall : ∀ left, (ofString text).cursor.Holds left →
      1 ≤ (ofString text).cursor.position.line → .ok item ∈ (ofString text).results →
      Lexeme item.text.toList item.token := by
    refine results_induction (l := ofString text) (P := fun c results => ∀ left, c.Holds left →
      1 ≤ c.position.line → .ok item ∈ results → Lexeme item.text.toList item.token) ?_ ?_ ?_ rfl
    · intro c c' found h heof left hc hline hmem
      obtain rfl : item = found.item := by simpa using hmem
      exact absurd heof hend
    · intro c c' e h left hc hline hmem
      simp at hmem
    · intro c c' found results h hne ih left hc hline hmem
      obtain ⟨bs, -, ⟨-, rfl⟩ | ⟨rs, behind, rfl, hc', hpos', hfound⟩⟩ :=
        Scanner.finds_item_of_holds hline hc h
      · exact absurd rfl hne
      rcases List.mem_cons.1 hmem with heq | hmem
      · obtain rfl : item = found.item := Except.ok.inj heq
        cases hfound with
        | @lexeme rs token h =>
          show Lexeme (String.ofList rs).toList token
          rwa [String.toList_ofList]
        | repeatedMark => exact absurd rfl hlegal
        | stray => exact absurd rfl hlegal
      · have hline' : 1 ≤ c'.position.line :=
          hpos' ▸ Nat.le_trans hline (Position.line_le_line_advanceAll _ _)
        exact ih behind hc' hline' hmem
  exact hall text.toList (Cursor.holds_ofString text) (Nat.le_refl 1) hmem

/-! ### Tokens that stand apart -/

/-- Where another text follows, the `gap` starts with a blank, so a token in front of it stands
`Apart`. -/
theorem apart_of_spaced {texts : List String} {gap rs : List Char}
    (hgap : ∀ r ∈ gap, Rune.isBlank r = true) (hne : texts ≠ [] → gap ≠ [])
    (h : Spaced texts rs) : Apart (gap ++ rs) := by
  intro r hr
  cases gap with
  | cons q gap =>
    obtain rfl : q = r := Option.some.inj hr
    exact hgap q List.mem_cons_self
  | nil =>
    cases h with
    | nil => cases hr
    | cons => exact absurd rfl (hne (by simp))

/-- The results of tokens that stand apart by `Spaced` are these tokens and `eof`. -/
theorem results_of_spaced {spellings : List (Token × String)} {lead rs : List Char}
    {l : Lexer Source} (hlexeme : ∀ s ∈ spellings, Lexeme s.2.toList s.1)
    (hlead : ∀ r ∈ lead, Rune.isBlank r = true) (hspaced : Spaced (spellings.map (·.2)) rs)
    (hopen : l.finished = false) (hc : l.cursor.Holds (lead ++ rs)) :
    ∃ items : List Item, l.results = items.map .ok ∧
      items.map Item.spelling = spellings ++ [(.eof, "")] := by
  induction spellings generalizing lead rs l with
  | nil =>
    cases hspaced
    rw [List.append_nil] at hc
    obtain ⟨c', hitem⟩ := Scanner.item_of_blanks hlead hc
    refine ⟨[⟨l.cursor.position.advanceAll lead, .eof, ""⟩], ?_, rfl⟩
    rw [results_of_open hopen, nextItem_of_ok hopen hitem, results_of_finished rfl]
    rfl
  | cons s spellings ih =>
    cases hspaced with
    | @cons _ _ gap rs hgap hne hspaced =>
      have hs := hlexeme s List.mem_cons_self
      rw [List.append_assoc, ← List.append_assoc] at hc
      obtain ⟨c', hitem, hc'⟩ := Scanner.item_of_lexeme hs hlead
        (apart_of_spaced hgap hne hspaced) hc
      -- The gap behind this token stands in front of the next one.
      obtain ⟨items, hresults, hspellings⟩ := ih
        (fun q hq => hlexeme q (List.mem_cons_of_mem s hq)) hgap hspaced
        (l := ⟨c', l.cursor.position.advanceAll lead, l.produced + 1, false⟩) rfl hc'
      have hnext : l.nextItem = (.ok ⟨l.cursor.position.advanceAll lead, s.1, s.2⟩,
          ⟨c', l.cursor.position.advanceAll lead, l.produced + 1, false⟩) := by
        rw [nextItem_of_ok hopen hitem, String.ofList_toList]
        simp [Finding.ofToken, hs.token_ne.1]
      refine ⟨⟨l.cursor.position.advanceAll lead, s.1, s.2⟩ :: items, ?_, ?_⟩
      · rw [results_of_open hopen, hnext, hresults]
        rfl
      · rw [List.map_cons, hspellings]
        rfl

end Lexer

/-- The texts of the `items` of a `text`, joined by blanks to a `rendering`, have items of the same
kinds and texts.  Where an item stands is left out of `Item.spelling`. -/
theorem tokenize_rendering {text rendering : String} {items : List Item}
    (h : tokenize text = .ok items) (hlegal : ∀ item ∈ items, item.token ≠ .illegal)
    (hrender : Renders ((items.filter (·.token ≠ .eof)).map Item.text) rendering) :
    ∃ items', tokenize rendering = .ok items' ∧
      items'.map Item.spelling =
        (items.filter (·.token ≠ .eof)).map Item.spelling ++ [(.eof, "")] := by
  rw [tokenize_eq_ok_iff] at h
  have hlexeme : ∀ s ∈ (items.filter (·.token ≠ .eof)).map Item.spelling,
      Lexeme s.2.toList s.1 := by
    intro s hs
    obtain ⟨item, hitem, rfl⟩ := List.mem_map.1 hs
    obtain ⟨hmem, hend⟩ := List.mem_filter.1 hitem
    have hresult : .ok item ∈ (Lexer.ofString text).results := h ▸ List.mem_map_of_mem hmem
    exact Lexer.lexeme_of_mem hresult (by simpa using hend) (hlegal item hmem)
  obtain ⟨lead, rs, hrunes, hlead, hspaced⟩ := hrender
  have hc := Cursor.holds_ofString rendering
  rw [hrunes] at hc
  obtain ⟨items', hresults, hspellings⟩ := Lexer.results_of_spaced (l := .ofString rendering)
    hlexeme hlead (by rwa [List.map_map]) rfl hc
  exact ⟨items', tokenize_eq_ok_iff.2 hresults, hspellings⟩

/-- Items that stand close together, one of them a template over two lines, are rendered with blanks
of several kinds: `tokenize_rendering` at a text and a `rendering` of it. -/
theorem tokenize_rendering_apart :
    tokenize "a:=0.+\x60\n \x60" = .ok [⟨⟨1, 0⟩, .ident, "a"⟩, ⟨⟨1, 1⟩, .define, ":="⟩,
        ⟨⟨1, 3⟩, .float, "0."⟩, ⟨⟨1, 5⟩, .add, "+"⟩, ⟨⟨1, 6⟩, .template, "\x60\n \x60"⟩,
        ⟨⟨2, 2⟩, .eof, ""⟩] ∧
      (∀ item ∈ [⟨⟨1, 0⟩, .ident, "a"⟩, ⟨⟨1, 1⟩, .define, ":="⟩, ⟨⟨1, 3⟩, .float, "0."⟩,
        ⟨⟨1, 5⟩, .add, "+"⟩, ⟨⟨1, 6⟩, .template, "\x60\n \x60"⟩, (⟨⟨2, 2⟩, .eof, ""⟩ : Item)],
        item.token ≠ .illegal) ∧
      Renders ["a", ":=", "0.", "+", "\x60\n \x60"] " a := \t0. + \x60\n \x60" ∧
      ∃ items', tokenize " a := \t0. + \x60\n \x60" = .ok items' ∧
        items'.map Item.spelling = [(.ident, "a"), (.define, ":="), (.float, "0."), (.add, "+"),
          (.template, "\x60\n \x60"), (.eof, "")] := by
  have hitems : tokenize "a:=0.+\x60\n \x60" = .ok [⟨⟨1, 0⟩, .ident, "a"⟩, ⟨⟨1, 1⟩, .define, ":="⟩,
      ⟨⟨1, 3⟩, .float, "0."⟩, ⟨⟨1, 5⟩, .add, "+"⟩, ⟨⟨1, 6⟩, .template, "\x60\n \x60"⟩,
      ⟨⟨2, 2⟩, .eof, ""⟩] := by decide +kernel
  have hrender : Renders ["a", ":=", "0.", "+", "\x60\n \x60"] " a := \t0. + \x60\n \x60" := by
    refine ⟨[' '], "a := \t0. + \x60\n \x60".toList, by decide,
      List.all_eq_true.1 (by decide), ?_⟩
    refine @Spaced.cons _ _ [' '] _ (List.all_eq_true.1 (by decide)) (by simp) ?_
    refine @Spaced.cons _ _ [' ', '\t'] _ (List.all_eq_true.1 (by decide)) (by simp) ?_
    refine @Spaced.cons _ _ [' '] _ (List.all_eq_true.1 (by decide)) (by simp) ?_
    refine @Spaced.cons _ _ [' '] _ (List.all_eq_true.1 (by decide)) (by simp) ?_
    exact @Spaced.cons _ _ [] _ (List.all_eq_true.1 (by decide)) (by simp) .nil
  exact ⟨hitems, by decide, hrender, tokenize_rendering hitems (by decide) hrender⟩

end LexStream
