import LexStream.Proofs.Locality
import LexStream.Proofs.Tiling

/-!
# Scans that start again

From one item to the next a lexer keeps nothing but its position.  Behind every item it goes on as a
fresh lexer in front of the rest of the text does, with all positions moved; and the items given so
far depend on the text only up to the rune behind the last of them.

Main facts:

* `Lexer.Faces.requests`: what a row of requests that gives items has passed, and what it gives in
  front of another text that starts with the same runes and goes on with the same one;
* `Lexer.results_behind`: the results behind some items are those of a fresh lexer, moved;
* `Lexer.requests_eq_of_head?`: texts that agree up to the rune behind some items have these items.
-/

namespace LexStream

/-- A result in a text that starts at `base`. -/
def LexResult.translate (base : Position) : LexResult → LexResult
  | .ok item => .ok (item.translate base)
  | .error e => .error (e.translate base)

namespace Lexer

/-- The answers to `k` requests, and the lexer behind them. -/
def requests {σ : Type} [ByteSource σ] (l : Lexer σ) : Nat → List LexResult × Lexer σ
  | 0 => ([], l)
  | k + 1 => (l.nextItem.1 :: (l.nextItem.2.requests k).1, (l.nextItem.2.requests k).2)

/-- The lexer is open, stands at `p`, and has the runes `rs` of a text to go. -/
structure Faces (l : Lexer Source) (p : Position) (rs : List Char) : Prop where
  isOpen : l.finished = false
  cursor : l.cursor.Faces p rs

theorem faces_ofString (text : String) : (ofString text).Faces .start text.toList :=
  ⟨rfl, Cursor.holds_ofString text, rfl, Nat.le_refl 1⟩

namespace Faces

variable {base p : Position} {l m : Lexer Source} {text : List Char}

/-! ### Requests -/

/-- An open lexer that gives an `item` has found it by `Scanner.item`. -/
theorem exists_found (h : l.Faces p text) {item : Item} (hitem : l.nextItem.1 = .ok item) :
    ∃ found c, Scanner.item.run l.cursor = (.ok found, c) ∧ found.item = item := by
  match hrun : Scanner.item.run l.cursor with
  | (.ok found, c) =>
    rw [nextItem_of_ok h.isOpen hrun] at hitem
    exact ⟨found, c, rfl, Except.ok.inj hitem⟩
  | (.error e, c) =>
    rw [nextItem_of_error h.isOpen hrun] at hitem
    cases hitem

theorem nextItem (base : Position) (h : l.Faces p text) {item : Item}
    (hitem : l.nextItem.1 = .ok item) (hne : item.token ≠ .eof) :
    ∃ us rest, text = us ++ rest ∧ l.nextItem.2.Faces (p.advanceAll us) rest ∧
      ∀ rest' (m : Lexer Source), rest'.head? = rest.head? →
        m.Faces (base.translate p) (us ++ rest') →
        m.nextItem.1 = .ok (item.translate base) ∧
          m.nextItem.2.Faces (base.translate (p.advanceAll us)) rest' := by
  obtain ⟨found, c, hrun, rfl⟩ := h.exists_found hitem
  obtain ⟨us, rest, rfl, hc, hgives⟩ := (Scan.Local.item base).ok h.cursor hrun
  refine ⟨us, rest, rfl, ?_, fun rest' m hhead hm => ?_⟩
  · rw [nextItem_of_ok h.isOpen hrun]
    exact ⟨by simpa using hne, hc⟩
  · obtain ⟨d, hrun', hd⟩ := hgives rest' hhead m.cursor hm.cursor
    rw [nextItem_of_ok hm.isOpen hrun', base.translate_advanceAll h.cursor.one_le_line]
    refine ⟨rfl, ?_, hd⟩
    have htoken : (found.translate base).item.token ≠ .eof := hne
    simpa using htoken

/-- A row of `k` requests that gives `items` passes some runes `us`, and gives the same items in
front of these runes wherever they stand, moved to `base`, if the rune behind them is the same. -/
theorem requests (base : Position) (h : l.Faces p text) {k : Nat} {items : List Item}
    (hitems : (l.requests k).1 = items.map .ok) (hne : ∀ item ∈ items, item.token ≠ .eof) :
    ∃ us rest, text = us ++ rest ∧ (l.requests k).2.Faces (p.advanceAll us) rest ∧
      ∀ rest' (m : Lexer Source), rest'.head? = rest.head? →
        m.Faces (base.translate p) (us ++ rest') →
        (m.requests k).1 = (items.map (·.translate base)).map .ok ∧
          (m.requests k).2.Faces (base.translate (p.advanceAll us)) rest' := by
  induction k generalizing l p text items with
  | zero =>
    obtain rfl : items = [] := List.map_eq_nil_iff.1 hitems.symm
    exact ⟨[], text, rfl, h, fun rest' m _ hm => ⟨rfl, hm⟩⟩
  | succ k ih =>
    cases items with
    | nil => cases hitems
    | cons item items =>
      obtain ⟨hfirst, hothers⟩ := List.cons.inj hitems
      obtain ⟨us, rest, rfl, hl, hmoved⟩ :=
        h.nextItem base hfirst (hne item List.mem_cons_self)
      obtain ⟨vs, rest, rfl, hl', hmoved'⟩ :=
        ih hl hothers fun i hi => hne i (List.mem_cons_of_mem item hi)
      rw [← Position.advanceAll_append] at hl' hmoved'
      refine ⟨us ++ vs, rest, (List.append_assoc us vs rest).symm, hl', fun rest' m hhead hm => ?_⟩
      rw [List.append_assoc] at hm
      have hnext : (vs ++ rest').head? = (vs ++ rest).head? := by
        rw [List.head?_append, List.head?_append, hhead]
      obtain ⟨hgiven, hm'⟩ := hmoved (vs ++ rest') m hnext hm
      obtain ⟨hgiven', hm''⟩ := hmoved' rest' _ hhead hm'
      refine ⟨?_, hm''⟩
      rw [List.map_cons, List.map_cons, ← hgiven, ← hgiven']
      rfl

/-! ### Results -/

/-- Lexers `l` and `m` in front of one `text` have the same results, moved to `base`, whatever is in
their lookahead and their buffers. -/
theorem results (h : l.Faces p text) (hm : m.Faces (base.translate p) text) :
    m.results = l.results.map (LexResult.translate base) := by
  -- The induction is on the results of `l`, so where it stands and the other lexer vary.
  have hmoved : ∀ p text, l.cursor.Faces p text → ∀ m : Lexer Source,
      m.Faces (base.translate p) text →
      m.results = l.results.map (LexResult.translate base) := by
    refine results_induction (P := fun c rs => ∀ p text, c.Faces p text → ∀ m : Lexer Source,
      m.Faces (base.translate p) text → m.results = rs.map (LexResult.translate base))
      ?_ ?_ ?_ h.isOpen
    · intro c c' found hrun heof p text hc m hm
      obtain ⟨us, rest, rfl, hc', hgives⟩ := (Scan.Local.item base).ok hc hrun
      obtain ⟨d, hrun', -⟩ := hgives rest rfl m.cursor hm.cursor
      have hend : (found.translate base).item.token = .eof := heof
      rw [results_of_eof hm.isOpen hrun' hend]
      rfl
    · intro c c' e hrun p text hc m hm
      obtain ⟨d, hrun'⟩ := (Scan.Local.item base).error hc hrun m.cursor hm.cursor
      rw [results_of_error hm.isOpen hrun']
      rfl
    · intro c c' found rs hrun hne ih p text hc m hm
      obtain ⟨us, rest, rfl, hc', hgives⟩ := (Scan.Local.item base).ok hc hrun
      obtain ⟨d, hrun', hd⟩ := hgives rest rfl m.cursor hm.cursor
      rw [← base.translate_advanceAll hc.one_le_line] at hd
      have hmore : (found.translate base).item.token ≠ .eof := hne
      rw [results_of_open hm.isOpen, nextItem_of_ok hm.isOpen hrun',
        ih _ rest hc' _ ⟨by simpa using hmore, hd⟩]
      rfl
  exact hmoved p text h.cursor m hm

end Faces

/-! ### Behind some items -/

/-- Nothing but the position is kept from one item to the next.  When `k` requests have given items,
a first part of the text is passed, and the results to come are those of a fresh lexer on the rest,
moved to where the rest starts. -/
theorem results_behind (text : String) (k : Nat) (items : List Item)
    (hitems : ((ofString text).requests k).1 = items.map .ok)
    (hne : ∀ item ∈ items, item.token ≠ .eof) :
    let l := ((ofString text).requests k).2
    (∃ p r, text.toList = p ++ r ∧ l.cursor.Holds r) ∧
      ∀ p r, text.toList = p ++ r → l.cursor.Holds r →
        l.position = .after p ∧
          l.results =
            (ofString (String.ofList r)).results.map (LexResult.translate l.position) := by
  intro l
  obtain ⟨us, rest, htext, hl, -⟩ := (faces_ofString text).requests .start hitems hne
  refine ⟨⟨us, rest, htext, hl.cursor.holds⟩, fun p r hsplit hholds => ?_⟩
  obtain rfl := hl.cursor.holds.unique hholds
  obtain rfl := List.append_cancel_right (htext.symm.trans hsplit)
  have hpos : l.position = .after us := hl.cursor.position
  refine ⟨hpos, ?_⟩
  have hfresh := faces_ofString (String.ofList rest)
  rw [String.toList_ofList] at hfresh
  refine hfresh.results ?_
  rw [Position.translate_start, hpos]
  exact hl

/-- Behind a repeated mark the lexer `l` goes on in the middle of a numeral, and on another line. -/
theorem results_behind_mark :
    ((ofString "a\n 1.2.3 \"b").requests 3).1 =
        [⟨⟨1, 0⟩, .ident, "a"⟩, ⟨⟨1, 1⟩, .newline, "\n"⟩, ⟨⟨2, 4⟩, .illegal, "."⟩].map .ok ∧
      let l := ((ofString "a\n 1.2.3 \"b").requests 3).2
      (∃ p r, "a\n 1.2.3 \"b".toList = p ++ r ∧ l.cursor.Holds r) ∧
        ∀ p r, "a\n 1.2.3 \"b".toList = p ++ r → l.cursor.Holds r →
          l.position = .after p ∧
            l.results =
              (ofString (String.ofList r)).results.map (LexResult.translate l.position) :=
  ⟨by decide +kernel, results_behind "a\n 1.2.3 \"b" 3
    [⟨⟨1, 0⟩, .ident, "a"⟩, ⟨⟨1, 1⟩, .newline, "\n"⟩, ⟨⟨2, 4⟩, .illegal, "."⟩] (by decide +kernel)
    (by decide)⟩

/-- One rune behind them decides the items.  Texts `s` and `s'` that start with the same runes `p`
and agree in the rune behind these, or both end there, have the same `items` up to there. -/
theorem requests_eq_of_head? (s s' : String) (p r r' : List Char) (hs : s.toList = p ++ r)
    (hs' : s'.toList = p ++ r') (hhead : r.head? = r'.head?) (k : Nat) (items : List Item)
    (hitems : ((ofString s).requests k).1 = items.map .ok)
    (hne : ∀ item ∈ items, item.token ≠ .eof)
    (hpassed : ((ofString s).requests k).2.cursor.Holds r) :
    ((ofString s').requests k).1 = items.map .ok ∧
      ((ofString s').requests k).2.cursor.Holds r' := by
  obtain ⟨us, rest, htext, hl, hmoved⟩ := (faces_ofString s).requests .start hitems hne
  obtain rfl := hl.cursor.holds.unique hpassed
  obtain rfl := List.append_cancel_right (htext.symm.trans hs)
  have hm := faces_ofString s'
  rw [hs'] at hm
  obtain ⟨hgiven, hm'⟩ := hmoved r' (ofString s') hhead.symm hm
  refine ⟨?_, hm'.cursor.holds⟩
  rw [hgiven]
  simp

/-- The string behind the second text has no end, and `requests_eq_of_head?` applies all the
same. -/
theorem requests_eq_of_head?_unterminated :
    ((ofString "a<< \"b\"").requests 2).1 =
        [⟨⟨1, 0⟩, .ident, "a"⟩, ⟨⟨1, 1⟩, .shiftLeft, "<<"⟩].map .ok ∧
      ((ofString "a<< \"b\"").requests 2).2.cursor.Holds [' ', '"', 'b', '"'] ∧
      ((ofString "a<< \"b").requests 2).1 =
        [⟨⟨1, 0⟩, .ident, "a"⟩, ⟨⟨1, 1⟩, .shiftLeft, "<<"⟩].map .ok ∧
      ((ofString "a<< \"b").requests 2).2.cursor.Holds [' ', '"', 'b'] := by
  have hitems : ((ofString "a<< \"b\"").requests 2).1 =
      [⟨⟨1, 0⟩, .ident, "a"⟩, ⟨⟨1, 1⟩, .shiftLeft, "<<"⟩].map .ok := by
    decide +kernel
  have hpassed : ((ofString "a<< \"b\"").requests 2).2.cursor.Holds [' ', '"', 'b', '"'] :=
    ⟨['"', 'b', '"'], ⟨0, by decide +kernel⟩, by decide +kernel⟩
  exact ⟨hitems, hpassed, requests_eq_of_head? "a<< \"b\"" "a<< \"b" ['a', '<', '<']
    [' ', '"', 'b', '"'] [' ', '"', 'b'] (by decide) (by decide) rfl 2 _ hitems (by decide) hpassed⟩

end Lexer

end LexStream
