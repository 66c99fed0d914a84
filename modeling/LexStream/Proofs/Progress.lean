import LexStream.Proofs.Results
import LexStream.Proofs.Tiling

/-!
# Positions ascend

Whatever a reader gives, the results of a scan stand at ascending positions.  An item has at least
one rune behind the position where it stands, so the cursor comes after it, and the next result
stands nowhere before the cursor.

Main facts:

* `Scanner.position_item`, `Scanner.position_item_error`: where one scan of an item reports;
* `Lexer.Ordered.nextItem`: a request keeps the cursor behind the last item;
* `Lexer.ascending_results`: the results of every reader ascend, and no request goes back.
-/

namespace LexStream

open Grammar

/-- The position that a result points at, if it is no `cancelled` scan. -/
def LexResult.position? : LexResult → Option Position
  | .ok item => some item.pos
  | .error e => e.position?

theorem Grammar.Found.text_ne_nil {start : Position} {rs : List Char} {found : Finding}
    (h : Found start rs found) : found.item.text.toList ≠ [] := by
  cases h with
  | lexeme h =>
    show (String.ofList rs).toList ≠ []
    rw [String.toList_ofList]
    exact h.ne_nil
  | @repeatedMark rs mark =>
    show (String.singleton mark).toList ≠ []
    simp
  | @stray r =>
    show (String.singleton r).toList ≠ []
    simp

/-! ### One item -/

namespace Scanner

variable {σ : Type} [ByteSource σ] {c c' : Cursor σ} {found : Finding} {e : LexError}

/-- An item stands at the cursor or behind it, and the cursor moves behind the item unless that is
`eof`. -/
theorem position_item (hline : 1 ≤ c.position.line) (h : item.run c = (.ok found, c')) :
    (∃ us, found.item.pos = c.position.advanceAll us) ∧
      (found.item.token ≠ .eof → (∃ us, c'.position = c.position.advanceAll us) ∧
        c'.position.isAfter found.item.pos = true) := by
  obtain ⟨bs, c₁, -, hp, hstands⟩ := finds_item hline h
  cases hstands with
  | eof hends hnext hfound =>
    subst hfound
    exact ⟨⟨bs, hp.position⟩, fun hne => absurd rfl hne⟩
  | found hfinds =>
    obtain ⟨rs, hp', hfound⟩ := hfinds
    have hfound : Found c₁.position rs found := hfound
    have hnil : ∀ r ∈ ([] : List Char), Rune.isBlank r = true := by simp
    obtain ⟨dropped, rfl, hpos, -⟩ := hfound.gap hnil
    rw [hp.position] at hpos
    refine ⟨⟨bs ++ dropped, ?_⟩, fun _ => ⟨⟨_, (hp.trans hp').position⟩, ?_⟩⟩
    · rw [hpos, Position.advanceAll_append]
    · rw [hp'.position, hp.position, Position.advanceAll_append, ← hpos]
      exact Position.isAfter_advanceAll _ hfound.text_ne_nil

/-- A fatal error `e` is reported at the cursor or behind it. -/
theorem position_item_error (hline : 1 ≤ c.position.line) (h : item.run c = (.error e, c')) :
    ∃ us, e.position? = some (c.position.advanceAll us) := by
  obtain ⟨bs, c₁, -, hp, hfails⟩ := fails_item hline h
  obtain ⟨us, hus⟩ := hfails.position? rfl
  exact ⟨bs ++ us, by rw [hus, hp.position, Position.advanceAll_append]⟩

end Scanner

/-! ### Requests -/

namespace Lexer

variable {σ : Type} [ByteSource σ] {l l' : Lexer σ}

/-- What the lexer `l` expects of the position `p` of its next result: it comes after the last item,
which stood at `lastPos`. -/
def Expects (l : Lexer σ) (p : Position) : Prop :=
  ∀ last ∈ l.lastPos, p.isAfter last = true

/-- The lexers that can be reached from `l` by requests of either kind, `nextItem` and `next?`. -/
inductive Reaches (l : Lexer σ) : Lexer σ → Prop
  | refl : Reaches l l
  | nextItem {l' : Lexer σ} (h : Reaches l l') : Reaches l l'.nextItem.2
  | next {l' : Lexer σ} (h : Reaches l l') : Reaches l l'.next?.2

/-- While the lexer `l` is open, its cursor has come after the last item. -/
structure Ordered (l : Lexer σ) : Prop where
  one_le_line : l.finished = false → 1 ≤ l.position.line
  expects : l.finished = false → l.Expects l.position

theorem next?_snd (l : Lexer σ) : l.next?.2 = l.nextItem.2 := by
  unfold next?
  cases hopen : l.finished with
  | true => simp [nextItem, step, hopen]
  | false => rfl

namespace Ordered

omit [ByteSource σ] in
theorem ofSource (s : σ) : (Lexer.ofSource s).Ordered where
  one_le_line _ := Nat.le_refl 1
  expects _ last hlast := by cases hlast

/-- An open lexer gives a result that comes after the last item: its position is one that `l`
`Expects`. -/
theorem expects_nextItem (hl : l.Ordered) (hopen : l.finished = false) :
    ∃ p, LexResult.position? l.nextItem.1 = some p ∧ l.Expects p := by
  have hline : 1 ≤ l.cursor.position.line := hl.one_le_line hopen
  have hexpects : ∀ us, l.Expects (l.cursor.position.advanceAll us) :=
    fun us last hlast => Position.isAfter_advanceAll_of_isAfter (hl.expects hopen last hlast) us
  match hitem : Scanner.item.run l.cursor with
  | (.ok found, c) =>
    obtain ⟨⟨us, hus⟩, -⟩ := Scanner.position_item hline hitem
    rw [nextItem_of_ok hopen hitem]
    exact ⟨_, congrArg some hus, hexpects us⟩
  | (.error e, c) =>
    obtain ⟨us, hus⟩ := Scanner.position_item_error hline hitem
    rw [nextItem_of_error hopen hitem]
    exact ⟨_, hus, hexpects us⟩

/-- A request by `nextItem` keeps the cursor behind the last item. -/
theorem nextItem (hl : l.Ordered) : l.nextItem.2.Ordered := by
  cases hopen : l.finished with
  | true =>
    have hsame : l.nextItem.2 = l := by simp [Lexer.nextItem, step, hopen]
    rwa [hsame]
  | false =>
    have hline : 1 ≤ l.cursor.position.line := hl.one_le_line hopen
    match hitem : Scanner.item.run l.cursor with
    | (.ok found, c) =>
      rw [nextItem_of_ok hopen hitem]
      obtain ⟨-, hbehind⟩ := Scanner.position_item hline hitem
      refine ⟨fun hopen' => ?_, fun hopen' last hlast => ?_⟩
      · obtain ⟨⟨us, hus⟩, -⟩ := hbehind (by simpa using hopen')
        show 1 ≤ c.position.line
        rw [hus]
        exact Nat.le_trans hline (Position.line_le_line_advanceAll _ _)
      · obtain rfl : found.item.pos = last := by simpa using hlast
        exact (hbehind (by simpa using hopen')).2
    | (.error e, c) =>
      rw [nextItem_of_error hopen hitem]
      exact ⟨by simp, by simp⟩

theorem reaches (hl : l.Ordered) (h : l.Reaches l') : l'.Ordered := by
  induction h with
  | refl => exact hl
  | nextItem _ ih => exact ih.nextItem
  | next _ ih =>
    rw [next?_snd]
    exact ih.nextItem

end Ordered

/-! ### All results -/

/-- The results point at ascending positions, none of them before the position `here`. -/
def Ascends (here : Position) (results : List LexResult) : Prop :=
  ∃ ps : List Position, results.map LexResult.position? = ps.map some ∧
    ps.Pairwise (fun p q => q.isAfter p = true) ∧ ∀ p ∈ ps, ∃ us, p = here.advanceAll us

/-- The results of an open lexer ascend from its cursor on, as `Ascends` says. -/
theorem ascends_results (hopen : l.finished = false) (hline : 1 ≤ l.cursor.position.line) :
    Ascends l.cursor.position l.results := by
  refine results_induction (P := fun c results => 1 ≤ c.position.line →
    Ascends c.position results) ?_ ?_ ?_ hopen hline
  · intro c c' found h _ hline
    obtain ⟨hpos, -⟩ := Scanner.position_item hline h
    exact ⟨[found.item.pos], rfl, List.pairwise_singleton _ _, by simpa using hpos⟩
  · intro c c' e h hline
    obtain ⟨us, hus⟩ := Scanner.position_item_error hline h
    exact ⟨[c.position.advanceAll us], congrArg ([·]) hus, List.pairwise_singleton _ _,
      by simp⟩
  · intro c c' found results h hne ih hline
    obtain ⟨hpos, hbehind⟩ := Scanner.position_item hline h
    obtain ⟨⟨vs, hvs⟩, hafter⟩ := hbehind hne
    obtain ⟨ps, hps, hpairwise, hreach⟩ :=
      ih (hvs ▸ Nat.le_trans hline (Position.line_le_line_advanceAll _ _))
    refine ⟨found.item.pos :: ps, ?_, List.pairwise_cons.2 ⟨?_, hpairwise⟩, ?_⟩
    · rw [List.map_cons, List.map_cons, hps]
      rfl
    -- Later results stand nowhere before the cursor, which comes after this item.
    · intro q hq
      obtain ⟨us, rfl⟩ := hreach q hq
      exact Position.isAfter_advanceAll_of_isAfter hafter us
    · intro q hq
      rcases List.mem_cons.1 hq with rfl | hq
      · exact hpos
      · obtain ⟨us, rfl⟩ := hreach q hq
        exact ⟨vs ++ us, by rw [hvs, Position.advanceAll_append]⟩

/-- The results of every reader, given by its `events` and a buffer of any `capacity`, point at
ascending positions, and however the results are asked for, an open lexer `l` gives one that comes
after the last item. -/
theorem ascending_results (events : List ReadEvent) (capacity : Nat) :
    (∃ ps : List Position,
        (ofSource (Source.ofEvents events capacity)).results.map LexResult.position? =
          ps.map some ∧ ps.Pairwise fun p q => q.isAfter p = true) ∧
      ∀ l, (ofSource (Source.ofEvents events capacity)).Reaches l → l.finished = false →
        ∃ p, LexResult.position? l.nextItem.1 = some p ∧ l.Expects p := by
  constructor
  · obtain ⟨ps, hps, hpairwise, -⟩ :=
      ascends_results (l := ofSource (Source.ofEvents events capacity)) rfl (Nat.le_refl 1)
    exact ⟨ps, hps, hpairwise⟩
  · intro l hl hopen
    exact ((Ordered.ofSource _).reaches hl).expects_nextItem hopen

end Lexer

end LexStream
