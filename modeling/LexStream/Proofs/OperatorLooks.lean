import LexStream.Proofs.ComingRunes
import LexStream.Proofs.Outcomes

/-!
# What the scan of an operator leaves behind

The scan of an operator looks at the runes ahead, and passes those of the lexeme that it finds.  It
must not be seen otherwise: where no lexeme is found, the runes that come afterwards are the ones
that would have come without it, although some were decoded meanwhile, and although an end that a
source has shown once is forgotten.

`Cursor.Shows c more c'` says that the cursor `c'` has the runes `more` of the source in its
lookahead and is the cursor `c` otherwise.  `Cursor.Rejoins c rs c'` compares what the two give:
asked for one rune after another, `c` gives `rs` and then what `c'` has looked at, and both have
become the same cursor then, or `c` does once it was told that the input ends.

Main facts:

* `Cursor.shows_peekNth`: what a look leaves behind;
* `Scanner.shows_descend`: so does the way down a trie, whose looks end where the input does;
* `Scanner.outcome_operator`: what the scan of an operator gives, passes and reads.
-/

namespace LexStream

open OperatorTrie (Branches standard)

variable {σ : Type} [ByteSource σ]

/-! ### Runes that a source gives at once -/

/-- The next decodings all give a rune, and these are `rs`. -/
inductive Utf8.Draws : σ → List Char → σ → Prop
  | refl (s : σ) : Draws s [] s
  | cons {s s₁ s' : σ} {r : Char} {rs : List Char} (hr : decode s = (.ok (some r), s₁))
      (hrs : Draws s₁ rs s') : Draws s (r :: rs) s'

theorem Utf8.Draws.trans {s s' s'' : σ} {rs rs' : List Char} (h : Draws s rs s')
    (h' : Draws s' rs' s'') : Draws s (rs ++ rs') s'' := by
  induction h with
  | refl s => exact h'
  | cons hr _ ih => exact .cons hr (ih h')

namespace Cursor

/-- The runes `rs` that were looked at come first. -/
theorem delivers_lookahead (s : σ) (caret : Caret) (rs : List Char) :
    Delivers ⟨s, caret, rs⟩ rs ⟨s, caret.advanceAll rs, []⟩ := by
  induction rs generalizing caret with
  | nil => exact .refl _
  | cons r rs ih => exact .cons rfl (ih (caret.advance r))

/-- Behind the runes that were looked at come those, `rs`, that the source gives. -/
theorem delivers_draws {s s' : σ} {rs : List Char} (h : Utf8.Draws s rs s') (caret : Caret) :
    Delivers ⟨s, caret, []⟩ rs ⟨s', caret.advanceAll rs, []⟩ := by
  induction h generalizing caret with
  | refl s => exact .refl _
  | @cons s s₁ s' r rs hr _ ih =>
    have hnext := nextRune_of_nil s caret
    rw [hr] at hnext
    exact .cons hnext (ih (caret.advance r))

/-! ### Looks -/

/-- The runes `more` were decoded and are looked at now; nothing else has happened. -/
structure Shows (c : Cursor σ) (more : List Char) (c' : Cursor σ) : Prop where
  draws : Utf8.Draws c.source more c'.source
  caret : c'.caret = c.caret
  lookahead : c'.lookahead = c.lookahead ++ more

/-- The runes `more` are looked at now, and then the input was seen to end. -/
def ShowsEnd (c : Cursor σ) (more : List Char) (c' : Cursor σ) : Prop :=
  ∃ c₁, c.Shows more c₁ ∧ decode.run c₁ = (.ok none, c')

variable {c c₁ c' : Cursor σ} {more more' : List Char}

namespace Shows

theorem refl (c : Cursor σ) : c.Shows [] c :=
  ⟨.refl _, rfl, (List.append_nil _).symm⟩

theorem trans (h : c.Shows more c₁) (h' : c₁.Shows more' c') : c.Shows (more ++ more') c' where
  draws := h.draws.trans h'.draws
  caret := h'.caret.trans h.caret
  lookahead := by rw [h'.lookahead, h.lookahead, List.append_assoc]

theorem trans_end (h : c.Shows more c₁) (h' : c₁.ShowsEnd more' c') :
    c.ShowsEnd (more ++ more') c' := by
  obtain ⟨c₂, hshows, hend⟩ := h'
  exact ⟨c₂, h.trans hshows, hend⟩

theorem decode {r : Char} (h : Cursor.decode.run c = (.ok (some r), c')) :
    c.Shows [r] { c' with lookahead := c'.lookahead ++ [r] } := by
  obtain ⟨s, hd, rfl⟩ := decode_eq_ok h
  exact ⟨.cons hd (.refl s), rfl, rfl⟩

/-- All runes in the lookahead of `c'` come before the others, also when asked of `c`. -/
theorem delivers (h : c.Shows more c') :
    c.Delivers c'.lookahead ⟨c'.source, c.caret.advanceAll c'.lookahead, []⟩ := by
  have hlooked := delivers_lookahead c.source c.caret c.lookahead
  have hmore := delivers_draws h.draws (c.caret.advanceAll c.lookahead)
  have hcaret : (c.caret.advanceAll c.lookahead).advanceAll more =
      c.caret.advanceAll (c.lookahead ++ more) := (List.foldl_append ..).symm
  rw [h.lookahead, ← hcaret]
  exact hlooked.trans hmore

end Shows

/-- Looking further by `k` runes shows those that it decodes, as many as are asked for or all before
the end. -/
theorem shows_lookFurther {k : Nat} (h : (lookFurther k).run c = (.ok (), c')) :
    ∃ more, (c.Shows more c' ∧ more.length = k) ∨ (c.ShowsEnd more c' ∧ more.length < k) := by
  induction k generalizing c with
  | zero => cases h; exact ⟨[], .inl ⟨.refl _, rfl⟩⟩
  | succ k ih =>
    unfold Scan.run lookFurther at h
    split at h
    next r c₁ hd =>
      have hr := Shows.decode hd
      obtain ⟨more, ⟨hshows, hlen⟩ | ⟨hend, hlen⟩⟩ := ih h
      · exact ⟨r :: more, .inl ⟨hr.trans hshows, congrArg (· + 1) hlen⟩⟩
      · exact ⟨r :: more, .inr ⟨hr.trans_end hend, Nat.succ_lt_succ hlen⟩⟩
    next c₁ hd =>
      cases h
      exact ⟨[], .inr ⟨⟨c, .refl c, hd⟩, Nat.succ_pos k⟩⟩
    next => cases h

/-- A look by `peekNth` shows the runes that it decodes.  Where it meets the end of the input, there
is no rune at the place `n` it looks at. -/
theorem shows_peekNth {n : Nat} {seen : Option Char}
    (h : (peekNth n).run c = (.ok seen, c')) :
    ∃ more, c.Shows more c' ∨ (c.ShowsEnd more c' ∧ seen = none) := by
  unfold Scan.run peekNth at h
  split at h
  next c₁ hl =>
    cases h
    obtain ⟨more, ⟨hshows, -⟩ | ⟨hend, hlen⟩⟩ := shows_lookFurther hl
    · exact ⟨more, .inl hshows⟩
    · refine ⟨more, .inr ⟨hend, ?_⟩⟩
      obtain ⟨c₂, hshows, hd⟩ := hend
      have hlookahead : c'.lookahead = c.lookahead ++ more :=
        (passes_decode_none hd).2.trans hshows.lookahead
      rw [List.getElem?_eq_none_iff, hlookahead, List.length_append]
      omega
  next => cases h

/-! ### The runes to come -/

/-- Asked for one rune after another, the cursor `c` gives `rs` and then the runes that `c'` has
looked at.  Both have become the same cursor then, or become it once `c` was told that the input
ends, as `c'` was before. -/
def Rejoins (c : Cursor σ) (rs : List Char) (c' : Cursor σ) : Prop :=
  ∃ d d', c.Delivers (rs ++ c'.lookahead) d ∧ c'.Delivers c'.lookahead d' ∧
    (d = d' ∨ nextRune.run d = (.ok none, d'))

omit [ByteSource σ] in
/-- Passing the lookahead in two parts, the first by `skip`, leads to one caret. -/
theorem advanceAll_skip {n : Nat} :
    ((c.skip n).caret).advanceAll (c.skip n).lookahead = c.caret.advanceAll c.lookahead := by
  show ((c.caret.advanceAll (c.lookahead.take n)).advanceAll (c.lookahead.drop n)) = _
  unfold Caret.advanceAll
  rw [← List.foldl_append, List.take_append_drop]

/-- Behind looks, the first `n` runes of the lookahead can be passed by `skip`, and `c'.skip n`
rejoins `c`. -/
theorem rejoins_skip (h : c.Shows more c' ∨ c.ShowsEnd more c') (n : Nat) :
    c.Rejoins (c'.lookahead.take n) (c'.skip n) := by
  have hskip := delivers_lookahead c'.source (c'.skip n).caret (c'.skip n).lookahead
  rw [advanceAll_skip] at hskip
  have hlookahead : c'.lookahead.take n ++ (c'.skip n).lookahead = c'.lookahead :=
    List.take_append_drop n c'.lookahead
  unfold Rejoins
  rw [hlookahead]
  rcases h with hshows | ⟨c₁, hshows, hend⟩
  · refine ⟨_, _, hshows.delivers, hskip, .inl ?_⟩
    rw [hshows.caret]
  · -- The end was met once by the look, and is met here by the cursor that has not looked.
    obtain ⟨s, hd, rfl⟩ := decode_eq_ok hend
    refine ⟨_, _, hshows.delivers, hskip, .inr ?_⟩
    rw [nextRune_of_nil, hd, ← hshows.caret]

end Cursor

/-! ### The way down a trie -/

namespace Scanner

variable {b : Branches} {c c' : Cursor σ} {start : Position} {first : Char}

/-- The looks on the way down the branches `b` leave the caret alone, also where one of them
fails. -/
theorem caret_descend (b : Branches) (n : Nat) (best : Option OperatorMatch) (r : Char)
    (c : Cursor σ) : ((b.descend Cursor.peekNth n best r).run c).2.caret = c.caret := by
  induction b generalizing n best r c with
  | nil => rfl
  | node rune token children siblings ihc ihs =>
    unfold Branches.descend
    dsimp only
    split_ifs
    · rfl
    · have hpeek := Cursor.caret_peekNth (n - 1) c
      cases hrun : (Cursor.peekNth (n - 1)).run c with
      | mk seen c₁ =>
        rw [hrun] at hpeek
        cases seen with
        | error e =>
          rw [Scan.run_bind_error hrun]
          exact hpeek
        | ok seen =>
          rw [Scan.run_bind_ok hrun]
          cases seen with
          | none => exact hpeek
          | some next => exact (ihc _ _ next c₁).trans hpeek
    · exact ihs n best r c

/-- The way down shows the runes that it decodes, `more`.  It goes on only where a look has shown a
rune, so it meets the end of the input once at most. -/
theorem shows_descend {n : Nat} {best res : Option OperatorMatch} {r : Char}
    (h : (b.descend Cursor.peekNth n best r).run c = (.ok res, c')) :
    ∃ more, c.Shows more c' ∨ c.ShowsEnd more c' := by
  induction b generalizing n best r c with
  | nil => cases h; exact ⟨[], .inl (.refl _)⟩
  | node rune token children siblings ihc ihs =>
    unfold Branches.descend at h
    dsimp only at h
    split_ifs at h
    · cases h
      exact ⟨[], .inl (.refl _)⟩
    · obtain ⟨seen, c₁, hpeek, hrest⟩ := Scan.run_bind_eq_ok h
      obtain ⟨more, hlook⟩ := Cursor.shows_peekNth hpeek
      cases seen with
      | none =>
        cases hrest
        exact ⟨more, hlook.imp_right And.left⟩
      | some next =>
        have hshows : c.Shows more c₁ := hlook.resolve_right fun hend => by cases hend.2
        obtain ⟨more', hrest⟩ := ihc hrest
        exact ⟨more ++ more', hrest.imp hshows.trans hshows.trans_end⟩
    · exact ihs h

/-! ### The scan -/

/-- No lexeme of `Token.operators` goes over the end of a line. -/
theorem newline_not_mem_operators : ∀ row ∈ Token.operators, '\n' ∉ row.1.toList := by
  decide +kernel

/-- Over runes `rs` without a newline `col` grows, and `line` stays. -/
theorem advanceAll_of_newline_not_mem {rs : List Char} (h : '\n' ∉ rs) (p : Position) :
    p.advanceAll rs = ⟨p.line, p.col + rs.length⟩ := by
  induction rs generalizing p with
  | nil => rfl
  | cons r rs ih =>
    have hr : '\n' ≠ r := fun heq => h (heq ▸ List.mem_cons_self)
    have hrs : '\n' ∉ rs := fun hmem => h (List.mem_cons_of_mem r hmem)
    have hadvance : p.advance r = ⟨p.line, p.col + 1⟩ := if_neg (Ne.symm hr)
    rw [Position.advanceAll_cons, hadvance, ih hrs, List.length_cons, Nat.add_assoc,
      Nat.add_comm 1]

/-- The scan `operator?` leaves nothing but what it finds, whatever was looked at before and
whichever source the runes come from.  Where it finds none, the position is the same and so are the
runes to come.  Where it has `found` one, the text is the lexeme of its kind and what the cursor
goes over, the runes `rs` of the lexeme are looked at already when they are read again and left out,
so that the source is not asked for them, and just these are gone.  Where it fails, the position is
the same. -/
theorem outcome_operator (start : Position) (first : Char) (c : Cursor σ) :
    match (operator? start first).run c with
    | (.ok none, c') =>
      (standard.longestMatch first Cursor.peekNth).run c = (.ok none, c') ∧
        c'.caret = c.caret ∧ c.lookahead <+: c'.lookahead ∧ c.Rejoins [] c'
    | (.ok (some found), c') =>
      ∃ rs c₁, (standard.longestMatch first Cursor.peekNth).run c =
          (.ok (some ⟨found.item.token, rs.length + 1⟩), c₁) ∧
        found.item.pos = start ∧ found.item.token.lexeme? = some found.item.text ∧
        found.item.text.toList = first :: rs ∧ rs.length ≤ c₁.lookahead.length ∧
        (∀ i < rs.length, (Cursor.peekNth i).run c₁ = (.ok rs[i]?, c₁)) ∧
        c' = c₁.skip rs.length ∧ c.Rejoins rs c' ∧
        c'.position = ⟨c.position.line, c.position.col + rs.length⟩
    | (.error e, c') =>
      (standard.longestMatch first Cursor.peekNth).run c = (.error e, c') ∧
        c'.caret = c.caret := by
  have hcaret := caret_descend standard.roots 1 none first c
  match hdescend : (standard.longestMatch first Cursor.peekNth).run c with
  | (.error e, c') =>
    have hrun : (operator? start first).run c = (.error e, c') := Scan.run_bind_error hdescend
    rw [hrun]
    exact ⟨rfl, congrArg (Cursor.caret ·.2) hdescend ▸ hcaret⟩
  | (.ok none, c') =>
    have hrun : (operator? start first).run c = (.ok none, c') := Scan.run_bind_ok hdescend
    obtain ⟨-, hprefix, -⟩ := passes_descend hdescend
    obtain ⟨more, hmore⟩ := shows_descend hdescend
    rw [hrun]
    exact ⟨rfl, congrArg (Cursor.caret ·.2) hdescend ▸ hcaret, hprefix, Cursor.rejoins_skip hmore 0⟩
  | (.ok (some best), c₁) =>
    obtain ⟨rs, text, token, hmem, hruns, rfl, hp, hrun⟩ := run_operator start hdescend
    obtain ⟨more, hmore⟩ := shows_descend hdescend
    -- The runes behind the first one are those that the skip passes, so they are looked at already.
    have htake : c₁.lookahead.take rs.length = rs :=
      ((passes_descend hdescend).1.trans (c₁.passes_skip rs.length)).unique hp
    have hlooked : rs <+: c₁.lookahead := List.prefix_iff_eq_take.2 htake.symm
    have hline : '\n' ∉ rs := fun hnewline =>
      newline_not_mem_operators _ hmem (hruns ▸ List.mem_cons_of_mem first hnewline)
    rw [hrun]
    refine ⟨rs, c₁, rfl, rfl, (Token.lexeme?_eq_some_iff _ _).2 hmem, hruns, hlooked.length_le, ?_,
      rfl, ?_, ?_⟩
    · intro i hi
      have hget : rs[i]? = c₁.lookahead[i]? := by
        conv_lhs => rw [← htake]
        exact List.getElem?_take_of_lt hi
      rw [Cursor.peekNth_of_lt (Nat.lt_of_lt_of_le hi hlooked.length_le), hget]
    · have hrejoins := Cursor.rejoins_skip hmore rs.length
      rwa [htake] at hrejoins
    · rw [hp.position, advanceAll_of_newline_not_mem hline]

end Scanner

end LexStream
