import LexStream.Proofs.Results
import LexStream.Proofs.RuneClasses
import LexStream.Proofs.Tiling

/-!
# Which texts fail

A text is scanned without an error exactly if it falls into pieces: single runes that are no
sentinels, and complete literals.  No piece is a first part of another one, and none is a first part
of a text that starts with an incomplete literal, so a text falls into pieces in at most one way,
and one that does not has exactly one place where an incomplete literal stands behind pieces.

Main facts:

* `Grammar.Piece.eq_of_append_eq`, `Grammar.Piece.not_broken`: pieces cannot be confused;
* `Lexer.scanned_results`: the results of a text are errorless or end in an incomplete literal;
* `tokenize_iff_inPieces`: which texts have tokens, and with which error the others fail.
-/

namespace LexStream

namespace Grammar

/-! ### Incomplete literals by their sentinel -/

namespace Broken

variable {start : Position} {v : List Char} {e e' : LexError}

theorem of_quote (h : Broken start ('"' :: v) e) :
    Never EndsString v ∧ e = .unterminated .string start := by
  generalize hw : '"' :: v = w at h
  cases h with
  | string h => cases hw; exact ⟨h, rfl⟩
  | template => simp at hw
  | tag => simp at hw
  | payload => simp at hw
  | delimiter => simp at hw

theorem of_tick (h : Broken start ('\x60' :: v) e) :
    Never EndsTemplate v ∧ e = .unterminated .template start := by
  generalize hw : '\x60' :: v = w at h
  cases h with
  | string => simp at hw
  | template h => cases hw; exact ⟨h, rfl⟩
  | tag => simp at hw
  | payload => simp at hw
  | delimiter => simp at hw

end Broken

/-- The rune `next` behind a tag: no letter, and either the opener of a payload that never ends, or
no opener. -/
def BrokenTail (start : Position) (next : Char) (behind : List Char) (e : LexError) : Prop :=
  (∃ closer, Rune.closer? next = some closer ∧ Never (EndsPayload next closer) behind ∧
      e = .unterminated .structured start) ∨
    (Rune.closer? next = none ∧ e = .missingDelimiter start next)

/-- A tag ends at the first rune that is no letter, so there is one way to write a text as
`t ++ r :: a`. -/
theorem tag_unique {t t' a b : List Char} {r r' : Char} (ht : ∀ r ∈ t, Rune.isAlphabetic r = true)
    (ht' : ∀ r ∈ t', Rune.isAlphabetic r = true) (hr : Rune.isAlphabetic r = false)
    (hr' : Rune.isAlphabetic r' = false) (h : t ++ r :: a = t' ++ r' :: b) :
    t = t' ∧ r = r' ∧ a = b := by
  induction t generalizing t' with
  | nil =>
    cases t' with
    | nil => exact ⟨rfl, List.cons.inj h⟩
    | cons q t' =>
      obtain ⟨rfl, -⟩ := List.cons.inj h
      rw [ht' r List.mem_cons_self] at hr
      cases hr
  | cons q t ih =>
    cases t' with
    | nil =>
      obtain ⟨rfl, -⟩ := List.cons.inj h
      rw [ht q List.mem_cons_self] at hr'
      cases hr'
    | cons q' t' =>
      rw [List.cons_append, List.cons_append] at h
      obtain ⟨rfl, htail⟩ := List.cons.inj h
      obtain ⟨rfl, hrest⟩ := ih (fun r hr => ht r (List.mem_cons_of_mem _ hr))
        (fun r hr => ht' r (List.mem_cons_of_mem _ hr)) htail
      exact ⟨rfl, hrest⟩

namespace Broken

variable {start : Position} {v tag behind : List Char} {next : Char} {e e' : LexError}

theorem of_number (h : Broken start ('#' :: v) e) :
    ((∀ r ∈ v, Rune.isAlphabetic r = true) ∧ e = .unterminated .structured start) ∨
      ∃ tag next behind, v = tag ++ next :: behind ∧ (∀ r ∈ tag, Rune.isAlphabetic r = true) ∧
        Rune.isAlphabetic next = false ∧ BrokenTail start next behind e := by
  generalize hw : '#' :: v = w at h
  cases h with
  | string => simp at hw
  | template => simp at hw
  | tag htag => cases hw; exact .inl ⟨htag, rfl⟩
  | payload htag hcloser h =>
    cases hw
    exact .inr ⟨_, _, _, rfl, htag, isAlphabetic_opener hcloser, .inl ⟨_, hcloser, h, rfl⟩⟩
  | delimiter htag hfound hcloser =>
    cases hw
    exact .inr ⟨_, _, _, rfl, htag, hfound, .inr ⟨hcloser, rfl⟩⟩

/-- Behind a `tag` and a rune `next` that is no letter, this rune decides what is wrong. -/
theorem of_tag (htag : ∀ r ∈ tag, Rune.isAlphabetic r = true)
    (hnext : Rune.isAlphabetic next = false)
    (h : Broken start ('#' :: (tag ++ next :: behind)) e) : BrokenTail start next behind e := by
  rcases of_number h with ⟨hall, -⟩ | ⟨tag', next', behind', heq, htag', hnext', htail⟩
  · have hmem : next ∈ tag ++ next :: behind := List.mem_append_right _ List.mem_cons_self
    rw [hall next hmem] at hnext
    cases hnext
  · obtain ⟨-, rfl, rfl⟩ := tag_unique htag htag' hnext hnext' heq
    exact htail

theorem exists_sentinel {w : List Char} (h : Broken start w e) :
    ∃ r v, w = r :: v ∧ isSentinel r = true := by
  cases h <;> exact ⟨_, _, rfl, rfl⟩

/-- An incomplete literal `w` is one error. -/
theorem unique {w : List Char} (h : Broken start w e) (h' : Broken start w e') : e = e' := by
  cases h with
  | string => exact h'.of_quote.2.symm
  | template => exact h'.of_tick.2.symm
  | tag htag =>
    rcases h'.of_number with ⟨-, rfl⟩ | ⟨tag', next', behind', rfl, -, hnext', -⟩
    · rfl
    · have hmem : next' ∈ tag' ++ next' :: behind' := List.mem_append_right _ List.mem_cons_self
      rw [htag next' hmem] at hnext'
      cases hnext'
  | payload htag hcloser _ =>
    rcases h'.of_tag htag (isAlphabetic_opener hcloser) with ⟨_, -, -, rfl⟩ | ⟨hnone, -⟩
    · rfl
    · rw [hcloser] at hnone
      cases hnone
  | delimiter htag hfound hcloser =>
    rcases h'.of_tag htag hfound with ⟨closer, hsome, -, -⟩ | ⟨-, rfl⟩
    · rw [hcloser] at hsome
      cases hsome
    · rfl

end Broken

/-! ### Complete literals -/

namespace Literal

variable {kind kind' : LiteralKind} {p q a b : List Char}

theorem exists_sentinel (h : Literal kind p) : ∃ r v, p = r :: v ∧ isSentinel r = true := by
  cases h <;> exact ⟨_, _, rfl, rfl⟩

/-- No text starts with a complete literal `p` and is `Broken` there. -/
theorem not_broken {start : Position} {e : LexError} (h : Literal kind p) :
    ¬Broken start (p ++ a) e := by
  intro hbroken
  cases h with
  | string h => exact hbroken.of_quote.1.not_shortest rfl h
  | template h => exact hbroken.of_tick.1.not_shortest rfl h
  | @structured tag payload opener closer htag hcloser h =>
    rw [List.cons_append, List.append_assoc, List.cons_append] at hbroken
    -- Both have the same tag and opener, so the payload both ends and never ends.
    rcases hbroken.of_tag htag (isAlphabetic_opener hcloser) with
      ⟨closer', hcloser', hnever, -⟩ | ⟨hnone, -⟩
    · rw [hcloser] at hcloser'
      cases hcloser'
      exact hnever.not_shortest rfl h
    · rw [hcloser] at hnone
      cases hnone

/-- No complete literal `p` is a first part of another one. -/
theorem eq_of_append_eq (h : Literal kind p) (h' : Literal kind' q) (heq : p ++ a = q ++ b) :
    p = q := by
  cases h with
  | string h =>
    cases h' with
    | string h' => rw [h.eq_of_append_eq h' (List.cons.inj heq).2]
    | template => simp at heq
    | structured => simp at heq
  | template h =>
    cases h' with
    | string => simp at heq
    | template h' => rw [h.eq_of_append_eq h' (List.cons.inj heq).2]
    | structured => simp at heq
  | @structured tag payload opener closer htag hcloser h =>
    cases h' with
    | string => simp at heq
    | template => simp at heq
    | @structured tag' payload' opener' closer' htag' hcloser' h' =>
      simp only [List.cons_append, List.append_assoc] at heq
      have htail := (List.cons.inj heq).2
      obtain ⟨rfl, rfl, hpayload⟩ := tag_unique htag htag' (isAlphabetic_opener hcloser)
        (isAlphabetic_opener hcloser') htail
      rw [hcloser] at hcloser'
      cases hcloser'
      rw [h.eq_of_append_eq h' hpayload]

end Literal

/-! ### Pieces -/

/-- A part of a text that is scanned without an error: a rune that is no sentinel, or a complete
literal by `Literal`. -/
inductive Piece : List Char → Prop
  | rune {r : Char} (h : isSentinel r = false) : Piece [r]
  | literal {kind : LiteralKind} {rs : List Char} (h : Literal kind rs) : Piece rs

namespace Piece

variable {start : Position} {p q a b : List Char} {e : LexError}

theorem ne_nil (h : Piece p) : p ≠ [] := by
  cases h with
  | rune => simp
  | literal h =>
    obtain ⟨r, v, rfl, -⟩ := h.exists_sentinel
    simp

theorem not_broken (h : Piece p) : ¬Broken start (p ++ a) e := by
  cases h with
  | @rune r h =>
    intro hbroken
    obtain ⟨r', v, heq, hr'⟩ := hbroken.exists_sentinel
    obtain ⟨rfl, -⟩ := List.cons.inj heq
    rw [h] at hr'
    cases hr'
  | literal h => exact h.not_broken

/-- No piece `p` is a first part of another one. -/
theorem eq_of_append_eq (h : Piece p) (h' : Piece q) (heq : p ++ a = q ++ b) : p = q := by
  cases h with
  | @rune r h =>
    cases h' with
    | @rune r' h' =>
      obtain ⟨rfl, -⟩ := List.cons.inj heq
      rfl
    | literal h' =>
      obtain ⟨r', v, rfl, hr'⟩ := h'.exists_sentinel
      obtain ⟨rfl, -⟩ := List.cons.inj heq
      rw [h] at hr'
      cases hr'
  | literal h =>
    cases h' with
    | @rune r' h' =>
      obtain ⟨r, v, rfl, hr⟩ := h.exists_sentinel
      obtain ⟨rfl, -⟩ := List.cons.inj heq
      rw [h'] at hr
      cases hr
    | literal h' => exact h.eq_of_append_eq h' heq

end Piece

/-- No piece is a first part of the row `w`. -/
def Stuck (w : List Char) : Prop :=
  ∀ p behind, Piece p → w ≠ p ++ behind

theorem stuck_nil : Stuck [] := by
  intro p behind hp heq
  exact hp.ne_nil (List.append_eq_nil_iff.1 heq.symm).1

theorem Broken.stuck {start : Position} {w : List Char} {e : LexError} (h : Broken start w e) :
    Stuck w := by
  rintro p behind hp rfl
  exact hp.not_broken h

/-- A row of runes that is pieces, one behind the other, with nothing left. -/
inductive InPieces : List Char → Prop
  | nil : InPieces []
  | cons {p rs : List Char} (hp : Piece p) (hrs : InPieces rs) : InPieces (p ++ rs)

namespace InPieces

variable {rs ss a b : List Char}

theorem of_piece (h : Piece rs) : InPieces rs := by
  have hcons := InPieces.cons h .nil
  rwa [List.append_nil] at hcons

theorem append (h : InPieces rs) (h' : InPieces ss) : InPieces (rs ++ ss) := by
  induction h with
  | nil => exact h'
  | cons hp _ ih =>
    rw [List.append_assoc]
    exact .cons hp ih

/-- Runes `rs` that are no sentinels are pieces, one by one. -/
theorem of_runes (h : ∀ r ∈ rs, isSentinel r = false) : InPieces rs := by
  induction rs with
  | nil => exact .nil
  | cons r rs ih =>
    obtain ⟨hr, hrs⟩ := List.forall_mem_cons.1 h
    exact .cons (.rune hr) (ih hrs)

/-- A row falls into pieces, up to a place where it is `Stuck`, in one way only. -/
theorem unique (h : InPieces rs) (h' : InPieces ss) (ha : Stuck a) (hb : Stuck b)
    (heq : rs ++ a = ss ++ b) : rs = ss ∧ a = b := by
  induction h generalizing ss with
  | nil =>
    cases h' with
    | nil => exact ⟨rfl, heq⟩
    | @cons q ss hq _ =>
      rw [List.append_assoc] at heq
      exact absurd heq (ha q _ hq)
  | @cons p rs hp _ ih =>
    rw [List.append_assoc] at heq
    cases h' with
    | nil => exact absurd heq.symm (hb p _ hp)
    | @cons q ss hq hss =>
      rw [List.append_assoc] at heq
      obtain rfl := hp.eq_of_append_eq hq heq
      obtain ⟨rfl, hends⟩ := ih hss (List.append_cancel_left heq)
      exact ⟨rfl, hends⟩

end InPieces

/-! ### What is found falls into pieces -/

theorem isSentinel_iff (r : Char) : isSentinel r = true ↔ r = '"' ∨ r = '\x60' ∨ r = '#' := by
  simp [isSentinel, or_assoc]

/-- A class `p` without the three sentinels holds none. -/
theorem isSentinel_of_class {p : Char → Bool} (hquote : p '"' = false) (htick : p '\x60' = false)
    (hnumber : p '#' = false) {r : Char} (h : p r = true) : isSentinel r = false := by
  refine eq_false_of_ne_true fun hr => ?_
  rcases (isSentinel_iff r).1 hr with rfl | rfl | rfl
  · rw [hquote] at h; cases h
  · rw [htick] at h; cases h
  · rw [hnumber] at h; cases h

theorem isSentinel_of_isBlank {r : Char} (h : Rune.isBlank r = true) : isSentinel r = false :=
  isSentinel_of_class (by decide) (by decide) (by decide) h

theorem isSentinel_of_isNameRune {r : Char} (h : Rune.isNameRune r = true) :
    isSentinel r = false :=
  isSentinel_of_class (by decide) (by decide) (by decide) h

theorem isSentinel_of_isDigitIn {base : Nat} {r : Char} (h : Text.isDigitIn base r = true) :
    isSentinel r = false :=
  isSentinel_of_class rfl rfl rfl h

theorem isSentinel_of_isDigit {r : Char} (h : r.isDigit = true) : isSentinel r = false :=
  isSentinel_of_class (by decide) (by decide) (by decide) h

theorem Decimal.isSentinel_eq_false {rs : List Char} (h : Decimal rs) :
    ∀ r ∈ rs, isSentinel r = false := by
  cases h with
  | intro hfirst hrest _ _ =>
    intro r hr
    rcases List.mem_cons.1 hr with rfl | hr
    · exact isSentinel_of_isDigit hfirst
    · rcases hrest r hr with hdigit | rfl | rfl
      · exact isSentinel_of_isDigit hdigit
      · rfl
      · rfl

theorem Whole.isSentinel_eq_false {rs : List Char} (h : Whole rs) :
    ∀ r ∈ rs, isSentinel r = false := by
  have hcons : ∀ {r₀ : Char} {rs : List Char}, isSentinel r₀ = false →
      (∀ r ∈ rs, isSentinel r = false) → ∀ r ∈ r₀ :: rs, isSentinel r = false :=
    fun h₀ h => List.forall_mem_cons.2 ⟨h₀, h⟩
  cases h with
  | binary hmark h =>
    refine hcons rfl (hcons ?_ fun r hr => isSentinel_of_isDigitIn (h r hr))
    rcases hmark with rfl | rfl <;> rfl
  | hexadecimal hmark h =>
    refine hcons rfl (hcons ?_ fun r hr => isSentinel_of_isDigitIn (h r hr))
    rcases hmark with rfl | rfl <;> rfl
  | decimal h => exact hcons rfl fun r hr => isSentinel_of_isDigitIn (h r hr)

/-- A token is a literal, or has no sentinel among its runes `rs`; either way it is pieces. -/
theorem Lexeme.inPieces {rs : List Char} {token : Token} (h : Lexeme rs token) :
    InPieces rs := by
  cases h with
  | newline => exact .of_piece (.rune rfl)
  | operator h =>
    have hall : (Token.operators.all fun row => row.1.toList.all (!isSentinel ·)) = true := by
      decide
    have hrow := List.all_eq_true.1 (List.all_eq_true.1 hall _ h)
    exact .of_runes fun r hr => by simpa using hrow r hr
  | literal h => exact .of_piece (.literal h)
  | symbol h =>
    exact .of_runes (List.forall_mem_cons.2 ⟨rfl, fun r hr => isSentinel_of_isNameRune (h r hr)⟩)
  | whole h => exact .of_runes h.isSentinel_eq_false
  | decimal h _ => exact .of_runes h.isSentinel_eq_false
  | word hfirst _ _ hrest =>
    exact .of_runes (List.forall_mem_cons.2
      ⟨isSentinel_of_isNameRune hfirst, fun r hr => isSentinel_of_isNameRune (hrest r hr)⟩)

theorem Found.inPieces {start : Position} {rs : List Char} {found : Finding}
    (h : Found start rs found) : InPieces rs := by
  cases h with
  | lexeme h => exact h.inPieces
  | repeatedMark h hmark _ =>
    refine .append (.of_runes h.isSentinel_eq_false) (.of_piece (.rune ?_))
    rcases hmark with rfl | rfl <;> rfl
  | stray _ _ hsentinel _ _ => exact .of_piece (.rune hsentinel)

end Grammar

/-! ### Scans of texts -/

open Grammar

namespace Lexer

/-- Results of the runes `left` that stand from `start` on: the runes fall into pieces and there is
no error, or an incomplete literal stands behind pieces and is the error. -/
def Scanned (start : Position) (left : List Char) (results : List LexResult) : Prop :=
  (InPieces left ∧ ∃ items, results.mapM id = .ok items) ∨
    ∃ before behind e, InPieces before ∧ left = before ++ behind ∧
      Broken (start.advanceAll before) behind e ∧ results.mapM id = .error e

/-- An `item` in front of further `results` hands on how they end. -/
theorem Scanned.cons {start : Position} {rs left : List Char} {item : Item}
    {results : List LexResult} (hrs : InPieces rs)
    (h : Scanned (start.advanceAll rs) left results) :
    Scanned start (rs ++ left) (.ok item :: results) := by
  rcases h with ⟨hleft, items, hitems⟩ | ⟨before, behind, e, hbefore, rfl, hbroken, he⟩
  · refine .inl ⟨hrs.append hleft, item :: items, ?_⟩
    rw [List.mapM_cons, hitems]
    rfl
  · refine .inr ⟨rs ++ before, behind, e, hrs.append hbefore, ?_, ?_, ?_⟩
    · rw [List.append_assoc]
    · rwa [Position.advanceAll_append]
    · rw [List.mapM_cons, he]
      rfl

/-- The results of a `text` are errorless, or end with the first incomplete literal. -/
theorem scanned_results (text : String) : Scanned .start text.toList (ofString text).results := by
  have hscanned : ∀ left, (ofString text).cursor.Holds left →
      1 ≤ (ofString text).cursor.position.line →
      Scanned (ofString text).cursor.position left (ofString text).results := by
    refine results_induction (P := fun c results => ∀ left, c.Holds left → 1 ≤ c.position.line →
      Scanned c.position left results) ?_ ?_ ?_ rfl
    · intro c c' found h heof left hc hline
      obtain ⟨bs, hblank, ⟨rfl, rfl⟩ | ⟨rs, behind, -, -, -, hfound⟩⟩ :=
        Scanner.finds_item_of_holds hline hc h
      · exact .inl ⟨.of_runes fun r hr => isSentinel_of_isBlank (hblank r hr), _, rfl⟩
      · exact absurd heof hfound.token_ne_eof
    · intro c c' e h left hc hline
      obtain ⟨bs, c₁, hblank, hp, hfails⟩ := Scanner.fails_item hline h
      obtain ⟨behind, rfl, hc₁⟩ := hc.passes hp
      have hbs := InPieces.of_runes fun r hr => isSentinel_of_isBlank (hblank r hr)
      refine .inr ⟨bs, behind, e, hbs, rfl, ?_, rfl⟩
      rw [← hp.position]
      exact hfails.broken hc₁
    · intro c c' found results h hne ih left hc hline
      obtain ⟨bs, hblank, ⟨-, rfl⟩ | ⟨rs, behind, rfl, hc', hpos', hfound⟩⟩ :=
        Scanner.finds_item_of_holds hline hc h
      · exact absurd rfl hne
      · have hbs := InPieces.of_runes fun r hr => isSentinel_of_isBlank (hblank r hr)
        have hline' : 1 ≤ c'.position.line :=
          hpos' ▸ Nat.le_trans hline (Position.line_le_line_advanceAll _ _)
        exact .cons (hbs.append hfound.inPieces) (hpos' ▸ ih behind hc' hline')
  exact hscanned text.toList (Cursor.holds_ofString text) (Nat.le_refl 1)

end Lexer

/-- A text has tokens exactly if it falls into pieces, and it fails with the error `e` exactly if an
incomplete literal that is this error stands behind pieces. -/
theorem tokenize_iff_inPieces (text : String) :
    ((∃ items, tokenize text = .ok items) ↔ InPieces text.toList) ∧
      ∀ e, tokenize text = .error e ↔
        ∃ before behind, InPieces before ∧ text.toList = before ++ behind ∧
          Broken (.after before) behind e := by
  -- The scan does one of both, and a text cannot be decomposed in both ways.
  rcases Lexer.scanned_results text with
    ⟨hpieces, items, hok⟩ | ⟨before, behind, e, hbefore, htext, hbroken, herror⟩
  · refine ⟨iff_of_true ⟨items, hok⟩ hpieces, fun e => iff_of_false (fun h => ?_) ?_⟩
    · cases hok.symm.trans h
    · rintro ⟨before, behind, hbefore, htext, hbroken⟩
      rw [← List.append_nil text.toList] at htext
      obtain ⟨-, rfl⟩ := hpieces.unique hbefore stuck_nil hbroken.stuck htext
      obtain ⟨r, v, hnil, -⟩ := hbroken.exists_sentinel
      cases hnil
  · constructor
    · refine iff_of_false ?_ fun hpieces => ?_
      · rintro ⟨items, h⟩
        cases herror.symm.trans h
      · rw [← List.append_nil text.toList] at htext
        obtain ⟨-, rfl⟩ := hpieces.unique hbefore stuck_nil hbroken.stuck htext
        obtain ⟨r, v, hnil, -⟩ := hbroken.exists_sentinel
        cases hnil
    · intro e'
      constructor
      · intro h
        cases herror.symm.trans h
        exact ⟨before, behind, hbefore, htext, hbroken⟩
      · rintro ⟨before', behind', hbefore', htext', hbroken'⟩
        obtain ⟨rfl, rfl⟩ := hbefore.unique hbefore' hbroken.stuck hbroken'.stuck
          (htext.symm.trans htext')
        rw [← hbroken.unique hbroken']
        exact herror

end LexStream
