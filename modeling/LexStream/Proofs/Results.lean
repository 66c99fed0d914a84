import LexStream.Lexer

/-!
# The results of a lexer

What a lexer that is open gives next depends on its cursor alone, and its results are what repeated
requests give.

Main facts:

* `Lexer.results_of_open`: an open lexer gives the first of its results next, and leaves the others;
* `Lexer.results_induction`: the induction over a scan, with one case for the item that ends it, one
  for the fatal error that ends it, and one for an item that others follow;
* `tokenize_eq_ok_iff`: when a text has items.
-/

namespace LexStream

namespace Lexer

variable {σ : Type} [ByteSource σ] {l : Lexer σ} {c : Cursor σ} {found : Finding} {e : LexError}

/-! ### One request -/

theorem nextItem_of_ok (hopen : l.finished = false)
    (h : Scanner.item.run l.cursor = (.ok found, c)) :
    l.nextItem =
      (.ok found.item, ⟨c, found.item.pos, l.produced + 1, found.item.token = .eof⟩) := by
  unfold nextItem step
  rw [hopen, h]
  rfl

theorem nextItem_of_error (hopen : l.finished = false)
    (h : Scanner.item.run l.cursor = (.error e, c)) :
    l.nextItem = (.error e, ⟨c, l.lastPos, l.produced, true⟩) := by
  unfold nextItem step
  rw [hopen, h]
  rfl

/-- A `finished` lexer stays as it is and is at the end of its input where it stands. -/
theorem nextItem_of_finished (h : l.finished = true) :
    l.nextItem = (.ok ⟨l.position, .eof, ""⟩, l) := by
  unfold nextItem step
  rw [if_pos h]
  rfl

/-! ### All requests -/

theorem findings_of_finished (h : l.finished = true) : l.findings = [] := by
  rw [findings, dif_pos h]

theorem findings_of_open (hopen : l.finished = false) :
    l.findings = l.step.1 :: l.step.2.findings := by
  rw [findings, dif_neg (by simp [hopen])]

theorem results_of_finished (h : l.finished = true) : l.results = [] := by
  rw [results, findings_of_finished h]
  rfl

theorem results_of_open (hopen : l.finished = false) :
    l.results = l.nextItem.1 :: l.nextItem.2.results := by
  rw [results, findings_of_open hopen]
  rfl

theorem results_of_error (hopen : l.finished = false)
    (h : Scanner.item.run l.cursor = (.error e, c)) : l.results = [.error e] := by
  rw [results_of_open hopen, nextItem_of_error hopen h, results_of_finished rfl]

theorem results_of_eof (hopen : l.finished = false)
    (h : Scanner.item.run l.cursor = (.ok found, c)) (heof : found.item.token = .eof) :
    l.results = [.ok found.item] := by
  rw [results_of_open hopen, nextItem_of_ok hopen h, results_of_finished (by simpa using heof)]

/-- A property `P` of cursors and results holds of an open lexer if it holds of both ends of a scan
(`eof`, `error`) and each `item` hands it on from the results behind it. -/
theorem results_induction {P : Cursor σ → List LexResult → Prop}
    (eof : ∀ {c c' found}, Scanner.item.run c = (.ok found, c') → found.item.token = .eof →
      P c [.ok found.item])
    (error : ∀ {c c' e}, Scanner.item.run c = (.error e, c') → P c [.error e])
    (item : ∀ {c c' found rs}, Scanner.item.run c = (.ok found, c') → found.item.token ≠ .eof →
      P c' rs → P c (.ok found.item :: rs))
    (hopen : l.finished = false) : P l.cursor l.results := by
  induction hn : l.remaining using Nat.strongRecOn generalizing l with
  | ind n ih =>
    subst hn
    -- The induction is on what the lexer can still do, which every request makes less.
    have hlt := remaining_step_lt hopen
    rw [results_of_open hopen]
    match hitem : Scanner.item.run l.cursor with
    | (.error e, c) =>
      rw [nextItem_of_error hopen hitem, results_of_finished rfl]
      exact error hitem
    | (.ok found, c) =>
      rw [nextItem_of_ok hopen hitem]
      by_cases heof : found.item.token = .eof
      · rw [results_of_finished (by simpa using heof)]
        exact eof hitem heof
      · refine item hitem heof ?_
        have hstep : l.step.2 = l.nextItem.2 := rfl
        rw [hstep, nextItem_of_ok hopen hitem] at hlt
        exact ih _ hlt (by simpa using heof) rfl

end Lexer

/-! ### Results without an error -/

theorem mapM_id_map_ok {ε α : Type} (xs : List α) :
    (xs.map .ok : List (Except ε α)).mapM id = .ok xs := by
  induction xs with
  | nil => rfl
  | cons x xs ih =>
    rw [List.map_cons, List.mapM_cons, ih]
    rfl

theorem eq_map_ok_of_mapM_id {ε α : Type} {rs : List (Except ε α)} {xs : List α}
    (h : rs.mapM id = .ok xs) : rs = xs.map .ok := by
  induction rs generalizing xs with
  | nil => cases h; rfl
  | cons r rs ih =>
    rw [List.mapM_cons] at h
    cases r with
    | error e => cases h
    | ok x =>
      cases hys : rs.mapM id with
      | error e => rw [hys] at h; cases h
      | ok ys =>
        rw [hys] at h
        cases h
        rw [ih hys, List.map_cons]

/-- The `items` of a `text` are the `results` of its scan where none of these is an error. -/
theorem tokenize_eq_ok_iff {text : String} {items : List Item} :
    tokenize text = .ok items ↔ (Lexer.ofString text).results = items.map .ok :=
  ⟨eq_map_ok_of_mapM_id, fun h => by rw [tokenize, h, mapM_id_map_ok]⟩

end LexStream
