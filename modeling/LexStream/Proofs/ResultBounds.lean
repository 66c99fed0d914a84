import LexStream.Proofs.Finality
import LexStream.Proofs.Outcomes
import Mathlib.Algebra.BigOperators.Group.List.Basic

/-!
# A result for each rune

Every scan of an item passes a rune, unless it gives the last result of its lexer.  No rune is
passed twice, though some are put back or looked at before: what two requests pass stands one behind
the other in what was decoded.  So a lexer gives no more results than one for each rune of its
reader, and the last one, whatever is wrong with the text and whatever the reader does.

That a request gives a result at all is how runs and reads recur: the cursor behind a rune that a
run takes is smaller, even though the rune that it leaves is put back, and a read that is tried
again has fewer events to come.

Main facts:

* `Lexer.exists_rows`: the rows of runes that the items of a lexer pass;
* `Lexer.exists_decodes`: a request decodes runes, whether it fails or not;
* `Lexer.results_le_runes`: the iteration of a lexer ends, after one result for each rune at most.
-/

namespace LexStream.Lexer

open Utf8 (Decodes)

variable {σ : Type} [ByteSource σ] {l : Lexer σ}

/-! ### The runes of the items -/

/-- Each result of the lexer but the last one has a row of runes in `rows`, and the requests for the
first results pass their rows one behind the other. -/
structure PassesRows (l : Lexer σ) (rows : List (List Char)) : Prop where
  length_eq : rows.length + 1 = l.results.length
  ne_nil : ∀ row ∈ rows, row ≠ []
  passes : ∀ k ≤ rows.length, l.cursor.Passes (rows.take k).flatten (l.requests k).2.cursor

namespace PassesRows

/-- The last result has no row, so that `[]` is a list of rows in front of it. -/
theorem nil (hopen : l.finished = false) (hfinished : l.nextItem.2.finished = true) :
    l.PassesRows [] where
  length_eq := by
    rw [results_of_open hopen, results_of_finished hfinished]
    rfl
  ne_nil _ hmem := absurd hmem List.not_mem_nil
  passes k hk := by
    obtain rfl : k = 0 := Nat.le_zero.1 hk
    exact .refl _

theorem cons {us : List Char} {rows : List (List Char)} (hopen : l.finished = false)
    (hne : us ≠ []) (hus : l.cursor.Passes us l.nextItem.2.cursor)
    (h : l.nextItem.2.PassesRows rows) : l.PassesRows (us :: rows) where
  length_eq := by rw [results_of_open hopen, List.length_cons, List.length_cons, h.length_eq]
  ne_nil := List.forall_mem_cons.2 ⟨hne, h.ne_nil⟩
  passes k hk := by
    cases k with
    | zero => exact .refl _
    | succ k =>
      rw [List.take_succ_cons, List.flatten_cons]
      exact hus.trans (h.passes k (Nat.le_of_succ_le_succ hk))

end PassesRows

/-- The results of an open lexer `l` have rows of runes. -/
theorem exists_rows (hopen : l.finished = false) (hline : 1 ≤ l.cursor.position.line) :
    ∃ rows, l.PassesRows rows := by
  -- The induction is on what the lexer can still do, which every request makes less.
  induction hn : l.remaining using Nat.strongRecOn generalizing l with
  | ind n ih =>
    subst hn
    have hless : l.nextItem.2.remaining < l.remaining := remaining_step_lt hopen
    match hitem : Scanner.item.run l.cursor with
    | (.error e, c) => exact ⟨[], .nil hopen (by rw [nextItem_of_error hopen hitem])⟩
    | (.ok found, c) =>
      have hnext := nextItem_of_ok hopen hitem
      by_cases heof : found.item.token = .eof
      · exact ⟨[], .nil hopen (by rw [hnext]; exact decide_eq_true heof)⟩
      · obtain ⟨us, hus, hne⟩ := Scanner.passes_item hline hitem
        have hcursor : l.nextItem.2.cursor = c := by rw [hnext]
        have hmore : l.nextItem.2.finished = false := by rw [hnext]; exact decide_eq_false heof
        rw [← hcursor] at hus
        obtain ⟨rows, hrows⟩ := ih _ hless hmore (hus.one_le_line hline) rfl
        exact ⟨us :: rows, .cons hopen (hne heof) hus hrows⟩

/-! ### The runes of the reader -/

/-- A request decodes some runes `ds`, also where it fails. -/
theorem exists_decodes (l : Lexer σ) :
    ∃ ds, Decodes l.cursor.source ds l.nextItem.2.cursor.source := by
  cases hopen : l.finished with
  | true =>
    rw [nextItem_of_finished hopen]
    exact ⟨[], .refl _⟩
  | false =>
    obtain ⟨os, htrace, -⟩ := Scan.Traces.item l.cursor
    match hitem : Scanner.item.run l.cursor with
    | (.ok found, c) =>
      rw [hitem] at htrace
      rw [nextItem_of_ok hopen hitem]
      exact ⟨_, htrace.decodes⟩
    | (.error e, c) =>
      rw [hitem] at htrace
      rw [nextItem_of_error hopen hitem]
      exact ⟨_, htrace.decodes⟩

theorem requests_succ (l : Lexer σ) (k : Nat) :
    (l.requests (k + 1)).2 = (l.requests k).2.nextItem.2 := by
  induction k generalizing l with
  | zero => rfl
  | succ k ih => exact ih l.nextItem.2

/-! ### The bound -/

/-- Whatever the reader gives, the results of a lexer `l` end with the first one that is `eof` or an
error, by `isLast`.  Its iteration gives these and has ended then.  Every item before the last
result passes a rune at least, which no later one passes again.  These runes are among the ones
decoded from the reader, to which there is one result more at most. -/
theorem results_le_runes (events : List ReadEvent) (capacity : Nat) :
    let l := ofSource (Source.ofEvents events capacity)
    let n := l.results.length
    (∃ init last, l.results = init ++ [last] ∧ isLast last = true ∧
        ∀ r ∈ init, isLast r = false) ∧
      (∀ m, (l.calls (List.replicate m .next)).1 =
        (l.results.take m).map some ++ List.replicate (m - n) none) ∧
      ∃ rows ds, l.PassesRows rows ∧
        (∀ rs, Decodes l.cursor.source rs (l.requests n).2.cursor.source ↔ rs = ds) ∧
        rows.flatten <+: ds ∧ n ≤ ds.length + 1 := by
  intro l n
  refine ⟨results_isLast rfl, fun m => ?_, ?_⟩
  · rw [answers_calls, List.length_replicate, List.drop_replicate, List.map_replicate]
    rfl
  · obtain ⟨rows, hrows⟩ := exists_rows (l := l) rfl (Nat.le_refl 1)
    have hlength : rows.length + 1 = n := hrows.length_eq
    have hlast := hrows.passes rows.length (Nat.le_refl _)
    rw [List.take_length] at hlast
    -- What the items have passed was decoded before the last request, which decodes the rest.
    obtain ⟨ds, hds, hstream⟩ := hlast.stream
    obtain ⟨ds', hds'⟩ := (l.requests rows.length).2.exists_decodes
    have hall := hds.trans hds'
    rw [← requests_succ, hlength] at hall
    have hprefix : rows.flatten <+: ds ++ ds' := by
      rw [← List.nil_append ds, show [] ++ ds = _ from hstream, List.append_assoc]
      exact List.prefix_append _ _
    refine ⟨rows, ds ++ ds', hrows, fun rs => ⟨fun hrs => hrs.unique hall, ?_⟩, hprefix, ?_⟩
    · rintro rfl
      exact hall
    · have hsum := List.length_le_sum_of_one_le (rows.map List.length) fun i hi => by
        obtain ⟨row, hrow, rfl⟩ := List.mem_map.1 hi
        exact List.length_pos_iff.2 (hrows.ne_nil row hrow)
      rw [List.length_map, ← List.length_flatten] at hsum
      have hle := hprefix.length_le
      omega

end LexStream.Lexer
