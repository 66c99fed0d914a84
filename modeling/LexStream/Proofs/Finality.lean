import LexStream.Proofs.Deliveries
import LexStream.Proofs.Restart

/-!
# Lexers that are finished

A lexer can be asked in two ways: for the next item, or for the next one of its iteration, which
comes to an end.  A row of calls mixes them at will.  Up to the last result, the end of the input or
a fatal error, both give the same.  From then on the lexer stays as it is: the iteration has ended,
and the next item is the end of the input, although the cursor does not remember an end and its
source might go on.

Main facts:

* `Lexer.answers_calls`, `Lexer.lexer_calls`: the answers to a row of calls, and the lexer behind
  it;
* `Lexer.finished_requests`: a lexer is finished behind its last result;
* `Lexer.calls_final`: no call to a finished lexer has an effect, and its last result is given to
  the iteration once.
-/

namespace LexStream.Lexer

variable {σ : Type} [ByteSource σ]

/-! ### Calls -/

/-- The ways to ask a lexer. -/
inductive Call where
  /-- For the next item, by `Lexer.nextItem`. -/
  | nextItem
  /-- For the next item of its iteration, by `Lexer.next?`. -/
  | next
deriving DecidableEq

/-- The answer of the lexer `l` to a call, and the lexer behind it. -/
def call (l : Lexer σ) : Call → Option LexResult × Lexer σ
  | .nextItem => (some l.nextItem.1, l.nextItem.2)
  | .next => l.next?

/-- The answers of `l` to a row of calls, and the lexer behind it. -/
def calls (l : Lexer σ) : List Call → List (Option LexResult) × Lexer σ
  | [] => ([], l)
  | k :: ks => ((l.call k).1 :: ((l.call k).2.calls ks).1, ((l.call k).2.calls ks).2)

omit [ByteSource σ] in
/-- What a `finished` lexer answers: `eof` where it stands, or that the iteration has ended. -/
def restAnswer (l : Lexer σ) : Call → Option LexResult
  | .nextItem => some (.ok ⟨l.position, .eof, ""⟩)
  | .next => none

/-- A `finished` lexer gives its `restAnswer` to the call `k` without doing anything. -/
theorem call_of_finished {l : Lexer σ} (h : l.finished = true) (k : Call) :
    l.call k = (l.restAnswer k, l) := by
  cases k with
  | nextItem =>
    show (some l.nextItem.1, l.nextItem.2) = _
    rw [nextItem_of_finished h]
    rfl
  | next => exact if_pos h

/-- While a lexer is open, both calls `k` are requests for the next item. -/
theorem call_of_open {l : Lexer σ} (h : l.finished = false) (k : Call) :
    l.call k = (some l.nextItem.1, l.nextItem.2) := by
  cases k with
  | nextItem => rfl
  | next => exact if_neg (Bool.eq_false_iff.1 h)

theorem calls_of_finished {l : Lexer σ} (h : l.finished = true) (ks : List Call) :
    l.calls ks = (ks.map l.restAnswer, l) := by
  induction ks with
  | nil => rfl
  | cons k ks ih => rw [calls, call_of_finished h, ih, List.map_cons]

theorem calls_append (l : Lexer σ) (ks ks' : List Call) :
    l.calls (ks ++ ks') =
      ((l.calls ks).1 ++ ((l.calls ks).2.calls ks').1, ((l.calls ks).2.calls ks').2) := by
  induction ks generalizing l with
  | nil => rfl
  | cons k ks ih =>
    rw [List.cons_append, calls, ih]
    rfl

/-! ### Up to the last result and behind it -/

theorem requests_of_finished {l : Lexer σ} (h : l.finished = true) (k : Nat) :
    (l.requests k).2 = l := by
  induction k with
  | zero => rfl
  | succ k ih =>
    show (l.nextItem.2.requests k).2 = l
    rw [nextItem_of_finished h, ih]

/-- A lexer is `finished` behind as many requests as it has results, and not before. -/
theorem finished_requests (l : Lexer σ) (k : Nat) :
    (l.requests k).2.finished = true ↔ l.results.length ≤ k := by
  induction k generalizing l with
  | zero =>
    cases h : l.finished with
    | true => simp [requests, h, results_of_finished h]
    | false => simp [requests, h, results_of_open h]
  | succ k ih =>
    cases h : l.finished with
    | true => simp [requests_of_finished h, h, results_of_finished h]
    | false =>
      rw [results_of_open h, List.length_cons, Nat.add_le_add_iff_right]
      exact ih l.nextItem.2

theorem calls_cons_of_open {l : Lexer σ} (h : l.finished = false) (k : Call) (ks : List Call) :
    l.calls (k :: ks) =
      (some l.nextItem.1 :: (l.nextItem.2.calls ks).1, (l.nextItem.2.calls ks).2) := by
  rw [calls, call_of_open h]

/-- No more of the calls `ks` have an effect on a lexer than it has results. -/
theorem lexer_calls (l : Lexer σ) (ks : List Call) :
    (l.calls ks).2 = (l.requests (min ks.length l.results.length)).2 := by
  induction ks generalizing l with
  | nil => rw [List.length_nil, Nat.zero_min]; rfl
  | cons k ks ih =>
    cases h : l.finished with
    | true => rw [calls_of_finished h, requests_of_finished h]
    | false =>
      rw [calls_cons_of_open h, results_of_open h, List.length_cons, List.length_cons,
        Nat.succ_min_succ]
      exact ih l.nextItem.2

/-- However a lexer is asked, its `results` come first, each of them as the answer to one call, and
then the `restAnswer`s of a finished lexer. -/
theorem answers_calls (l : Lexer σ) (ks : List Call) :
    (l.calls ks).1 = (l.results.take ks.length).map some ++
      (ks.drop l.results.length).map (l.calls ks).2.restAnswer := by
  induction ks generalizing l with
  | nil => rw [List.length_nil, List.take_zero, List.drop_nil]; rfl
  | cons k ks ih =>
    cases h : l.finished with
    | true => rw [calls_of_finished h, results_of_finished h]; rfl
    | false =>
      rw [calls_cons_of_open h, results_of_open h, List.length_cons, List.length_cons,
        List.take_succ_cons, List.drop_succ_cons, List.map_cons, List.cons_append]
      exact congrArg (some l.nextItem.1 :: ·) (ih l.nextItem.2)

/-- The answer to the call at `i` of the row `ks`: a result if there is one left for it. -/
theorem getElem?_calls (l : Lexer σ) {ks : List Call} {i : Nat} (hi : i < ks.length) :
    (l.calls ks).1[i]? =
      if i < l.results.length then l.results[i]?.map some
      else ks[i]?.map (l.calls ks).2.restAnswer := by
  have hlength : ((l.results.take ks.length).map some).length = min ks.length l.results.length := by
    rw [List.length_map, List.length_take]
  rw [answers_calls]
  split_ifs with hlt
  · rw [List.getElem?_append_left (by omega), List.getElem?_map, List.getElem?_take_of_lt hi]
  · have hplace : l.results.length + (i - min ks.length l.results.length) = i := by omega
    rw [List.getElem?_append_right (by omega), List.getElem?_map, hlength, List.getElem?_drop,
      hplace]

/-- A lexer is finished by its last result, and by no other: `isLast` holds of this one alone. -/
theorem isLast_iff {l : Lexer σ} {i : Nat} {r : LexResult} (h : l.results[i]? = some r) :
    isLast r = true ↔ i + 1 = l.results.length := by
  obtain ⟨hi, -⟩ := List.getElem?_eq_some_iff.1 h
  have hopen : l.finished = false := by
    refine eq_false_of_ne_true fun hfinished => ?_
    rw [results_of_finished hfinished] at hi
    exact absurd hi (Nat.not_lt_zero i)
  obtain ⟨init, last, hresults, hlast, hinit⟩ := results_isLast hopen
  rw [hresults] at h hi ⊢
  rw [List.length_append, List.length_singleton] at hi ⊢
  rcases Nat.lt_or_ge i init.length with hlt | hge
  · rw [List.getElem?_append_left hlt] at h
    have hno := hinit r (List.mem_of_getElem? h)
    rw [hno]
    exact iff_of_false Bool.false_ne_true (by omega)
  · obtain rfl : i = init.length := by omega
    rw [List.getElem?_concat_length] at h
    cases h
    exact iff_of_true hlast rfl

/-- Up to `eof` or the first error, every call of the row `ks` is answered by the next of the `n`
results, whether it is made to the lexer or to its iteration.  Then the lexer `l'` is `finished`,
and stays what it is whatever is called, with its source and its lookahead: the iteration has ended,
and the next item is `eof`.  So a call of the iteration is answered by a last result just where this
is its turn, which comes once. -/
theorem calls_final (l : Lexer σ) (ks : List Call) :
    let l' := (l.calls ks).2
    let n := l.results.length
    (l.calls ks).1 = (l.results.take ks.length).map some ++ (ks.drop n).map l'.restAnswer ∧
      (l'.finished = true ↔ n ≤ ks.length) ∧
      (∀ i r, l.results[i]? = some r → (isLast r = true ↔ i + 1 = n)) ∧
      (∀ more, l'.finished = true →
        l.calls (ks ++ more) = ((l.calls ks).1 ++ more.map l'.restAnswer, l')) ∧
      ∀ i, ks[i]? = some .next →
        ((∃ r, (l.calls ks).1[i]? = some (some r) ∧ isLast r = true) ↔ i + 1 = n) := by
  intro l' n
  have hanswers := l.answers_calls ks
  have hfinished : l'.finished = true ↔ n ≤ ks.length := by
    show (l.calls ks).2.finished = true ↔ _
    rw [lexer_calls, finished_requests]
    omega
  refine ⟨hanswers, hfinished, fun i r => isLast_iff, fun more h => ?_, fun i hi => ?_⟩
  · rw [calls_append, calls_of_finished h]
  · have hlt : i < ks.length := (List.getElem?_eq_some_iff.1 hi).1
    -- Either a result is left for this call, or the iteration has ended before it.
    rw [l.getElem?_calls hlt, hi]
    split_ifs with hn
    · obtain ⟨r, hr⟩ : ∃ r, l.results[i]? = some r := ⟨_, List.getElem?_eq_getElem hn⟩
      rw [hr, ← isLast_iff hr]
      simp
    · refine iff_of_false ?_ (by omega)
      rintro ⟨r, hr, -⟩
      cases hr

end LexStream.Lexer
