/-!
# Range tables

A set of code points, given as a list of closed ranges in ascending order.  Membership stops at the
first range that starts beyond the code point, so a lookup among the low code points reads only the
head of its table.

Main facts: on an ascending table, `RangeTable.contains` answers membership in one of the ranges
(`RangeTable.contains_iff`), and what holds of every code point listed holds of every member
(`RangeTable.forall_of_all_codePoints`).
-/

namespace LexStream.Unicode

/-- A set of code points as closed ranges `(first, last)`. -/
abbrev RangeTable := List (Nat × Nat)

namespace RangeTable

/-- Whether `n` lies in a range of the table, read up to the first range that starts after `n`. -/
def contains : RangeTable → Nat → Bool
  | [], _ => false
  | (first, last) :: rest, n => if n < first then false else n ≤ last || contains rest n

/-- A table is ascending when every range has `first ≤ last` and ends before the next one starts. -/
def Ascending : RangeTable → Prop
  | [] => True
  | [(first, last)] => first ≤ last
  | (first, last) :: (first', last') :: rest =>
    first ≤ last ∧ last < first' ∧ Ascending ((first', last') :: rest)

instance decidableAscending : (t : RangeTable) → Decidable t.Ascending
  | [] => .isTrue trivial
  | [(first, last)] => inferInstanceAs (Decidable (first ≤ last))
  | (first, last) :: (first', last') :: rest =>
    have := decidableAscending ((first', last') :: rest)
    inferInstanceAs (Decidable (first ≤ last ∧ last < first' ∧ Ascending ((first', last') :: rest)))

theorem Ascending.tail {r : Nat × Nat} {t : RangeTable} (h : Ascending (r :: t)) : t.Ascending := by
  match t, h with
  | [], _ => trivial
  | _ :: _, h => exact h.2.2

/-- Every range `s` of an ascending table starts at or after its first one, `r`. -/
theorem Ascending.head_le {r s : Nat × Nat} {t : RangeTable} (h : Ascending (r :: t))
    (hs : s ∈ r :: t) : r.1 ≤ s.1 := by
  induction t generalizing r with
  | nil => simp_all
  | cons r' t ih =>
    rcases List.mem_cons.1 hs with rfl | hs
    · exact Nat.le_refl _
    · have h₁ : r.1 ≤ r.2 := h.1
      have h₂ : r.2 < r'.1 := h.2.1
      have h₃ := ih h.2.2 hs
      omega

/-- Membership in an ascending table `t` is membership in one of its ranges, although `contains`
reads only a part of `t`. -/
theorem contains_iff {t : RangeTable} (h : t.Ascending) (n : Nat) :
    t.contains n = true ↔ ∃ r ∈ t, r.1 ≤ n ∧ n ≤ r.2 := by
  induction t with
  | nil => simp [contains]
  | cons r t ih =>
    by_cases hn : n < r.1
    · -- Every later range starts beyond `n` as well.
      have hnone : ¬∃ s ∈ r :: t, s.1 ≤ n ∧ n ≤ s.2 := by
        rintro ⟨s, hs, hs', _⟩
        have := h.head_le hs
        omega
      simpa only [contains, hn, if_true, Bool.false_eq_true, false_iff] using hnone
    · simp only [contains, hn, if_false, Bool.or_eq_true, decide_eq_true_eq, ih h.tail,
        List.mem_cons]
      constructor
      · rintro (hle | ⟨s, hs, hb⟩)
        · exact ⟨r, .inl rfl, by omega, hle⟩
        · exact ⟨s, .inr hs, hb⟩
      · rintro ⟨s, rfl | hs, hb⟩
        · exact .inl hb.2
        · exact .inr ⟨s, hs, hb⟩

/-- The code points of the table `t`, one by one. -/
def codePoints (t : RangeTable) : List Nat :=
  t.flatMap fun r => List.range' r.1 (r.2 + 1 - r.1)

/-- What holds of every code point in `codePoints t` holds of every member of an ascending table
`t`. -/
theorem forall_of_all_codePoints {t : RangeTable} (h : t.Ascending) {p : Nat → Bool}
    (hall : t.codePoints.all p = true) {n : Nat} (hn : t.contains n = true) : p n = true := by
  obtain ⟨r, hr, hfirst, hlast⟩ := (contains_iff h n).1 hn
  refine List.all_eq_true.1 hall n (List.mem_flatMap.2 ⟨r, hr, ?_⟩)
  rw [List.mem_range'_1]
  omega

end RangeTable

end LexStream.Unicode
