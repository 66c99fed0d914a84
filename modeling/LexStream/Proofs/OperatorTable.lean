import LexStream.OperatorTrie
import Mathlib.Data.Char

/-!
# What a trie denotes

A trie read as a table again: `OperatorTrie.Branches.tokenAt?` is the kind that a row of runes has
in it.  The branches below a node stand in ascending order of their runes (`Branches.Sorted`), which
adding a lexeme keeps, so no branch is hidden behind another one for the same rune.

Main facts:

* `Branches.tokenAt?_insert`: adding a lexeme gives this row its kind and leaves the others alone;
* `tokenAt?_build`: the rows with a kind in a trie are those of the table it was built from.
-/

namespace LexStream.OperatorTrie

namespace Branches

@[simp] theorem isEmpty_iff {b : Branches} : b.isEmpty = true ↔ b = nil := by
  cases b <;> simp [isEmpty]

/-- The kind that the row of runes `w` has in `b`, if it is a lexeme. -/
def tokenAt? (b : Branches) (w : List Char) : Option Token :=
  (b.walk? w).bind (·.token)

@[simp] theorem tokenAt?_empty (b : Branches) : b.tokenAt? [] = none := by
  unfold tokenAt? walk?
  rfl

@[simp] theorem tokenAt?_nil (w : List Char) : nil.tokenAt? w = none := by
  unfold tokenAt?
  fun_cases walk? nil w <;> simp [find?]

/-- The first rune `r` of a row chooses the branch. -/
theorem tokenAt?_node (rune : Char) (token : Option Token) (children siblings : Branches) (r : Char)
    (rs : List Char) :
    (node rune token children siblings).tokenAt? (r :: rs) =
      if rune = r then if rs = [] then token else children.tokenAt? rs
      else siblings.tokenAt? (r :: rs) := by
  unfold tokenAt?
  cases rs with
  | nil =>
    simp only [walk?, find?]
    split <;> simp
  | cons r' rs =>
    simp only [walk?, find?]
    split <;> simp

/-! ### Ascending branches -/

/-- Every branch stands behind the rune `r`. -/
def Above (r : Char) : Branches → Prop
  | .nil => True
  | .node rune _ _ siblings => r < rune ∧ siblings.Above r

/-- The branches ascend by their runes, below every node. -/
def Sorted : Branches → Prop
  | .nil => True
  | .node rune _ children siblings => children.Sorted ∧ siblings.Sorted ∧ siblings.Above rune

theorem Above.tokenAt?_eq_none {b : Branches} {r : Char} (h : b.Above r) (rs : List Char) :
    b.tokenAt? (r :: rs) = none := by
  induction b with
  | nil => simp
  | node rune token children siblings _ ih =>
    have hlt : r < rune := h.1
    rw [tokenAt?_node, if_neg (ne_of_gt hlt), ih h.2]

theorem Above.trans {b : Branches} {q r : Char} (hqr : q < r) (h : b.Above r) : b.Above q := by
  induction b with
  | nil => trivial
  | node rune token children siblings _ ih =>
    have hlt : r < rune := h.1
    exact ⟨lt_trans hqr hlt, ih h.2⟩

/-! ### A single way down -/

variable {r : Char} {rs : List Char} {t : Token} {b : Branches}

theorem above_path {q : Char} (hqr : q < r) (h : b.Above q) : (path r rs t b).Above q := by
  cases rs with
  | nil => exact ⟨hqr, h⟩
  | cons r' rs => exact ⟨hqr, h⟩

theorem sorted_path (hb : b.Sorted) (h : b.Above r) : (path r rs t b).Sorted := by
  induction rs generalizing r b with
  | nil => exact ⟨trivial, hb, h⟩
  | cons r' rs ih => exact ⟨ih trivial trivial, hb, h⟩

theorem tokenAt?_path (q : Char) (ws : List Char) :
    (path r rs t b).tokenAt? (q :: ws) =
      if q = r then if ws = rs then some t else none else b.tokenAt? (q :: ws) := by
  induction rs generalizing r q b ws with
  | nil =>
    rw [path, tokenAt?_node, tokenAt?_nil]
    simp only [eq_comm]
  | cons r' rs ih =>
    rw [path, tokenAt?_node]
    cases ws with
    | nil => simp [eq_comm]
    | cons q' ws =>
      rw [ih, tokenAt?_nil]
      by_cases hq : q' = r'
      · simp [hq, eq_comm]
      · have : ¬(r' = q' ∧ rs = ws) := fun h => hq h.1.symm
        simp [hq, this, eq_comm]

/-! ### Adding a lexeme -/

theorem map_eq_ok {ε α β : Type} {x : Except ε α} {f : α → β} {y : β} (h : x.map f = .ok y) :
    ∃ a, x = .ok a ∧ y = f a := by
  cases x with
  | error e => cases h
  | ok a => cases h; exact ⟨a, rfl, rfl⟩

theorem above_insert {q : Char} {b' : Branches} (hqr : q < r) (hb : b.Above q)
    (h : b.insert r rs t = .ok b') : b'.Above q := by
  fun_induction insert r rs t b generalizing b' with
  | case1 r rs => cases h; exact above_path hqr trivial
  | case2 => cases h; exact hb
  | case3 => cases h
  | case4 rune token children siblings r' rs _ =>
    obtain ⟨children', -, rfl⟩ := map_eq_ok h
    exact hb
  | case5 => cases h; exact above_path hqr hb
  | case6 r rs rune token children siblings hne hnlt ih =>
    obtain ⟨siblings', hs, rfl⟩ := map_eq_ok h
    exact ⟨hb.1, ih hqr hb.2 hs⟩

theorem sorted_insert {b' : Branches} (hb : b.Sorted) (h : b.insert r rs t = .ok b') :
    b'.Sorted := by
  fun_induction insert r rs t b generalizing b' with
  | case1 r rs => cases h; exact sorted_path trivial trivial
  | case2 => cases h; exact hb
  | case3 => cases h
  | case4 rune token children siblings r' rs ih =>
    obtain ⟨children', hc, rfl⟩ := map_eq_ok h
    exact ⟨ih hb.1 hc, hb.2⟩
  | case5 r rs rune token children siblings hne hlt =>
    cases h
    exact sorted_path hb ⟨hlt, hb.2.2.trans hlt⟩
  | case6 r rs rune token children siblings hne hnlt ih =>
    obtain ⟨siblings', hs, rfl⟩ := map_eq_ok h
    have hlt : rune < r := lt_of_le_of_ne (not_lt.1 hnlt) (Ne.symm hne)
    exact ⟨hb.1, ih hb.2.1 hs, above_insert hlt hb.2.2 hs⟩

/-- A lexeme `r :: rs` that is added by `insert` had no kind before. -/
theorem tokenAt?_eq_none_of_insert {b' : Branches} (hb : b.Sorted)
    (h : b.insert r rs t = .ok b') : b.tokenAt? (r :: rs) = none := by
  fun_induction insert r rs t b generalizing b' with
  | case1 r rs => simp
  | case2 => simp [tokenAt?_node]
  | case3 => cases h
  | case4 rune token children siblings r' rs ih =>
    obtain ⟨children', hc, rfl⟩ := map_eq_ok h
    rw [tokenAt?_node, if_pos rfl, if_neg (by simp), ih hb.1 hc]
  | case5 r rs rune token children siblings hne hlt =>
    rw [tokenAt?_node, if_neg (Ne.symm hne)]
    exact (hb.2.2.trans hlt).tokenAt?_eq_none rs
  | case6 r rs rune token children siblings hne hnlt ih =>
    obtain ⟨siblings', hs, rfl⟩ := map_eq_ok h
    rw [tokenAt?_node, if_neg (Ne.symm hne), ih hb.2.1 hs]

/-- Adding a lexeme gives the row `r :: rs` the kind `t` and leaves every other row `w` alone. -/
theorem tokenAt?_insert {b' : Branches} (hb : b.Sorted) (h : b.insert r rs t = .ok b')
    (w : List Char) : b'.tokenAt? w = if w = r :: rs then some t else b.tokenAt? w := by
  cases w with
  | nil => simp
  | cons q ws =>
    fun_induction insert r rs t b generalizing b' q ws with
    | case1 r rs =>
      cases h
      rw [tokenAt?_path, tokenAt?_nil]
      by_cases hq : q = r <;> simp [hq]
    | case2 rune children siblings =>
      cases h
      simp only [tokenAt?_node]
      by_cases hq : rune = q
      · subst hq
        by_cases hws : ws = [] <;> simp [hws]
      · simp [hq, Ne.symm hq]
    | case3 => cases h
    | case4 rune token children siblings r' rs ih =>
      obtain ⟨children', hc, rfl⟩ := map_eq_ok h
      simp only [tokenAt?_node]
      by_cases hq : rune = q
      · subst hq
        cases ws with
        | nil => simp
        | cons q' ws => simp [ih hb.1 hc]
      · simp [hq, Ne.symm hq]
    | case5 r rs rune token children siblings hne hlt =>
      cases h
      rw [tokenAt?_path]
      by_cases hq : q = r
      · subst hq
        rw [tokenAt?_node, if_neg (Ne.symm hne), (hb.2.2.trans hlt).tokenAt?_eq_none ws]
        simp
      · simp [hq]
    | case6 r rs rune token children siblings hne hnlt ih =>
      obtain ⟨siblings', hs, rfl⟩ := map_eq_ok h
      simp only [tokenAt?_node]
      by_cases hq : rune = q
      · subst hq
        simp [Ne.symm hne]
      · simp only [if_neg hq]
        exact ih hb.2.1 hs q ws

end Branches

/-! ### Tries of a table -/

open Branches

theorem tokenAt?_insertAll {b b' : Branches} {table : List (String × Token)} (hb : b.Sorted)
    (h : insertAll b table = .ok b') (w : List Char) (t : Token) :
    b'.tokenAt? w = some t ↔
      (∃ row ∈ table, row.1.toList = w ∧ row.2 = t) ∨ b.tokenAt? w = some t := by
  fun_induction insertAll b table with
  | case1 b => cases h; simp
  | case2 => cases h
  | case3 b lexeme kind table r rs hruns b₁ hinsert ih =>
    rw [ih (sorted_insert hb hinsert) h, tokenAt?_insert hb hinsert]
    have hfresh := tokenAt?_eq_none_of_insert hb hinsert
    by_cases hw : w = r :: rs
    · subst hw
      simp [hruns, hfresh, or_comm]
    · have hne : lexeme.toList ≠ w := fun heq => hw (heq.symm.trans hruns)
      simp [hw, hne]
  | case4 => cases h

/-- The rows of runes that have a kind in a `trie` are those of the `table` it was built from. -/
theorem tokenAt?_build {table : List (String × Token)} {trie : OperatorTrie}
    (h : build table = .ok trie) (w : List Char) (t : Token) :
    trie.roots.tokenAt? w = some t ↔ ∃ row ∈ table, row.1.toList = w ∧ row.2 = t := by
  unfold build at h
  split at h
  next b hb =>
    unfold ofBranches at h
    split at h
    next => cases h; simpa using tokenAt?_insertAll (b := .nil) trivial hb w t
    next => cases h
  next => cases h

/-- The rows of `Token.operators` are those that have a kind in their trie `standard`. -/
theorem tokenAt?_standard (w : List Char) (t : Token) :
    standard.roots.tokenAt? w = some t ↔ ∃ row ∈ Token.operators, row.1.toList = w ∧ row.2 = t :=
  tokenAt?_build build_operators w t

end LexStream.OperatorTrie
