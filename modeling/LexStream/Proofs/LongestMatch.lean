import LexStream.Proofs.OperatorTable
import Mathlib.Data.List.Infix

/-!
# The longest lexeme

Going down a trie finds the longest lexeme that starts a text.  The way down may go beyond it, over
nodes that end no lexeme, and then falls back; how far beyond does not matter.

`OperatorTrie.IsLongest table w found` says what is to be found, of the table alone: `found` is a
row of it that starts `w`, and no row that does is longer.

Main facts:

* `Branches.deepest_descend`: the way down finds the longest lexeme below, or gives back the best
  one so far;
* `Branches.descend_pure`: it does so wherever looking ahead just answers;
* `longestMatch_longest`: the trie of a table finds the longest lexeme of the table.
-/

namespace LexStream.OperatorTrie

/-- The match `found` is a row of the table that starts `w`, and no row that does is longer. -/
structure IsLongest (table : List (String × Token)) (w : List Char) (found : OperatorMatch) :
    Prop where
  starts : ∃ row ∈ table, row.1.toList <+: w ∧ row.1.length = found.length ∧ row.2 = found.token
  longest : ∀ row ∈ table, row.1.toList <+: w → row.1.length ≤ found.length

namespace Branches

/-! ### The way down -/

/-- What the way down along `r` finds with the runes `ahead` behind it, where `r` is `depth` runes
deep: the longest lexeme that goes on in them, or `best` if there is none. -/
inductive Deepest (b : Branches) (depth : Nat) (best : Option OperatorMatch) (r : Char)
    (ahead : List Char) : Option OperatorMatch → Prop
  | found {ws : List Char} {t : Token} (ht : b.tokenAt? (r :: ws) = some t) (hws : ws <+: ahead)
      (hlongest : ∀ vs, vs <+: ahead → b.tokenAt? (r :: vs) ≠ none → vs.length ≤ ws.length) :
      Deepest b depth best r ahead (some ⟨t, depth + ws.length⟩)
  | best (hnone : ∀ vs, vs <+: ahead → b.tokenAt? (r :: vs) = none) :
      Deepest b depth best r ahead best

namespace Deepest

variable {children siblings : Branches} {rune r next : Char} {token : Option Token} {depth : Nat}
  {best res : Option OperatorMatch} {ahead : List Char}

/-- Another branch leads to nothing that starts with `r`. -/
theorem beside (hr : rune ≠ r) (h : siblings.Deepest depth best r ahead res) :
    (node rune token children siblings).Deepest depth best r ahead res := by
  have hbeside : ∀ vs, (node rune token children siblings).tokenAt? (r :: vs) =
      siblings.tokenAt? (r :: vs) := fun vs => by rw [tokenAt?_node, if_neg hr]
  cases h with
  | found ht hws hlongest =>
    refine .found ((hbeside _).trans ht) hws fun vs hvs hne => ?_
    exact hlongest vs hvs ((hbeside vs).symm ▸ hne)
  | best hnone => exact .best fun vs hvs => (hbeside vs).trans (hnone vs hvs)

/-- Where no longer lexeme goes on along `ahead`, the node itself is the best one if it ends a
lexeme. -/
theorem here (h : ∀ vs, vs ≠ [] → vs <+: ahead → children.tokenAt? vs = none) :
    (node rune token children siblings).Deepest depth best rune ahead
      ((token.map fun t => ⟨t, depth⟩).or best) := by
  have hnode : ∀ vs, vs <+: ahead → (node rune token children siblings).tokenAt? (rune :: vs) =
      if vs = [] then token else none := by
    intro vs hvs
    rw [tokenAt?_node, if_pos rfl]
    split
    next => rfl
    next hne => exact h vs hne hvs
  cases token with
  | none =>
    refine .best fun vs hvs => ?_
    rw [hnode vs hvs, ite_self]
  | some t =>
    refine @found _ depth best rune ahead [] t ?_ List.nil_prefix fun vs hvs hne => ?_
    · rw [hnode [] List.nil_prefix, if_pos rfl]
    · by_cases hnil : vs = []
      · rw [hnil]
      · rw [hnode vs hvs, if_neg hnil] at hne
        exact absurd rfl hne

/-- What is found below the node goes on behind its `rune`, and what is best among the `children` is
best here. -/
theorem below (h : children.Deepest (depth + 1) ((token.map fun t => ⟨t, depth⟩).or best) next
      ahead res) :
    (node rune token children siblings).Deepest depth best rune (next :: ahead) res := by
  cases h with
  | @found ws t ht hws hlongest =>
    have hlength : depth + 1 + ws.length = depth + (next :: ws).length := by
      rw [List.length_cons]
      omega
    rw [hlength]
    refine .found ?_ (List.cons_prefix_cons.2 ⟨rfl, hws⟩) fun vs hvs hne => ?_
    · rw [tokenAt?_node, if_pos rfl, if_neg (by simp), ht]
    · rcases List.prefix_cons_iff.1 hvs with rfl | ⟨us, rfl, hus⟩
      · exact Nat.zero_le _
      · rw [tokenAt?_node, if_pos rfl, if_neg (by simp)] at hne
        exact Nat.succ_le_succ (hlongest us hus hne)
  | best hnone =>
    refine here fun vs hne hvs => ?_
    rcases List.prefix_cons_iff.1 hvs with rfl | ⟨us, rfl, hus⟩
    · exact absurd rfl hne
    · exact hnone us hus

end Deepest

/-- The way down by `descend` finds the longest lexeme below, or gives back the `best` one so
far. -/
theorem deepest_descend (b : Branches) (n : Nat) (best : Option OperatorMatch) (r : Char)
    (rest : List Char) :
    b.Deepest (n + 1) best r (rest.drop n)
      (b.descend (m := Id) (fun i => rest[i]?) (n + 1) best r) := by
  induction b generalizing n best r with
  | nil => exact .best fun vs _ => tokenAt?_nil _
  | node rune token children siblings ihc ihs =>
    unfold descend
    dsimp only
    by_cases hr : rune = r
    · subst hr
      rw [if_pos rfl]
      split
      next hempty =>
        -- No rune is looked at, since no lexeme goes on.
        obtain rfl : children = nil := Branches.isEmpty_iff.1 hempty
        exact .here fun vs _ _ => tokenAt?_nil vs
      next =>
        rw [Nat.add_sub_cancel]
        cases hnext : rest[n]? with
        | none =>
          have hdrop : rest.drop n = [] :=
            List.drop_eq_nil_iff.2 (List.getElem?_eq_none_iff.1 hnext)
          rw [hdrop]
          exact .here fun vs hne hvs => absurd (List.prefix_nil.1 hvs) hne
        | some next =>
          obtain ⟨hlt, hget⟩ := List.getElem?_eq_some_iff.1 hnext
          rw [List.drop_eq_getElem_cons hlt, hget]
          exact .below (ihc (n + 1) _ next)
    · rw [if_neg hr]
      exact .beside hr (ihs n best r)

/-- Where looking ahead just answers, in any lawful monad `m`, so does going down. -/
theorem descend_pure {m : Type → Type} [Monad m] [LawfulMonad m] (b : Branches) (length : Nat)
    (best : Option OperatorMatch) (r : Char) (rest : List Char) :
    b.descend (fun i => (pure rest[i]? : m (Option Char))) length best r =
      pure (b.descend (m := Id) (fun i => rest[i]?) length best r) := by
  induction b generalizing length best r with
  | nil => rfl
  | node rune token children siblings ihc ihs =>
    unfold descend
    dsimp only
    split
    · split
      · rfl
      · rw [pure_bind]
        cases rest[length - 1]? with
        | none => rfl
        | some next => exact ihc (length + 1) _ next
    · exact ihs length best r

end Branches

/-! ### Tries of a table -/

section Table

variable {table : List (String × Token)} {trie : OperatorTrie} {w : List Char}
  {found found' : OperatorMatch}

/-- Rows of a `table` that builds a trie have one kind each. -/
theorem token_eq_of_build (h : build table = .ok trie) {row row' : String × Token}
    (hrow : row ∈ table) (hrow' : row' ∈ table) (hruns : row.1.toList = row'.1.toList) :
    row.2 = row'.2 := by
  have htoken := (tokenAt?_build h row.1.toList row.2).2 ⟨row, hrow, rfl, rfl⟩
  have htoken' := (tokenAt?_build h row.1.toList row'.2).2 ⟨row', hrow', hruns.symm, rfl⟩
  exact Option.some.inj (htoken.symm.trans htoken')

/-- A `table` that builds a trie has only one longest row that starts the text `w`. -/
theorem IsLongest.unique (h : build table = .ok trie) (hfound : IsLongest table w found)
    (hfound' : IsLongest table w found') : found = found' := by
  obtain ⟨row, hrow, hpre, hlength, htoken⟩ := hfound.starts
  obtain ⟨row', hrow', hpre', hlength', htoken'⟩ := hfound'.starts
  have hle : found.length ≤ found'.length := hlength ▸ hfound'.longest row hrow hpre
  have hge : found'.length ≤ found.length := hlength' ▸ hfound.longest row' hrow' hpre'
  have hlengths : row.1.toList.length = row'.1.toList.length := by
    rw [String.length_toList, String.length_toList]
    omega
  -- Both are first parts of one text, and equally long.
  have hruns : row.1.toList = row'.1.toList :=
    (List.prefix_of_prefix_length_le hpre hpre' hlengths.le).eq_of_length hlengths
  have hkinds := token_eq_of_build h hrow hrow' hruns
  have htokens : found.token = found'.token := htoken.symm.trans (hkinds.trans htoken')
  have hlengths : found.length = found'.length := Nat.le_antisymm hle hge
  cases found
  cases found'
  exact congr (congrArg OperatorMatch.mk htokens) hlengths

/-- The rows of a `table` that start a text are the rows of runes with a kind in its `trie`. -/
theorem exists_tokenAt?_of_prefix (h : build table = .ok trie) {first : Char} {rest : List Char}
    {row : String × Token} (hrow : row ∈ table) (hpre : row.1.toList <+: first :: rest) :
    ∃ ws, row.1.toList = first :: ws ∧ ws <+: rest ∧
      trie.roots.tokenAt? (first :: ws) = some row.2 := by
  have htoken := (tokenAt?_build h row.1.toList row.2).2 ⟨row, hrow, rfl, rfl⟩
  rcases List.prefix_cons_iff.1 hpre with hnil | ⟨ws, hruns, hws⟩
  · -- No row of the table is empty.
    rw [hnil, Branches.tokenAt?_empty] at htoken
    cases htoken
  · exact ⟨ws, hruns, hws, hruns ▸ htoken⟩

/-- The `trie` of a `table` finds the longest row of it that starts the text `first :: rest`, if one
does. -/
theorem longestMatch_eq_iff (h : build table = .ok trie) (first : Char) (rest : List Char) :
    (∀ found, trie.longestMatch (m := Id) first (fun i => rest[i]?) = some found ↔
        IsLongest table (first :: rest) found) ∧
      (trie.longestMatch (m := Id) first (fun i => rest[i]?) = none ↔
        ∀ row ∈ table, ¬row.1.toList <+: first :: rest) := by
  have hdeepest : trie.roots.Deepest 1 none first rest
      (trie.longestMatch (m := Id) first fun i => rest[i]?) :=
    trie.roots.deepest_descend 0 none first rest
  generalize trie.longestMatch (m := Id) first (fun i => rest[i]?) = found? at hdeepest
  cases hdeepest with
  | @found ws t ht hws hlongest =>
    obtain ⟨row, hrow, hruns, rfl⟩ := (tokenAt?_build h _ _).1 ht
    have hpre : row.1.toList <+: first :: rest := hruns ▸ List.cons_prefix_cons.2 ⟨rfl, hws⟩
    have hlength : row.1.length = 1 + ws.length := by
      rw [← String.length_toList, hruns, List.length_cons]
      omega
    have hfound : IsLongest table (first :: rest) ⟨row.2, 1 + ws.length⟩ := by
      refine ⟨⟨row, hrow, hpre, hlength, rfl⟩, fun row' hrow' hpre' => ?_⟩
      obtain ⟨vs, hruns', hvs, htoken⟩ := exists_tokenAt?_of_prefix h hrow' hpre'
      have hle := hlongest vs hvs (by rw [htoken]; simp)
      rw [← String.length_toList, hruns', List.length_cons]
      show vs.length + 1 ≤ 1 + ws.length
      omega
    refine ⟨fun found => ⟨fun heq => ?_, fun hfound' => ?_⟩, iff_of_false (by simp) fun hnone => ?_⟩
    · exact Option.some.inj heq ▸ hfound
    · exact congrArg some (hfound.unique h hfound')
    · exact hnone row hrow hpre
  | best hnone =>
    have hnone : ∀ row ∈ table, ¬row.1.toList <+: first :: rest := by
      intro row hrow hpre
      obtain ⟨ws, -, hws, htoken⟩ := exists_tokenAt?_of_prefix h hrow hpre
      rw [hnone ws hws] at htoken
      cases htoken
    refine ⟨fun found => iff_of_false (by simp) fun hfound => ?_, iff_of_true rfl hnone⟩
    obtain ⟨row, hrow, hpre, -, -⟩ := hfound.starts
    exact hnone row hrow hpre

end Table

/-- The `trie` of a `table` finds the longest row of it that starts the text `first :: rest`, if one
does, whatever else may happen in the monad `m` where the runes are looked at. -/
theorem longestMatch_longest {table : List (String × Token)} {trie : OperatorTrie}
    (h : build table = .ok trie) (first : Char) (rest : List Char) :
    ∃ found? : Option OperatorMatch,
      (∀ (m : Type → Type) [Monad m] [LawfulMonad m],
        trie.longestMatch first (fun i => (pure rest[i]? : m (Option Char))) = pure found?) ∧
      (∀ found, found? = some found ↔ IsLongest table (first :: rest) found) ∧
      (found? = none ↔ ∀ row ∈ table, ¬row.1.toList <+: first :: rest) :=
  ⟨_, fun _ => trie.roots.descend_pure 1 none first rest, longestMatch_eq_iff h first rest⟩

/-- The way down goes over two nodes that end no lexeme and falls back over them: `longestMatch`
looks at `abce` with a table of `a`, `abcd` and `b`. -/
theorem longestMatch_longest_dead_end :
    build [("a", .add), ("abcd", .sub), ("b", .mul)] = .ok
        ⟨.node 'a' (some .add)
          (.node 'b' none (.node 'c' none (.node 'd' (some .sub) .nil .nil) .nil) .nil)
          (.node 'b' (some .mul) .nil .nil), 4⟩ ∧
      ∃ found? : Option OperatorMatch,
        (∀ (m : Type → Type) [Monad m] [LawfulMonad m],
          longestMatch ⟨.node 'a' (some .add)
            (.node 'b' none (.node 'c' none (.node 'd' (some .sub) .nil .nil) .nil) .nil)
            (.node 'b' (some .mul) .nil .nil), 4⟩ 'a'
            (fun i => (pure ['b', 'c', 'e'][i]? : m (Option Char))) = pure found?) ∧
        (∀ found, found? = some found ↔
          IsLongest [("a", .add), ("abcd", .sub), ("b", .mul)] ['a', 'b', 'c', 'e'] found) ∧
        (found? = none ↔ ∀ row ∈ [("a", Token.add), ("abcd", .sub), ("b", .mul)],
          ¬row.1.toList <+: ['a', 'b', 'c', 'e']) :=
  ⟨by decide, longestMatch_longest (by decide) 'a' ['b', 'c', 'e']⟩

end LexStream.OperatorTrie
