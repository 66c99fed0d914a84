import LexStream.Proofs.TrieShape
import Mathlib.Data.List.Infix
import Mathlib.Data.List.Nodup

/-!
# Tables and their tries

A table builds a trie if none of its lexemes is empty and no two of its rows spell the same one
(`OperatorTrie.Sound`).  Otherwise the first row that breaks this is the error
(`OperatorTrie.Offence`).  The rows are added one after the other, so what holds between two rows is
that the branches built so far are well formed and have the lexemes of the rows added so far, and no
others (`OperatorTrie.Denotes`).

The trie says nothing but what is in the table (`OperatorTrie.Represents`), and the table nothing
but what is in the trie, up to the order of its rows.

Main facts:

* `Denotes.insert`: a row that is added keeps the branches and the rows together;
* `Denotes.insertAll`: so do all rows, up to the first one that offends;
* `build_tables`: which tables build a trie, with which error the others fail, what the trie of a
  table says, and which tables have the same trie.
-/

namespace LexStream.OperatorTrie

open Branches

variable {table before behind rows : List (String × Token)} {b b' : Branches} {lexeme : String}
  {first t : Token} {r : Char} {rs v w : List Char} {trie trie' : OperatorTrie} {e : TrieError}
  {n : Node}

/-! ### Sound tables -/

/-- No row of the `table` is empty, and no two of them spell the same lexeme. -/
structure Sound (table : List (String × Token)) : Prop where
  nonempty : ∀ row ∈ table, row.1 ≠ ""
  distinct : (table.map (·.1)).Nodup

/-- The first row of a `table` that is empty or repeats a lexeme is the error.  The rows `before` it
are sound, and the `first` kind of a repeated lexeme is the one it has among these. -/
inductive Offence (table : List (String × Token)) : TrieError → Prop
  | empty {before behind : List (String × Token)} {t : Token}
      (htable : table = before ++ ("", t) :: behind) (hbefore : Sound before) :
      Offence table (.emptyLexeme t)
  | repeated {before behind : List (String × Token)} {lexeme : String} {first second : Token}
      (htable : table = before ++ (lexeme, second) :: behind) (hbefore : Sound before)
      (hfirst : (lexeme, first) ∈ before) : Offence table (.duplicateLexeme lexeme first second)

theorem sound_nil : Sound [] :=
  ⟨by simp, List.nodup_nil⟩

theorem Sound.append (h : Sound before) (hne : lexeme ≠ "")
    (hnew : ∀ first, (lexeme, first) ∉ before) : Sound (before ++ [(lexeme, t)]) where
  nonempty := by
    intro row hrow
    rcases List.mem_append.1 hrow with hrow | hrow
    · exact h.nonempty row hrow
    · rw [List.mem_singleton.1 hrow]
      exact hne
  distinct := by
    rw [List.map_append, List.nodup_append']
    refine ⟨h.distinct, List.nodup_singleton _, ?_⟩
    intro lexeme' hmem hlexeme
    obtain ⟨⟨_, first⟩, hrow, rfl⟩ := List.mem_map.1 hmem
    obtain rfl := List.mem_singleton.1 hlexeme
    exact hnew first hrow

/-- A `table` with an offence is not sound. -/
theorem Offence.not_sound (h : Offence table e) : ¬Sound table := by
  intro hsound
  cases h with
  | @empty before behind t htable =>
    have hmem : ("", t) ∈ table := by simp [htable]
    exact hsound.nonempty _ hmem rfl
  | @repeated before behind lexeme first second htable _ hfirst =>
    have hdistinct := hsound.distinct
    rw [htable, List.map_append, List.nodup_append'] at hdistinct
    have hmem : lexeme ∈ before.map (·.1) := List.mem_map_of_mem hfirst
    exact hdistinct.2.2 hmem List.mem_cons_self

/-! ### What branches denote -/

/-- The branches `b` are well formed and have the lexemes of the `rows`, each with its kind. -/
structure Denotes (b : Branches) (rows : List (String × Token)) : Prop where
  wellFormed : b.WellFormed
  tokenAt?_iff : ∀ w t, b.tokenAt? w = some t ↔ (String.ofList w, t) ∈ rows

theorem toList_eq_cons_iff : lexeme.toList = r :: rs ↔ lexeme = String.ofList (r :: rs) := by
  constructor
  · intro h
    rw [← h, String.ofList_toList]
  · rintro rfl
    exact String.toList_ofList

namespace Denotes

theorem nil : Denotes .nil [] :=
  ⟨wellFormed_nil, by simp⟩

/-- Each `lexeme` has in `b` the kind of its row. -/
theorem tokenAt?_of_mem (h : Denotes b rows) (hrow : (lexeme, t) ∈ rows) :
    b.tokenAt? lexeme.toList = some t := by
  rwa [h.tokenAt?_iff, String.ofList_toList]

/-- A row `(lexeme, t)` that is added keeps the branches and the rows together. -/
theorem insert (h : Denotes b before) (hlexeme : lexeme.toList = r :: rs)
    (hinsert : b.insert r rs t = .ok b') : Denotes b' (before ++ [(lexeme, t)]) where
  wellFormed := h.wellFormed.insert hinsert
  tokenAt?_iff := by
    intro w t'
    have hfresh := tokenAt?_eq_none_of_insert h.wellFormed.sorted hinsert
    have hnew : ∀ first, (lexeme, first) ∉ before := by
      intro first hfirst
      rw [toList_eq_cons_iff.1 hlexeme, ← h.tokenAt?_iff] at hfirst
      cases hfresh.symm.trans hfirst
    rw [tokenAt?_insert h.wellFormed.sorted hinsert, List.mem_append, List.mem_singleton,
      Prod.mk.injEq]
    by_cases hw : w = r :: rs
    · have hspelled : String.ofList w = lexeme := by rw [hw, toList_eq_cons_iff.1 hlexeme]
      rw [if_pos hw, hspelled]
      simp [hnew, eq_comm]
    · have hspelled : String.ofList w ≠ lexeme := by
        rw [toList_eq_cons_iff.1 hlexeme]
        exact fun heq => hw (String.ofList_injective heq)
      rw [if_neg hw, h.tokenAt?_iff]
      simp [hspelled]

/-- A row cannot be added where another one spells the same `lexeme`. -/
theorem insert_eq_error_iff (h : Denotes b before) (hlexeme : lexeme.toList = r :: rs) :
    b.insert r rs t = .error first ↔ (lexeme, first) ∈ before := by
  rw [Branches.insert_eq_error_iff h.wellFormed.sorted, h.tokenAt?_iff,
    ← toList_eq_cons_iff.1 hlexeme]

/-- The `rows` that are added keep the branches and the rows together, up to the first one that
offends. -/
theorem insertAll (h : Denotes b before) (hsound : Sound before) (rows : List (String × Token)) :
    (∀ b', insertAll b rows = .ok b' → Denotes b' (before ++ rows) ∧ Sound (before ++ rows)) ∧
      ∀ e, OperatorTrie.insertAll b rows = .error e → Offence (before ++ rows) e := by
  induction rows generalizing b before with
  | nil =>
    refine ⟨fun b' hb' => ?_, fun e he => ?_⟩
    · cases hb'
      rw [List.append_nil]
      exact ⟨h, hsound⟩
    · cases he
  | cons row rows ih =>
    obtain ⟨lexeme, t⟩ := row
    unfold OperatorTrie.insertAll
    split
    next hlexeme =>
      obtain rfl : lexeme = "" := String.toList_eq_nil_iff.1 hlexeme
      refine ⟨fun b' hb' => ?_, fun e he => ?_⟩
      · cases hb'
      · cases he
        exact .empty rfl hsound
    next r rs hlexeme =>
      split
      next b₁ hinsert =>
        have hne : lexeme ≠ "" := by
          rintro rfl
          cases hlexeme
        have hnew : ∀ first, (lexeme, first) ∉ before := by
          intro first hfirst
          have herror := (h.insert_eq_error_iff (t := t) hlexeme).2 hfirst
          cases herror.symm.trans hinsert
        -- The rows that are left are added to branches that denote one row more.
        have hrows := ih (h.insert hlexeme hinsert) (hsound.append hne hnew)
        rwa [List.append_cons]
      next first hinsert =>
        refine ⟨fun b' hb' => ?_, fun e he => ?_⟩
        · cases hb'
        · cases he
          exact .repeated rfl hsound ((h.insert_eq_error_iff hlexeme).1 hinsert)

end Denotes

/-- The rows `behind` others are added to what those `before` have built. -/
theorem insertAll_append (b : Branches) (before behind : List (String × Token)) :
    insertAll b (before ++ behind) = (insertAll b before).bind fun b' => insertAll b' behind := by
  fun_induction insertAll b before with
  | case1 b => rfl
  | case2 b lexeme t rows hlexeme =>
    rw [List.cons_append, insertAll, hlexeme]
    rfl
  | case3 b lexeme t rows r rs hlexeme b' hinsert ih =>
    rw [List.cons_append, insertAll, hlexeme]
    simp only [hinsert, ih]
  | case4 b lexeme t rows r rs hlexeme first hinsert =>
    rw [List.cons_append, insertAll, hlexeme]
    simp only [hinsert]
    rfl

/-! ### Which tables build a trie -/

/-- Sound rows are added without an error: `insertAll` gives branches that denote them. -/
theorem Sound.exists_denotes (h : Sound table) :
    ∃ b, insertAll .nil table = .ok b ∧ Denotes b table := by
  have hrows := Denotes.nil.insertAll sound_nil table
  cases hinsert : insertAll .nil table with
  | ok b => exact ⟨b, rfl, (hrows.1 b hinsert).1⟩
  | error e => exact absurd h (hrows.2 e hinsert).not_sound

/-- The check in `ofBranches` finds nothing in branches that are well formed. -/
theorem ofBranches_of_wellFormed (h : b.WellFormed) : ofBranches b = .ok ⟨b, b.depth⟩ := by
  unfold ofBranches
  rw [(dangling?_eq_none_iff []).2 h.live]

theorem build_of_insertAll (hinsert : insertAll .nil table = .ok b) (h : Denotes b table) :
    build table = .ok ⟨b, b.depth⟩ := by
  unfold build
  rw [hinsert]
  exact ofBranches_of_wellFormed h.wellFormed

/-- The `trie` of a `table` denotes it, and its `maxDepth` is the depth of its branches. -/
theorem denotes_of_build (h : build table = .ok trie) :
    Sound table ∧ Denotes trie.roots table ∧ trie.maxDepth = trie.roots.depth := by
  have hrows := Denotes.nil.insertAll sound_nil table
  cases hinsert : insertAll .nil table with
  | ok b =>
    obtain ⟨hdenotes, hsound⟩ := hrows.1 b hinsert
    rw [build_of_insertAll hinsert hdenotes] at h
    cases h
    exact ⟨hsound, hdenotes, rfl⟩
  | error e =>
    unfold build at h
    rw [hinsert] at h
    cases h

theorem exists_build_iff : (∃ trie, build table = .ok trie) ↔ Sound table := by
  constructor
  · rintro ⟨trie, h⟩
    exact (denotes_of_build h).1
  · intro h
    obtain ⟨b, hinsert, hdenotes⟩ := h.exists_denotes
    exact ⟨_, build_of_insertAll hinsert hdenotes⟩

/-- The error of a `table` is its offence. -/
theorem build_eq_error_iff : build table = .error e ↔ Offence table e := by
  have herror : insertAll .nil table = .error e → build table = .error e := by
    intro h
    unfold build
    rw [h]
  constructor
  · intro h
    have hrows := Denotes.nil.insertAll sound_nil table
    cases hinsert : insertAll .nil table with
    | ok b =>
      have hbuild := build_of_insertAll hinsert (hrows.1 b hinsert).1
      cases hbuild.symm.trans h
    | error e' =>
      have hoffence := hrows.2 e' hinsert
      have he' : build table = .error e' := by
        unfold build
        rw [hinsert]
      cases he'.symm.trans h
      exact hoffence
  · intro h
    refine herror ?_
    -- The rows in front of the offence are sound, so their branches are there when it comes.
    cases h with
    | @empty before behind t htable hbefore =>
      obtain ⟨b, hinsert, -⟩ := hbefore.exists_denotes
      rw [htable, insertAll_append, hinsert]
      rfl
    | @repeated before behind lexeme first second htable hbefore hfirst =>
      obtain ⟨b, hinsert, hdenotes⟩ := hbefore.exists_denotes
      have hne : lexeme.toList ≠ [] := fun hnil =>
        hbefore.nonempty _ hfirst (String.toList_eq_nil_iff.1 hnil)
      obtain ⟨r, rs, hlexeme⟩ := List.exists_cons_of_ne_nil hne
      have hrepeated := (hdenotes.insert_eq_error_iff (t := second) hlexeme).2 hfirst
      rw [htable, insertAll_append, hinsert]
      simp only [Except.bind, insertAll, hlexeme, hrepeated]

/-! ### What the trie of a table says -/

/-- The `trie` says what is in the `table`: where each row of runes leads, which kind it has there,
whether and with how many runes some lexeme goes on, and how long lexemes are. -/
structure Represents (trie : OperatorTrie) (table : List (String × Token)) : Prop where
  /-- The rows of runes `w` that lead to a node are those that start a lexeme. -/
  reaches : ∀ w, w ≠ [] →
    ((∃ n, trie.walk? w = some n) ↔ ∃ row ∈ table, w <+: row.1.toList)
  /-- A node `n` has the kind of the lexeme `w` that leads to it. -/
  token : ∀ w n, trie.walk? w = some n → ∀ t, n.token = some t ↔ (String.ofList w, t) ∈ table
  /-- A node `n` is a leaf if no lexeme goes on beyond `w`. -/
  leaf : ∀ w n, trie.walk? w = some n →
    (n.children.isEmpty = true ↔ ¬∃ row ∈ table, w <+: row.1.toList ∧ w ≠ row.1.toList)
  /-- There are as many branches below a node `n` as runes with which some lexeme goes on beyond
  `w`. -/
  width : ∀ w n, trie.walk? w = some n →
    {c | ∃ row ∈ table, w ++ [c] <+: row.1.toList}.encard = n.children.size
  /-- There are as many branches, by `size`, as runes with which some lexeme starts. -/
  size : {c | ∃ row ∈ table, [c] <+: row.1.toList}.encard = trie.size
  /-- The `trie` is as deep as its longest lexeme is long. -/
  depth : trie.maxDepth = (table.map (·.1.length)).max?.getD 0

namespace Denotes

/-- The lexemes of `b` that the runes `w` start are the rows of the `table` that `w` starts. -/
theorem exists_prefix_iff (h : Denotes b table) :
    (∃ v, b.tokenAt? (w ++ v) ≠ none) ↔ ∃ row ∈ table, w <+: row.1.toList := by
  constructor
  · rintro ⟨v, hlexeme⟩
    obtain ⟨t, ht⟩ := Option.ne_none_iff_exists'.1 hlexeme
    refine ⟨_, (h.tokenAt?_iff _ t).1 ht, v, ?_⟩
    exact String.toList_ofList.symm
  · rintro ⟨⟨lexeme, t⟩, hrow, v, hv⟩
    have ht : b.tokenAt? (w ++ v) = some t := by rw [hv, h.tokenAt?_of_mem hrow]
    exact ⟨v, by simp [ht]⟩

theorem exists_proper_prefix_iff (h : Denotes b table) :
    (∃ v, v ≠ [] ∧ b.tokenAt? (w ++ v) ≠ none) ↔
      ∃ row ∈ table, w <+: row.1.toList ∧ w ≠ row.1.toList := by
  constructor
  · rintro ⟨v, hv, hlexeme⟩
    obtain ⟨t, ht⟩ := Option.ne_none_iff_exists'.1 hlexeme
    refine ⟨_, (h.tokenAt?_iff _ t).1 ht, ?_⟩
    have htext : (String.ofList (w ++ v)).toList = w ++ v := String.toList_ofList
    rw [htext]
    exact ⟨List.prefix_append w v, fun heq => hv (List.self_eq_append_right.1 heq)⟩
  · rintro ⟨⟨lexeme, t⟩, hrow, ⟨v, hv⟩, hne⟩
    have ht : b.tokenAt? (w ++ v) = some t := by rw [hv, h.tokenAt?_of_mem hrow]
    refine ⟨v, ?_, by simp [ht]⟩
    rintro rfl
    exact hne ((List.append_nil w).symm.trans hv)

theorem length_le_depth (h : Denotes b table) (hrow : (lexeme, t) ∈ table) :
    lexeme.toList.length ≤ b.depth := by
  have ht := h.tokenAt?_of_mem hrow
  exact Branches.length_le_depth (by simp [ht])

/-- The branches `b` are as deep as the longest lexeme of the `table` is long. -/
theorem depth_eq (h : Denotes b table) : b.depth = (table.map (·.1.length)).max?.getD 0 := by
  have hle : ∀ length ∈ table.map (·.1.length), length ≤ b.depth := by
    intro length hmem
    obtain ⟨⟨lexeme, t⟩, hrow, rfl⟩ := List.mem_map.1 hmem
    have hdepth := h.length_le_depth hrow
    rwa [String.length_toList] at hdepth
  by_cases hnil : b = .nil
  · -- Without branches there is no row.
    have htable : table = [] := by
      rw [List.eq_nil_iff_forall_not_mem]
      rintro ⟨lexeme, t⟩ hrow
      have ht := h.tokenAt?_of_mem hrow
      rw [hnil, tokenAt?_nil] at ht
      cases ht
    rw [hnil, htable]
    rfl
  · obtain ⟨w, hw, hlength⟩ := h.wellFormed.exists_length_eq_depth hnil
    obtain ⟨t, ht⟩ := Option.ne_none_iff_exists'.1 hw
    have hmem : b.depth ∈ table.map (·.1.length) := by
      refine List.mem_map.2 ⟨_, (h.tokenAt?_iff w t).1 ht, ?_⟩
      rw [← String.length_toList, ← hlength]
      exact congrArg List.length String.toList_ofList
    have hmax : (table.map (·.1.length)).max? = some b.depth :=
      List.max?_eq_some_iff.2 ⟨hmem, hle⟩
    rw [hmax, Option.getD_some]

end Denotes

theorem represents_of_build (h : build table = .ok trie) : trie.Represents table := by
  obtain ⟨-, hdenotes, hdepth⟩ := denotes_of_build h
  have hformed := hdenotes.wellFormed
  refine ⟨fun w hw => ?_, fun w n hn t => ?_, fun w n hn => ?_, fun w n hn => ?_, ?_, ?_⟩
  · rw [← hdenotes.exists_prefix_iff, ← hformed.walk?_ne_none_iff hw, Option.ne_none_iff_exists']
    rfl
  · rw [← hdenotes.tokenAt?_iff, tokenAt?_of_walk? hn]
  · rw [← hdenotes.exists_proper_prefix_iff, ← hformed.children_ne_nil_iff hn, not_not,
      Branches.isEmpty_iff]
  · rw [← hformed.encard_runes hn]
    simp only [hdenotes.exists_prefix_iff]
  · have hfirst : ∀ c, (∃ row ∈ table, [c] <+: row.1.toList) ↔
        ∃ v, trie.roots.tokenAt? (c :: v) ≠ none := fun c => hdenotes.exists_prefix_iff.symm
    simp only [hfirst]
    exact hformed.encard_first_runes
  · rw [hdepth, hdenotes.depth_eq]

/-- Tables have the same trie if they have the same rows, in any order (`List.Perm`). -/
theorem eq_iff_perm {table' : List (String × Token)} (h : build table = .ok trie)
    (h' : build table' = .ok trie') : trie = trie' ↔ table.Perm table' := by
  obtain ⟨hsound, hdenotes, hdepth⟩ := denotes_of_build h
  obtain ⟨hsound', hdenotes', hdepth'⟩ := denotes_of_build h'
  have hnodup : table.Nodup := hsound.distinct.of_map _
  have hnodup' : table'.Nodup := hsound'.distinct.of_map _
  rw [List.perm_ext_iff_of_nodup hnodup hnodup']
  constructor
  · rintro rfl ⟨lexeme, t⟩
    have hrow := hdenotes.tokenAt?_iff lexeme.toList t
    have hrow' := hdenotes'.tokenAt?_iff lexeme.toList t
    rw [String.ofList_toList] at hrow hrow'
    exact hrow.symm.trans hrow'
  · intro hrows
    -- The same rows give each row of runes the same kind.
    have hroots : trie.roots = trie'.roots := by
      refine hdenotes.wellFormed.ext hdenotes'.wellFormed fun w => Option.ext fun t => ?_
      rw [hdenotes.tokenAt?_iff, hdenotes'.tokenAt?_iff, hrows]
    have hmaxDepth : trie.maxDepth = trie'.maxDepth := by rw [hdepth, hdepth', hroots]
    cases trie
    cases trie'
    exact congr (congrArg OperatorTrie.mk hroots) hmaxDepth

/-- A `table` builds a trie if it is `Sound`, and fails with its first `Offence` otherwise, never in
the check of the nodes.  The trie says what is in the table, as `Represents` puts it, and nothing
but the order of the rows is not in it. -/
theorem build_tables :
    (∀ table, ((∃ trie, build table = .ok trie) ↔ Sound table) ∧
      (∀ e, build table = .error e ↔ Offence table e) ∧
      (∀ path, build table ≠ .error (.danglingNode path)) ∧
      ∀ trie, build table = .ok trie → trie.Represents table) ∧
    ∀ table table' trie trie', build table = .ok trie → build table' = .ok trie' →
      (trie = trie' ↔ table.Perm table') := by
  refine ⟨fun table => ⟨exists_build_iff, fun e => build_eq_error_iff, fun path h => ?_, fun trie =>
    represents_of_build⟩, fun table table' trie trie' => eq_iff_perm⟩
  -- No offence is a node that leads to no lexeme.
  cases build_eq_error_iff.1 h

/-- Two lexemes share their first rune, and one goes on over a node that ends none.  The rows of the
`table` in another order have the same trie, and with the longer lexeme once more they have none. -/
theorem build_tables_shared_prefix :
    let table : List (String × Token) := [("a", .add), ("abc", .sub), ("b", .mul)]
    let table' : List (String × Token) := [("b", .mul), ("abc", .sub), ("a", .add)]
    let trie : OperatorTrie :=
      ⟨.node 'a' (some .add) (.node 'b' none (.node 'c' (some .sub) .nil .nil) .nil)
        (.node 'b' (some .mul) .nil .nil), 3⟩
    build table = .ok trie ∧ build table' = .ok trie ∧ trie.Represents table ∧ table.Perm table' ∧
      Offence (table ++ [("abc", .div), ("", .add)]) (.duplicateLexeme "abc" .sub .div) := by
  intro table table' trie
  have hbuild : build table = .ok trie := by decide
  have hbuild' : build table' = .ok trie := by decide
  have herror : build (table ++ [("abc", .div), ("", .add)]) =
      .error (.duplicateLexeme "abc" .sub .div) := by decide
  obtain ⟨htables, htries⟩ := build_tables
  exact ⟨hbuild, hbuild', (htables table).2.2.2 trie hbuild,
    (htries table table' trie trie hbuild hbuild').1 rfl, ((htables _).2.1 _).1 herror⟩

end LexStream.OperatorTrie
