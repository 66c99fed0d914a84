import LexStream.Proofs.OperatorTable
import Mathlib.Data.Set.Card

/-!
# The shape of tries

Branches are well formed if they ascend, and if every branch leads to a lexeme, which is what the
trie of a table is checked for.  Adding a lexeme keeps them so.  Well formed branches have nothing
in them that their lexemes do not say: where the way along a row of runes leads, whether it goes on
and with how many runes, and how deep it may become.  So there is only one way to write down a set
of lexemes (`Branches.WellFormed.ext`).

Main facts:

* `Branches.dangling?_eq_none_iff`: the check finds a branch that leads to no lexeme if there is
  one;
* `Branches.WellFormed.insert`: adding a lexeme keeps branches well formed;
* `Branches.WellFormed.walk?_ne_none_iff`: the rows of runes that lead to a node are those that
  start a lexeme;
* `Branches.WellFormed.encard_runes`, `Branches.WellFormed.exists_length_eq_depth`: how many
  branches there are, and how deep they are;
* `Branches.WellFormed.ext`: well formed branches with the same lexemes are the same.
-/

namespace LexStream.OperatorTrie.Branches

variable {b b' children siblings : Branches} {rune r : Char} {rs v w : List Char}
  {token : Option Token} {t : Token} {n : Node}

/-! ### Live branches -/

/-- Every branch leads to a lexeme: its node ends one or goes on to `children`. -/
def Live : Branches → Prop
  | .nil => True
  | .node _ token children siblings =>
    (token ≠ none ∨ children ≠ .nil) ∧ children.Live ∧ siblings.Live

/-- The check `dangling?` finds a branch that leads to no lexeme if there is one. -/
theorem dangling?_eq_none_iff (path : List Char) : b.dangling? path = none ↔ b.Live := by
  induction b generalizing path with
  | nil => exact iff_of_true rfl trivial
  | node rune token children siblings ihc ihs =>
    unfold dangling? Live
    by_cases hdead : token = none ∧ children = nil
    · obtain ⟨rfl, rfl⟩ := hdead
      simp [isEmpty]
    · have hleads : token ≠ none ∨ children ≠ nil := not_and_or.1 hdead
      have hcheck : (token.isNone && children.isEmpty) = false := by
        refine eq_false_of_ne_true fun hcheck => hdead ?_
        simpa using hcheck
      simp [hcheck, hleads, Option.or_eq_none_iff, ihc, ihs]

theorem path_ne_nil : path r rs t b ≠ nil := by
  cases rs <;> simp [path]

theorem live_path (hb : b.Live) : (path r rs t b).Live := by
  induction rs generalizing r b with
  | nil => exact ⟨.inl (Option.some_ne_none t), trivial, hb⟩
  | cons r' rs ih => exact ⟨.inr path_ne_nil, ih trivial, hb⟩

theorem ne_nil_of_insert (h : b.insert r rs t = .ok b') : b' ≠ nil := by
  fun_induction insert r rs t b with
  | case1 => cases h; exact path_ne_nil
  | case2 => cases h; simp
  | case3 => cases h
  | case4 =>
    obtain ⟨children', -, rfl⟩ := map_eq_ok h
    simp
  | case5 => cases h; exact path_ne_nil
  | case6 =>
    obtain ⟨siblings', -, rfl⟩ := map_eq_ok h
    simp

theorem live_insert (hb : b.Live) (h : b.insert r rs t = .ok b') : b'.Live := by
  fun_induction insert r rs t b generalizing b' with
  | case1 => cases h; exact live_path trivial
  | case2 => cases h; exact ⟨.inl (Option.some_ne_none t), hb.2⟩
  | case3 => cases h
  | case4 rune token children siblings r' rs ih =>
    obtain ⟨children', hc, rfl⟩ := map_eq_ok h
    exact ⟨.inr (ne_nil_of_insert hc), ih hb.2.1 hc, hb.2.2⟩
  | case5 => cases h; exact live_path hb
  | case6 r rs rune token children siblings hne hnlt ih =>
    obtain ⟨siblings', hs, rfl⟩ := map_eq_ok h
    exact ⟨hb.1, hb.2.1, ih hb.2.2 hs⟩

/-- Branches that are `Live` and not `nil` have a lexeme below them. -/
theorem Live.exists_lexeme (hb : b.Live) (hne : b ≠ nil) : ∃ w, b.tokenAt? w ≠ none := by
  induction b with
  | nil => exact absurd rfl hne
  | node rune token children siblings ihc _ =>
    obtain ⟨htoken | hchildren, hc, -⟩ := hb
    · refine ⟨[rune], ?_⟩
      rwa [tokenAt?_node, if_pos rfl, if_pos rfl]
    · obtain ⟨w, hw⟩ := ihc hc hchildren
      have hwne : w ≠ [] := by
        rintro rfl
        exact hw (tokenAt?_empty children)
      refine ⟨rune :: w, ?_⟩
      rwa [tokenAt?_node, if_pos rfl, if_neg hwne]

/-! ### Well formed branches -/

/-- The branches `b` ascend, and every one leads to a lexeme. -/
structure WellFormed (b : Branches) : Prop where
  sorted : b.Sorted
  live : b.Live

theorem wellFormed_nil : nil.WellFormed :=
  ⟨trivial, trivial⟩

theorem wellFormed_node_iff : (node rune token children siblings).WellFormed ↔
    (token ≠ none ∨ children ≠ nil) ∧ children.WellFormed ∧ siblings.WellFormed ∧
      siblings.Above rune := by
  constructor
  · rintro ⟨⟨hc, hs, habove⟩, hleads, hc', hs'⟩
    exact ⟨hleads, ⟨hc, hc'⟩, ⟨hs, hs'⟩, habove⟩
  · rintro ⟨hleads, ⟨hc, hc'⟩, ⟨hs, hs'⟩, habove⟩
    exact ⟨⟨hc, hs, habove⟩, hleads, hc', hs'⟩

theorem WellFormed.insert (hb : b.WellFormed) (h : b.insert r rs t = .ok b') : b'.WellFormed :=
  ⟨sorted_insert hb.sorted h, live_insert hb.live h⟩

/-- A lexeme `r :: rs` cannot be added where it has the kind `first` already, and otherwise it
can. -/
theorem insert_eq_error_iff (hb : b.Sorted) {first : Token} :
    b.insert r rs t = .error first ↔ b.tokenAt? (r :: rs) = some first := by
  -- The lexeme is added along the way on which its kind is looked up.
  have herror : ∀ first, b.insert r rs t = .error first → b.tokenAt? (r :: rs) = some first := by
    intro first h
    fun_induction Branches.insert r rs t b with
    | case1 => cases h
    | case2 => cases h
    | case3 => cases h; simp [tokenAt?_node]
    | case4 rune token children siblings r' rs ih =>
      have hc : children.insert r' rs t = .error first := by
        cases hinsert : children.insert r' rs t with
        | error e => rw [hinsert] at h; cases h; rfl
        | ok c => rw [hinsert] at h; cases h
      rw [tokenAt?_node, if_pos rfl, if_neg (List.cons_ne_nil r' rs), ih hb.1 hc]
    | case5 => cases h
    | case6 r rs rune token children siblings hne hnlt ih =>
      have hs : siblings.insert r rs t = .error first := by
        cases hinsert : siblings.insert r rs t with
        | error e => rw [hinsert] at h; cases h; rfl
        | ok s => rw [hinsert] at h; cases h
      rw [tokenAt?_node, if_neg (Ne.symm hne), ih hb.2.1 hs]
  -- A lexeme that could be added would have had no kind.
  refine ⟨herror first, fun htoken => ?_⟩
  cases hinsert : b.insert r rs t with
  | ok b' =>
    have hnone := tokenAt?_eq_none_of_insert hb hinsert
    cases hnone.symm.trans htoken
  | error first' =>
    have hsome := herror first' hinsert
    rw [Option.some.inj (hsome.symm.trans htoken)]

/-! ### Ways down -/

theorem find?_node : (node rune token children siblings).find? r =
    if rune = r then some ⟨token, children⟩ else siblings.find? r := rfl

theorem walk?_cons (b : Branches) (r : Char) (rs : List Char) :
    b.walk? (r :: rs) =
      (b.find? r).bind fun n => if rs = [] then some n else n.children.walk? rs := by
  cases rs with
  | nil => simp [walk?]
  | cons r' rs => simp [walk?]

/-- The way along `w ++ v` goes on from the node that `w` leads to. -/
theorem walk?_append (hw : w ≠ []) (hv : v ≠ []) :
    b.walk? (w ++ v) = (b.walk? w).bind fun n => n.children.walk? v := by
  induction w generalizing b with
  | nil => exact absurd rfl hw
  | cons r rs ih =>
    rw [List.cons_append, walk?_cons, walk?_cons, Option.bind_assoc]
    congr 1
    funext n
    by_cases hrs : rs = []
    · simp [hrs, hv]
    · have hne : rs ++ v ≠ [] := by simp [hrs]
      rw [if_neg hne, if_neg hrs, ih hrs]

theorem tokenAt?_append (hw : w ≠ []) (hv : v ≠ []) :
    b.tokenAt? (w ++ v) = (b.walk? w).bind fun n => n.children.tokenAt? v := by
  unfold tokenAt?
  rw [walk?_append hw hv, Option.bind_assoc]

theorem ne_nil_of_tokenAt? (h : b.tokenAt? w ≠ none) : w ≠ [] := by
  rintro rfl
  exact h (tokenAt?_empty b)

theorem ne_nil_of_walk? (h : b.walk? w = some n) : w ≠ [] := by
  rintro rfl
  cases h

theorem tokenAt?_of_walk? (h : b.walk? w = some n) : b.tokenAt? w = n.token := by
  rw [tokenAt?, h]
  rfl

namespace WellFormed

theorem of_find? (hb : b.WellFormed) (h : b.find? r = some n) :
    n.children.WellFormed ∧ (n.token ≠ none ∨ n.children ≠ nil) := by
  induction b with
  | nil => cases h
  | node rune token children siblings _ ih =>
    obtain ⟨hleads, hc, hs, -⟩ := wellFormed_node_iff.1 hb
    rw [find?_node] at h
    split at h
    · cases h
      exact ⟨hc, hleads⟩
    · exact ih hs h

/-- What is below a node `n` is well formed, and the node ends a lexeme or goes on. -/
theorem of_walk? (hb : b.WellFormed) (h : b.walk? w = some n) :
    n.children.WellFormed ∧ (n.token ≠ none ∨ n.children ≠ nil) := by
  induction w generalizing b with
  | nil => cases h
  | cons r rs ih =>
    rw [walk?_cons, Option.bind_eq_some_iff] at h
    obtain ⟨n₁, hfind, h⟩ := h
    have hn₁ := hb.of_find? hfind
    split at h
    · cases h
      exact hn₁
    · exact ih hn₁.1 h

/-- A node `n` goes on just where some lexeme does, beyond the runes `w` that lead to `n`. -/
theorem children_ne_nil_iff (hb : b.WellFormed) (h : b.walk? w = some n) :
    n.children ≠ nil ↔ ∃ v, v ≠ [] ∧ b.tokenAt? (w ++ v) ≠ none := by
  have hw := ne_nil_of_walk? h
  constructor
  · intro hne
    obtain ⟨v, hlexeme⟩ := (hb.of_walk? h).1.live.exists_lexeme hne
    have hv := ne_nil_of_tokenAt? hlexeme
    refine ⟨v, hv, ?_⟩
    rwa [tokenAt?_append hw hv, h]
  · rintro ⟨v, hv, hlexeme⟩ hnil
    rw [tokenAt?_append hw hv, h, Option.bind_some, hnil, tokenAt?_nil] at hlexeme
    exact hlexeme rfl

/-- The rows of runes `w` that lead to a node are those that start a lexeme. -/
theorem walk?_ne_none_iff (hb : b.WellFormed) (hw : w ≠ []) :
    b.walk? w ≠ none ↔ ∃ v, b.tokenAt? (w ++ v) ≠ none := by
  constructor
  · intro hwalk
    obtain ⟨n, hn⟩ := Option.ne_none_iff_exists'.1 hwalk
    obtain ⟨-, htoken | hchildren⟩ := hb.of_walk? hn
    · refine ⟨[], ?_⟩
      rwa [List.append_nil, tokenAt?_of_walk? hn]
    · obtain ⟨v, -, hlexeme⟩ := (hb.children_ne_nil_iff hn).1 hchildren
      exact ⟨v, hlexeme⟩
  · rintro ⟨v, hlexeme⟩ hnone
    by_cases hv : v = []
    · rw [hv, List.append_nil, tokenAt?, hnone] at hlexeme
      exact hlexeme rfl
    · rw [tokenAt?_append hw hv, hnone] at hlexeme
      exact hlexeme rfl

end WellFormed

/-! ### Numbers of branches -/

theorem Above.find?_eq_none (h : b.Above r) : b.find? r = none := by
  induction b with
  | nil => rfl
  | node rune token children siblings _ ih =>
    have hlt : r < rune := h.1
    rw [find?_node, if_neg (ne_of_gt hlt), ih h.2]

/-- There are as many branches, by `size`, as runes that lead to one. -/
theorem Sorted.encard_runes (hb : b.Sorted) : {c | b.find? c ≠ none}.encard = b.size := by
  induction b with
  | nil =>
    have hempty : {c | nil.find? c ≠ none} = ∅ := by
      ext c
      simp [find?]
    rw [hempty, Set.encard_empty]
    rfl
  | node rune token children siblings _ ih =>
    -- The runes ascend, so the first one is not met again.
    have hnew : rune ∉ {c | siblings.find? c ≠ none} := by
      intro hrune
      exact hrune hb.2.2.find?_eq_none
    have hinsert : {c | (node rune token children siblings).find? c ≠ none} =
        Insert.insert rune {c | siblings.find? c ≠ none} := by
      ext c
      simp only [find?_node, Set.mem_ofPred_eq, Set.mem_insert_iff, eq_comm (a := c)]
      split_ifs with hc <;> simp [hc]
    rw [hinsert, Set.encard_insert_of_notMem hnew, ih hb.2.1]
    exact (Nat.cast_succ siblings.size).symm

/-- Below a node `n` there are as many branches as runes with which some lexeme goes on beyond
`w`. -/
theorem WellFormed.encard_runes (hb : b.WellFormed) (h : b.walk? w = some n) :
    {c | ∃ v, b.tokenAt? (w ++ [c] ++ v) ≠ none}.encard = n.children.size := by
  rw [← (hb.of_walk? h).1.sorted.encard_runes]
  congr 1
  ext c
  have hne : w ++ [c] ≠ [] := by simp
  have hwalk : b.walk? (w ++ [c]) = n.children.find? c := by
    rw [walk?_append (ne_nil_of_walk? h) (List.cons_ne_nil c []), h]
    rfl
  rw [Set.mem_ofPred_eq, Set.mem_ofPred_eq, ← hb.walk?_ne_none_iff hne, hwalk]

/-- There are as many branches, by `size`, as runes with which some lexeme starts. -/
theorem WellFormed.encard_first_runes (hb : b.WellFormed) :
    {c | ∃ v, b.tokenAt? (c :: v) ≠ none}.encard = b.size := by
  rw [← hb.sorted.encard_runes]
  congr 1
  ext c
  exact (hb.walk?_ne_none_iff (List.cons_ne_nil c [])).symm

/-! ### Depths -/

/-- No lexeme `w` is longer than the branches are deep. -/
theorem length_le_depth (h : b.tokenAt? w ≠ none) : w.length ≤ b.depth := by
  induction b generalizing w with
  | nil => exact absurd (tokenAt?_nil w) h
  | node rune token children siblings ihc ihs =>
    have hdepth : (node rune token children siblings).depth =
        max (children.depth + 1) siblings.depth := rfl
    obtain ⟨q, ws, rfl⟩ := List.exists_cons_of_ne_nil (ne_nil_of_tokenAt? h)
    rw [tokenAt?_node] at h
    rw [hdepth, List.length_cons]
    split_ifs at h with hq hws
    · subst hws
      exact le_max_of_le_left (Nat.le_add_left 1 _)
    · exact le_max_of_le_left (Nat.succ_le_succ (ihc h))
    · have hle := ihs h
      rw [List.length_cons] at hle
      exact le_max_of_le_right hle

/-- Some lexeme `w` is as long as the branches are deep. -/
theorem WellFormed.exists_length_eq_depth (hb : b.WellFormed) (hne : b ≠ nil) :
    ∃ w, b.tokenAt? w ≠ none ∧ w.length = b.depth := by
  induction b with
  | nil => exact absurd rfl hne
  | node rune token children siblings ihc ihs =>
    obtain ⟨hleads, hc, hs, habove⟩ := wellFormed_node_iff.1 hb
    have hdepth : (node rune token children siblings).depth =
        max (children.depth + 1) siblings.depth := rfl
    rw [hdepth]
    by_cases hdeeper : siblings.depth ≤ children.depth + 1
    · rw [max_eq_left hdeeper]
      -- The lexeme ends at the node itself where nothing goes on.
      by_cases hnil : children = nil
      · have htoken : token ≠ none := hleads.resolve_right (not_not.2 hnil)
        refine ⟨[rune], ?_, by rw [hnil]; rfl⟩
        rwa [tokenAt?_node, if_pos rfl, if_pos rfl]
      · obtain ⟨w, hw, hlength⟩ := ihc hc hnil
        refine ⟨rune :: w, ?_, by rw [List.length_cons, hlength]⟩
        rwa [tokenAt?_node, if_pos rfl, if_neg (ne_nil_of_tokenAt? hw)]
    · have hdeeper : children.depth + 1 ≤ siblings.depth := by omega
      rw [max_eq_right hdeeper]
      have hsiblings : siblings ≠ nil := by
        rintro rfl
        exact Nat.not_succ_le_zero _ hdeeper
      obtain ⟨w, hw, hlength⟩ := ihs hs hsiblings
      refine ⟨w, ?_, hlength⟩
      obtain ⟨q, ws, rfl⟩ := List.exists_cons_of_ne_nil (ne_nil_of_tokenAt? hw)
      have hq : rune ≠ q := by
        rintro rfl
        exact hw (habove.tokenAt?_eq_none ws)
      rwa [tokenAt?_node, if_neg hq]

/-! ### One trie for a set of lexemes -/

/-- The first branch is the one for the least rune that starts a lexeme: with the same lexemes,
`rune` is not less than `rune'`. -/
theorem WellFormed.not_lt_of_tokenAt? {rune' : Char} {token' : Option Token}
    {children' siblings' : Branches} (hb : (node rune token children siblings).WellFormed)
    (hb' : (node rune' token' children' siblings').WellFormed)
    (h : ∀ w, (node rune token children siblings).tokenAt? w =
      (node rune' token' children' siblings').tokenAt? w) : ¬rune < rune' := by
  intro hlt
  obtain ⟨-, -, -, habove'⟩ := wellFormed_node_iff.1 hb'
  have hwalk : (node rune token children siblings).walk? [rune] = some ⟨token, children⟩ :=
    if_pos rfl
  obtain ⟨v, hlexeme⟩ := (hb.walk?_ne_none_iff (List.cons_ne_nil rune [])).1 (by simp [hwalk])
  -- All the other branches would stand behind this rune, and yet some lexeme starts with it.
  have hfirst : (node rune' token' children' siblings').Above rune := ⟨hlt, habove'.trans hlt⟩
  exact hlexeme ((h _).trans (hfirst.tokenAt?_eq_none v))

/-- Well formed branches `b` and `b'` with the same lexemes are the same. -/
theorem WellFormed.ext (hb : b.WellFormed) (hb' : b'.WellFormed)
    (h : ∀ w, b.tokenAt? w = b'.tokenAt? w) : b = b' := by
  induction b generalizing b' with
  | nil =>
    by_contra hne
    obtain ⟨w, hw⟩ := hb'.live.exists_lexeme (Ne.symm hne)
    exact hw ((h w).symm.trans (tokenAt?_nil w))
  | node rune token children siblings ihc ihs =>
    cases b' with
    | nil =>
      obtain ⟨w, hw⟩ := hb.live.exists_lexeme (by simp)
      exact absurd ((h w).trans (tokenAt?_nil w)) hw
    | node rune' token' children' siblings' =>
      obtain ⟨-, hc, hs, habove⟩ := wellFormed_node_iff.1 hb
      obtain ⟨-, hc', hs', habove'⟩ := wellFormed_node_iff.1 hb'
      obtain rfl : rune = rune' := by
        have hge := hb.not_lt_of_tokenAt? hb' h
        have hle := hb'.not_lt_of_tokenAt? hb fun w => (h w).symm
        exact le_antisymm (not_lt.1 hle) (not_lt.1 hge)
      have htoken : token = token' := by
        have hhere := h [rune]
        rwa [tokenAt?_node, tokenAt?_node, if_pos rfl, if_pos rfl, if_pos rfl, if_pos rfl] at hhere
      have hbelow : ∀ w, children.tokenAt? w = children'.tokenAt? w := by
        intro w
        by_cases hw : w = []
        · rw [hw, tokenAt?_empty, tokenAt?_empty]
        · have hbehind := h (rune :: w)
          rwa [tokenAt?_node, tokenAt?_node, if_pos rfl, if_pos rfl, if_neg hw, if_neg hw]
            at hbehind
      have hbeside : ∀ w, siblings.tokenAt? w = siblings'.tokenAt? w := by
        intro w
        cases w with
        | nil => rw [tokenAt?_empty, tokenAt?_empty]
        | cons q ws =>
          by_cases hq : rune = q
          · -- No branch beside the first one is for its rune.
            rw [← hq, habove.tokenAt?_eq_none ws, habove'.tokenAt?_eq_none ws]
          · have hother := h (q :: ws)
            rwa [tokenAt?_node, tokenAt?_node, if_neg hq, if_neg hq] at hother
      rw [htoken, ihc hc hc' hbelow, ihs hs hs' hbeside]

end LexStream.OperatorTrie.Branches
