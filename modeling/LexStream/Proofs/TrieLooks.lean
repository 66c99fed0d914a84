import LexStream.Proofs.TrieTables

/-!
# What a trie looks at

Going down a trie, a rune ahead is looked at only if it is needed: the runes that were shown so far
start a longer lexeme, so that the next one decides whether the way goes on.  A rune that is not
needed may be one that a reader would have to wait for, or one that cannot be decoded, and neither
does any harm then.

Which runes are needed is said of the table and of what is shown (`OperatorTrie.Needed`).  The
numbers that are asked for are written down by `OperatorTrie.recorded`, also where looking ahead
fails.  The node where the way down stands carries both: it is a leaf just where nothing more is
needed, since its branches are live.

Main facts:

* `Branches.neededBelow_node_iff`: what is needed at a node is needed there or below;
* `Branches.exists_descent`: the way down looks at the runes that are needed, in ascending order,
  and fails where one of them does;
* `longestMatch_looks`: so does the search for the longest lexeme of a table.
-/

namespace LexStream.OperatorTrie

variable {ε : Type}

/-- Looks ahead as `peek` does, and writes down the number asked for. -/
def recorded (peek : Nat → Except ε (Option Char)) (i : Nat) :
    ExceptT ε (StateM (List Nat)) (Option Char) :=
  ExceptT.mk fun calls => (peek i, calls ++ [i])

/-- From the number `n` on, `peek` shows the runes `ws`. -/
def Shows (peek : Nat → Except ε (Option Char)) (n : Nat) (ws : List Char) : Prop :=
  ∀ j r, ws[j]? = some r → peek (n + j) = .ok (some r)

/-- The rune with the number `i` is needed: the runes shown before it are there, and `first` and
these start a lexeme that goes on behind them. -/
def Needed (table : List (String × Token)) (first : Char) (peek : Nat → Except ε (Option Char))
    (i : Nat) : Prop :=
  ∃ ws, ws.length = i ∧ Shows peek 0 ws ∧
    ∃ row ∈ table, first :: ws <+: row.1.toList ∧ first :: ws ≠ row.1.toList

section Shows

variable {peek peek' : Nat → Except ε (Option Char)} {n : Nat} {r : Char} {ws : List Char}

theorem shows_nil : Shows peek n [] := by
  intro j r hr
  cases hr

theorem shows_cons_iff :
    Shows peek n (r :: ws) ↔ peek n = .ok (some r) ∧ Shows peek (n + 1) ws := by
  constructor
  · intro h
    refine ⟨h 0 r rfl, fun j q hq => ?_⟩
    have hnext := h (j + 1) q hq
    rwa [← Nat.add_assoc, Nat.add_right_comm] at hnext
  · rintro ⟨hr, hws⟩ j q hq
    cases j with
    | zero =>
      obtain rfl : r = q := Option.some.inj hq
      exact hr
    | succ j =>
      have hnext := hws j q hq
      rwa [Nat.add_right_comm, Nat.add_assoc] at hnext

end Shows

/-! ### Runs that are written down -/

section Recorded

variable {α : Type} {peek : Nat → Except ε (Option Char)} {n : Nat} {calls : List Nat}
  {f : Option Char → ExceptT ε (StateM (List Nat)) α}

theorem run_recorded (peek : Nat → Except ε (Option Char)) (n : Nat) (calls : List Nat) :
    (recorded peek n).run.run calls = (peek n, calls ++ [n]) := rfl

theorem run_recorded_bind_ok {r? : Option Char} (h : peek n = .ok r?) :
    (recorded peek n >>= f).run.run calls = (f r?).run.run (calls ++ [n]) := by
  rw [ExceptT.run_bind, StateT.run_bind, run_recorded, h]
  rfl

theorem run_recorded_bind_error {e : ε} (h : peek n = .error e) :
    (recorded peek n >>= f).run.run calls = (.error e, calls ++ [n]) := by
  rw [ExceptT.run_bind, StateT.run_bind, run_recorded, h]
  rfl

end Recorded

namespace Branches

variable {b children siblings : Branches} {rune r next : Char} {token : Option Token} {i k n : Nat}
  {best : Option OperatorMatch} {result : Except ε (Option OperatorMatch)}
  {peek : Nat → Except ε (Option Char)} {e : ε}

/-! ### What is needed below -/

/-- The rune with the number `i` is needed on the way down along `r`, if the rune behind `r` has the
number `n`. -/
def NeededBelow (b : Branches) (r : Char) (peek : Nat → Except ε (Option Char)) (n i : Nat) :
    Prop :=
  ∃ ws, i = n + ws.length ∧ Shows peek n ws ∧
    ∃ v, v ≠ [] ∧ b.tokenAt? (r :: (ws ++ v)) ≠ none

theorem not_neededBelow_nil : ¬nil.NeededBelow r peek n i := by
  rintro ⟨ws, -, -, v, -, hlexeme⟩
  exact hlexeme (tokenAt?_nil _)

/-- What is needed along a rune `r` other than `rune` is needed beside the first branch. -/
theorem neededBelow_beside_iff (hr : rune ≠ r) :
    (node rune token children siblings).NeededBelow r peek n i ↔
      siblings.NeededBelow r peek n i := by
  unfold NeededBelow
  simp only [tokenAt?_node, if_neg hr]

/-- At a node the rune at `n` is needed if there are branches, and others are if they are needed
below it, where the rune that is shown leads. -/
theorem neededBelow_node_iff (hc : children.Live) :
    (node rune token children siblings).NeededBelow rune peek n i ↔
      (i = n ∧ children ≠ nil) ∨
        ∃ next, peek n = .ok (some next) ∧ children.NeededBelow next peek (n + 1) i := by
  constructor
  · rintro ⟨ws, rfl, hshows, v, hv, hlexeme⟩
    cases ws with
    | nil =>
      rw [tokenAt?_node, if_pos rfl, List.nil_append, if_neg hv] at hlexeme
      refine .inl ⟨rfl, ?_⟩
      rintro rfl
      exact hlexeme (tokenAt?_nil v)
    | cons next ws =>
      obtain ⟨hnext, hws⟩ := shows_cons_iff.1 hshows
      rw [tokenAt?_node, if_pos rfl, List.cons_append, if_neg (List.cons_ne_nil _ _)] at hlexeme
      refine .inr ⟨next, hnext, ws, ?_, hws, v, hv, hlexeme⟩
      rw [List.length_cons]
      omega
  · rintro (⟨rfl, hne⟩ | ⟨next, hnext, ws, rfl, hws, v, hv, hlexeme⟩)
    · -- Live branches have a lexeme below them.
      obtain ⟨v, hlexeme⟩ := hc.exists_lexeme hne
      have hv : v ≠ [] := ne_nil_of_tokenAt? hlexeme
      refine ⟨[], rfl, shows_nil, v, hv, ?_⟩
      rwa [tokenAt?_node, if_pos rfl, List.nil_append, if_neg hv]
    · refine ⟨next :: ws, ?_, shows_cons_iff.2 ⟨hnext, hws⟩, v, hv, ?_⟩
      · rw [List.length_cons]
        omega
      · rwa [tokenAt?_node, if_pos rfl, List.cons_append, if_neg (List.cons_ne_nil _ _)]

/-! ### The way down -/

/-- The way down along a rune `r` other than `rune` goes down beside the first branch. -/
theorem descend_beside {m : Type → Type} [Monad m] (peek : Nat → m (Option Char)) (hr : rune ≠ r) :
    (node rune token children siblings).descend peek n best r = siblings.descend peek n best r := by
  rw [descend, if_neg hr]

/-- At a leaf, a node without `children`, nothing is looked at. -/
theorem descend_leaf {m : Type → Type} [Monad m] (peek : Nat → m (Option Char)) :
    (node rune token nil siblings).descend peek n best rune =
      pure ((token.map fun t => ⟨t, n⟩).or best) := by
  rw [descend, if_pos rfl]
  rfl

/-- At a node with `children` the next rune is looked at. -/
theorem descend_node {m : Type → Type} [Monad m] (peek : Nat → m (Option Char))
    (hne : children ≠ nil) :
    (node rune token children siblings).descend peek (n + 1) best rune =
      peek n >>= fun r? =>
        match r? with
        | some next =>
          children.descend peek (n + 2) ((token.map fun t => ⟨t, n + 1⟩).or best) next
        | none => pure ((token.map fun t => ⟨t, n + 1⟩).or best) := by
  have hempty : ¬children.isEmpty = true := fun h => hne (Branches.isEmpty_iff.1 h)
  refine (if_pos rfl).trans ((if_neg hempty).trans ?_)
  refine congrArg (peek n >>= ·) (funext fun r? => ?_)
  cases r? <;> rfl

/-- The way down along `r` looks at `k` runes, from the number `n` on, and comes out as `result`. -/
structure Descent (b : Branches) (r : Char) (peek : Nat → Except ε (Option Char)) (n : Nat)
    (best : Option OperatorMatch) (k : Nat) (result : Except ε (Option OperatorMatch)) : Prop where
  /-- The runes that are looked at, `k` of them from `n` on, are the needed ones. -/
  needed : ∀ i, n ≤ i ∧ i < n + k ↔ b.NeededBelow r peek n i
  /-- Only where `peek` fails at one of these, there is an error. -/
  error : ∀ e, result = .error e ↔ ∃ i, b.NeededBelow r peek n i ∧ peek i = .error e
  /-- Whatever `peek'` shows for the others, the way down is the same. -/
  run : ∀ peek', (∀ i, n ≤ i → i < n + k → peek' i = peek i) →
    b.descend peek' (n + 1) best r = result ∧
      ∀ calls, (b.descend (recorded peek') (n + 1) best r).run.run calls =
        (result, calls ++ List.range' n k)

namespace Descent

/-- Where no rune is needed and none looked at, the `best'` lexeme so far is what the way down
finds. -/
theorem of_pure {best' : Option OperatorMatch} (hnone : ∀ i, ¬b.NeededBelow r peek n i)
    (h : ∀ (m : Type → Type) [Monad m] (peek : Nat → m (Option Char)),
      b.descend peek (n + 1) best r = pure best') :
    b.Descent r peek n best 0 (.ok best') where
  needed := fun i => iff_of_false (by omega) (hnone i)
  error := by
    intro e
    refine iff_of_false nofun ?_
    rintro ⟨i, hi, -⟩
    exact hnone i hi
  run := by
    intro peek' _
    refine ⟨h _ peek', fun calls => ?_⟩
    rw [h _ (recorded peek'), List.range'_zero, List.append_nil]
    rfl

theorem beside (hr : rune ≠ r) (h : siblings.Descent r peek n best k result) :
    (node rune token children siblings).Descent r peek n best k result where
  needed := fun i => (h.needed i).trans (neededBelow_beside_iff hr).symm
  error := by
    intro e
    simp only [neededBelow_beside_iff hr]
    exact h.error e
  run := by
    intro peek' hagree
    rw [descend_beside peek' hr, descend_beside (recorded peek') hr]
    exact h.run peek' hagree

/-- Behind a leaf no lexeme goes on, so the way down looks at nothing. -/
theorem leaf : (node rune token nil siblings).Descent rune peek n best 0
    (.ok ((token.map fun t => ⟨t, n + 1⟩).or best)) := by
  have hnone : ∀ i, ¬(node rune token nil siblings).NeededBelow rune peek n i := by
    intro i hi
    have hlive : nil.Live := trivial
    rcases (neededBelow_node_iff hlive).1 hi with ⟨-, hne⟩ | ⟨next, -, hbelow⟩
    · exact hne rfl
    · exact not_neededBelow_nil hbelow
  exact .of_pure hnone fun _ _ peek => descend_leaf peek

/-- Where the next rune is needed and cannot be shown, `e` is the error, whatever was passed. -/
theorem failed (hc : children.Live) (hne : children ≠ nil) (hpeek : peek n = .error e) :
    (node rune token children siblings).Descent rune peek n best 1 (.error e) := by
  have hneeded : ∀ i, (node rune token children siblings).NeededBelow rune peek n i ↔ i = n := by
    intro i
    simp [neededBelow_node_iff hc, hpeek, hne]
  refine ⟨fun i => ?_, fun e' => ?_, fun peek' hagree => ?_⟩
  · rw [hneeded]
    omega
  · simp [hneeded, hpeek]
  · have hpeek' : peek' n = .error e := (hagree n (Nat.le_refl n) (by omega)).trans hpeek
    refine ⟨?_, fun calls => ?_⟩
    · rw [descend_node _ hne, hpeek']
      rfl
    · rw [descend_node _ hne, run_recorded_bind_error hpeek']
      rfl

/-- Where the text ends at `n`, the best lexeme passed is the longest one. -/
theorem ended (hc : children.Live) (hne : children ≠ nil) (hpeek : peek n = .ok none) :
    (node rune token children siblings).Descent rune peek n best 1
      (.ok ((token.map fun t => ⟨t, n + 1⟩).or best)) := by
  have hneeded : ∀ i, (node rune token children siblings).NeededBelow rune peek n i ↔ i = n := by
    intro i
    simp [neededBelow_node_iff hc, hpeek, hne]
  refine ⟨fun i => ?_, fun e' => ?_, fun peek' hagree => ?_⟩
  · rw [hneeded]
    omega
  · simp [hneeded, hpeek]
  · have hpeek' : peek' n = .ok none := (hagree n (Nat.le_refl n) (by omega)).trans hpeek
    refine ⟨?_, fun calls => ?_⟩
    · rw [descend_node _ hne, hpeek']
      rfl
    · rw [descend_node _ hne, run_recorded_bind_ok hpeek']
      rfl

/-- Where `peek n` shows the rune `next`, the way goes on below, among the `children`. -/
theorem below (hc : children.Live) (hne : children ≠ nil) (hpeek : peek n = .ok (some next))
    (h : children.Descent next peek (n + 1) ((token.map fun t => ⟨t, n + 1⟩).or best) k result) :
    (node rune token children siblings).Descent rune peek n best (k + 1) result := by
  have hneeded : ∀ i, (node rune token children siblings).NeededBelow rune peek n i ↔
      i = n ∨ children.NeededBelow next peek (n + 1) i := by
    intro i
    simp [neededBelow_node_iff hc, hpeek, hne]
  refine ⟨fun i => ?_, fun e => ?_, fun peek' hagree => ?_⟩
  · rw [hneeded, ← h.needed]
    omega
  · rw [h.error]
    simp [hneeded, or_and_right, exists_or, hpeek]
  · have hpeek' : peek' n = .ok (some next) :=
      (hagree n (Nat.le_refl n) (by omega)).trans hpeek
    obtain ⟨hanswer, hrun⟩ := h.run peek' fun i hle hlt => hagree i (by omega) (by omega)
    refine ⟨?_, fun calls => ?_⟩
    · rw [descend_node _ hne, hpeek']
      exact hanswer
    · have hcalls : calls ++ List.range' n (k + 1) = calls ++ [n] ++ List.range' (n + 1) k := by
        rw [List.range'_succ, List.append_assoc]
        rfl
      rw [descend_node _ hne, run_recorded_bind_ok hpeek', hcalls]
      exact hrun (calls ++ [n])

end Descent

/-- The way down looks at the runes that are needed, `k` of them in ascending order, and fails where
one of them does. -/
theorem exists_descent (hb : b.Live) (r : Char) (peek : Nat → Except ε (Option Char)) (n : Nat)
    (best : Option OperatorMatch) : ∃ k result, b.Descent r peek n best k result := by
  -- The induction goes down where the rune leads, and beside where it does not.
  induction b generalizing r n best with
  | nil => exact ⟨0, _, .of_pure (fun i => not_neededBelow_nil) fun m _ _ => rfl⟩
  | node rune token children siblings ihc ihs =>
    obtain ⟨-, hc, hs⟩ := hb
    by_cases hr : rune = r
    · subst hr
      by_cases hnil : children = nil
      · subst hnil
        exact ⟨0, _, .leaf⟩
      · cases hpeek : peek n with
        | error e => exact ⟨1, _, .failed hc hnil hpeek⟩
        | ok r? =>
          cases r? with
          | none => exact ⟨1, _, .ended hc hnil hpeek⟩
          | some next =>
            obtain ⟨k, result, hbelow⟩ :=
              ihc hc next (n + 1) ((token.map fun t => ⟨t, n + 1⟩).or best)
            exact ⟨k + 1, result, .below hc hnil hpeek hbelow⟩
    · obtain ⟨k, result, hbeside⟩ := ihs hs r n best
      exact ⟨k, result, .beside hr hbeside⟩

end Branches

/-! ### The longest lexeme of a table -/

variable {table : List (String × Token)} {trie : OperatorTrie}

theorem neededBelow_iff_needed (h : Denotes trie.roots table) {first : Char}
    {peek : Nat → Except ε (Option Char)} {i : Nat} :
    trie.roots.NeededBelow first peek 0 i ↔ Needed table first peek i := by
  have hstarts : ∀ ws, (∃ v, v ≠ [] ∧ trie.roots.tokenAt? (first :: (ws ++ v)) ≠ none) ↔
      ∃ row ∈ table, first :: ws <+: row.1.toList ∧ first :: ws ≠ row.1.toList :=
    fun ws => h.exists_proper_prefix_iff (w := first :: ws)
  unfold Branches.NeededBelow Needed
  simp only [hstarts, Nat.zero_add, eq_comm (a := i)]

/-- A rune at `i` that is needed stands behind fewer runes than the longest lexeme has. -/
theorem Needed.lt_maxDepth (h : build table = .ok trie) {first : Char}
    {peek : Nat → Except ε (Option Char)} {i : Nat} (hi : Needed table first peek i) :
    i + 1 < trie.maxDepth := by
  obtain ⟨-, hdenotes, hdepth⟩ := denotes_of_build h
  obtain ⟨ws, rfl, -, ⟨lexeme, t⟩, hrow, hpre, hne⟩ := hi
  have hle := hdenotes.length_le_depth hrow
  have hlength : (first :: ws).length < lexeme.toList.length :=
    lt_of_le_of_ne hpre.length_le fun heq => hne (hpre.eq_of_length heq)
  rw [hdepth]
  exact lt_of_lt_of_le hlength hle

/-- The search `longestMatch` in the trie of a `table` looks at the runes ahead one after the other,
and only at those that are `Needed`, which are fewer than the runes of the longest lexeme.  It fails
with the error of a rune that is needed and cannot be shown, even behind a lexeme, and only with
that.  What `peek'` would show for the other runes makes no difference. -/
theorem longestMatch_looks (h : build table = .ok trie) (first : Char)
    (peek : Nat → Except ε (Option Char)) :
    ∃ k result,
      (trie.longestMatch first (recorded peek)).run.run [] = (result, List.range k) ∧
      (∀ i, i < k ↔ Needed table first peek i) ∧
      k ≤ trie.maxDepth - 1 ∧
      trie.longestMatch first peek = result ∧
      (∀ e, result = .error e ↔ ∃ i, Needed table first peek i ∧ peek i = .error e) ∧
      ∀ peek', (∀ i, Needed table first peek i → peek' i = peek i) →
        trie.longestMatch first peek' = result ∧
          (trie.longestMatch first (recorded peek')).run.run [] = (result, List.range k) := by
  have hdenotes : Denotes trie.roots table := (denotes_of_build h).2.1
  obtain ⟨k, result, hdescent⟩ :=
    Branches.exists_descent hdenotes.wellFormed.live first peek 0 none
  have hneeded : ∀ i, i < k ↔ Needed table first peek i := by
    intro i
    rw [← neededBelow_iff_needed hdenotes, ← hdescent.needed]
    omega
  have hsame : ∀ peek', (∀ i, Needed table first peek i → peek' i = peek i) →
      trie.longestMatch first peek' = result ∧
        (trie.longestMatch first (recorded peek')).run.run [] = (result, List.range k) := by
    intro peek' hagree
    obtain ⟨hanswer, hrun⟩ := hdescent.run peek' fun i _ hlt =>
      hagree i ((hneeded i).1 (by omega))
    have hcalls := hrun []
    rw [List.nil_append, ← List.range_eq_range'] at hcalls
    exact ⟨hanswer, hcalls⟩
  have hk : k ≤ trie.maxDepth - 1 := by
    rcases Nat.eq_zero_or_pos k with hzero | hpos
    · omega
    · -- The last rune that is looked at is needed like the others.
      have hlast := ((hneeded (k - 1)).1 (by omega)).lt_maxDepth h
      omega
  obtain ⟨hanswer, hrun⟩ := hsame peek fun _ _ => rfl
  refine ⟨k, result, hrun, hneeded, hk, hanswer, fun e => ?_, hsame⟩
  rw [hdescent.error]
  simp only [neededBelow_iff_needed hdenotes]

/-- One lexeme is passed, a longer one may go on, and the second rune behind the first one cannot be
shown: `longestMatch` fails there, and nothing behind it is looked at. -/
theorem longestMatch_looks_failing :
    let table : List (String × Token) := [("a", .add), ("abcd", .sub)]
    let trie : OperatorTrie :=
      ⟨.node 'a' (some .add)
        (.node 'b' none (.node 'c' none (.node 'd' (some .sub) .nil .nil) .nil) .nil) .nil, 4⟩
    let peek : Nat → Except Nat (Option Char) := fun i => if i = 0 then .ok (some 'b') else .error i
    build table = .ok trie ∧
      (trie.longestMatch 'a' (recorded peek)).run.run [] = (.error 1, [0, 1]) ∧
      (∀ i, i < 2 ↔ Needed table 'a' peek i) ∧
      ∀ peek', peek' 0 = peek 0 → peek' 1 = peek 1 → trie.longestMatch 'a' peek' = .error 1 := by
  intro table trie peek
  have hbuild : build table = .ok trie := by decide
  have hfails : (trie.longestMatch 'a' (recorded peek)).run.run [] = (.error 1, [0, 1]) := rfl
  obtain ⟨k, result, hrun, hneeded, -, -, -, hsame⟩ := longestMatch_looks hbuild 'a' peek
  obtain ⟨rfl, hcalls⟩ := Prod.mk.inj (hrun.symm.trans hfails)
  obtain rfl : k = 2 := by
    have hlength := congrArg List.length hcalls
    rwa [List.length_range] at hlength
  refine ⟨hbuild, hfails, hneeded, fun peek' hzero hone => (hsame peek' fun i hi => ?_).1⟩
  have hlt : i < 2 := (hneeded i).2 hi
  match i, hlt with
  | 0, _ => exact hzero
  | 1, _ => exact hone

end LexStream.OperatorTrie
