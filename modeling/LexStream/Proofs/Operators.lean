import LexStream.Scanner.Operator
import LexStream.Proofs.Grammar
import LexStream.Proofs.OperatorTable
import LexStream.Proofs.Passage

/-!
# Scanning operators

Going down a trie along the runes that are looked at.  The runes stay unread, and the row that is
found is a lexeme of the trie and stands in front of the cursor.

Main facts:

* `Scanner.finds_operator`: an operator that is found passes the runes of its lexeme;
* `Scanner.passes_operator_none`: where none is found, nothing is passed and the first rune alone is
  no operator.
-/

namespace LexStream

open OperatorTrie (Branches standard)

/-- The lexeme found on a way down, which had gone over `depth` runes and then saw the runes
`ahead`: the row from `first` on, continued ahead. -/
def OperatorMatch.Continues (b : Branches) (depth : Nat) (first : Char) (ahead : List Char)
    (found : OperatorMatch) : Prop :=
  ∃ ws, b.tokenAt? (first :: ws) = some found.token ∧ found.length = depth + ws.length ∧
    ws <+: ahead

namespace Scanner

variable {σ : Type} [ByteSource σ] {c c' : Cursor σ}

/-- A row of looks that starts after `n` runes goes on after the rune at `n`. -/
theorem prefix_drop_of_cons {l ws : List Char} {n : Nat} {r : Char} (hr : l[n]? = some r)
    (h : ws <+: l.drop (n + 1)) : r :: ws <+: l.drop n := by
  obtain ⟨hn, hget⟩ := List.getElem?_eq_some_iff.1 hr
  rw [List.drop_eq_getElem_cons hn, hget]
  exact List.cons_prefix_cons.2 ⟨rfl, h⟩

/-- Going down the branches `b` passes nothing, and finds a lexeme ahead or gives back the `best`
one so far. -/
theorem passes_descend {b : Branches} {n : Nat} {best res : Option OperatorMatch} {r : Char}
    (h : (b.descend Cursor.peekNth (n + 1) best r).run c = (.ok res, c')) :
    c.Passes [] c' ∧ c.lookahead <+: c'.lookahead ∧
      (res = best ∨ ∃ found, res = some found ∧
        found.Continues b (n + 1) r (c'.lookahead.drop n)) := by
  induction b generalizing n best r c with
  | nil => cases h; exact ⟨.refl _, List.prefix_refl _, .inl rfl⟩
  | node rune token children siblings ihc ihs =>
    unfold Branches.descend at h
    dsimp only at h
    by_cases hr : rune = r
    · subst hr
      rw [if_pos rfl] at h
      -- The node itself may end a lexeme.
      have hhere : ∀ ahead, (token.map fun t => ⟨t, n + 1⟩).or best = best ∨
          ∃ found, (token.map fun t => ⟨t, n + 1⟩).or best = some found ∧
            found.Continues (.node rune token children siblings) (n + 1) rune ahead := by
        intro ahead
        cases token with
        | none => exact .inl rfl
        | some t =>
          refine .inr ⟨⟨t, n + 1⟩, rfl, [], ?_, rfl, List.nil_prefix⟩
          rw [Branches.tokenAt?_node, if_pos rfl, if_pos rfl]
      split at h
      next => cases h; exact ⟨.refl _, List.prefix_refl _, hhere _⟩
      next =>
        obtain ⟨seen, c₁, hpeek, hrest⟩ := Scan.run_bind_eq_ok h
        obtain ⟨hp, hpre, hseen, -⟩ := Cursor.passes_peekNth hpeek
        rw [Nat.add_sub_cancel] at hseen
        cases seen with
        | none => cases hrest; exact ⟨hp, hpre, hhere _⟩
        | some next =>
          obtain ⟨hp', hpre', hres⟩ := ihc hrest
          refine ⟨hp.trans hp', hpre.trans hpre', ?_⟩
          -- The best one below is the node itself, or a lexeme that goes on with the next rune.
          rcases hres with hres | ⟨found, hres, ws, htoken, hlength, hws⟩
          · rw [hres]
            exact hhere _
          · have hnext : c'.lookahead[n]? = some next := by
              obtain ⟨hn, -⟩ := List.getElem?_eq_some_iff.1 hseen.symm
              obtain ⟨behind, hbehind⟩ := hpre'
              rw [← hbehind, List.getElem?_append_left hn, ← hseen]
            refine .inr ⟨found, hres, next :: ws, ?_, ?_, prefix_drop_of_cons hnext hws⟩
            · rw [Branches.tokenAt?_node, if_pos rfl, if_neg (by simp), htoken]
            · rw [hlength, List.length_cons]
              omega
    · rw [if_neg hr] at h
      obtain ⟨hp, hpre, hres⟩ := ihs h
      refine ⟨hp, hpre, ?_⟩
      rcases hres with hres | ⟨found, hres, ws, htoken, hws⟩
      · exact .inl hres
      · refine .inr ⟨found, hres, ws, ?_, hws⟩
        rw [Branches.tokenAt?_node, if_neg hr, htoken]

/-- Going down the branches `b` fails only where a rune cannot be decoded. -/
theorem faults_descend {b : Branches} {n : Nat} {best : Option OperatorMatch} {r : Char}
    {e : LexError} (h : (b.descend Cursor.peekNth n best r).run c = (.error e, c')) :
    c.Faults e := by
  induction b generalizing n best r c with
  | nil => cases h
  | node rune token children siblings ihc ihs =>
    unfold Branches.descend at h
    dsimp only at h
    split at h
    next =>
      split at h
      next => cases h
      next =>
        rcases Scan.run_bind_eq_error h with hpeek | ⟨seen, c₁, hpeek, hrest⟩
        · exact Cursor.faults_peekNth hpeek
        · cases seen with
          | none => cases hrest
          | some next => exact (ihc hrest).of_passes (Cursor.passes_peekNth hpeek).1
    next => exact ihs h

/-- Going down finds nothing only where `r` alone is no lexeme. -/
theorem descend_eq_none {b : Branches} {n : Nat} {best : Option OperatorMatch} {r : Char}
    (h : (b.descend Cursor.peekNth n best r).run c = (.ok none, c')) :
    best = none ∧ b.tokenAt? [r] = none := by
  induction b generalizing n best r c with
  | nil => cases h; exact ⟨rfl, Branches.tokenAt?_nil _⟩
  | node rune token children siblings ihc ihs =>
    unfold Branches.descend at h
    dsimp only at h
    rw [Branches.tokenAt?_node]
    split at h
    next hr =>
      have hbest : (token.map fun t => ⟨t, n⟩).or best = none := by
        split at h
        next => exact (Prod.mk.inj h).1 |> Except.ok.inj
        next =>
          obtain ⟨seen, c₁, -, hrest⟩ := Scan.run_bind_eq_ok h
          cases seen with
          | none => exact (Prod.mk.inj hrest).1 |> Except.ok.inj
          | some next => exact (ihc hrest).1
      rw [Option.or_eq_none_iff, Option.map_eq_none_iff] at hbest
      simp [hr, hbest]
    next hr =>
      rw [if_neg hr]
      exact ihs h

/-! ### The scan -/

variable {start : Position} {first : Char}

/-- Where a lexeme is found, its runes `rs` are looked at already, and `operator?` passes them. -/
theorem run_operator (start : Position) {c₁ : Cursor σ} {best : OperatorMatch}
    (h : (standard.longestMatch first Cursor.peekNth).run c = (.ok (some best), c₁)) :
    ∃ rs text token, (text, token) ∈ Token.operators ∧ text.toList = first :: rs ∧
      best = ⟨token, rs.length + 1⟩ ∧ c.Passes rs (c₁.skip rs.length) ∧
      (operator? start first).run c =
        (.ok (some (.ofToken start token text)), c₁.skip rs.length) := by
  obtain ⟨hp, -, hres⟩ := passes_descend h
  rcases hres with hres | ⟨found, hres, ws, htoken, hlength, hws⟩
  · cases hres
  · cases hres
    obtain ⟨⟨text, token⟩, hmem, hruns, htext⟩ := (OperatorTrie.tokenAt?_standard _ _).1 htoken
    -- The runes of the lexeme behind the first one are the next ones that are looked at.
    rw [List.drop_zero] at hws
    have htake : c₁.lookahead.take ws.length = ws := (List.prefix_iff_eq_take.1 hws).symm
    have hlen : best.length - 1 = ws.length := by omega
    have hbest : best = ⟨token, ws.length + 1⟩ :=
      OperatorMatch.mk.injEq .. ▸ ⟨htext.symm, by omega⟩
    refine ⟨ws, text, token, hmem, hruns, hbest, ?_, ?_⟩
    · have hskip := hp.trans (c₁.passes_skip ws.length)
      rwa [List.nil_append, htake] at hskip
    · unfold operator?
      rw [Scan.run_bind_ok h]
      dsimp only
      rw [hlen, Scan.run_bind_ok (Cursor.peekRow_of_le hws.length_le),
        Scan.run_bind_ok (Scan.run_move _ _), htake, ← htext, ← hruns, String.ofList_toList]
      rfl

/-- An operator that `operator?` has `found` passes the runes of its lexeme. -/
theorem finds_operator {found : Finding}
    (h : (operator? start first).run c = (.ok (some found), c')) :
    ∃ rs text token, (text, token) ∈ Token.operators ∧ text.toList = first :: rs ∧
      found = .ofToken start token text ∧ c.Passes rs c' := by
  obtain ⟨res, c₁, hdescend, hrest⟩ := Scan.run_bind_eq_ok h
  cases res with
  | none => cases hrest
  | some best =>
    obtain ⟨rs, text, token, hmem, hruns, -, hp, hrun⟩ := run_operator start hdescend
    cases hrun.symm.trans h
    exact ⟨rs, text, token, hmem, hruns, rfl, hp⟩

/-- Where `operator?` gives `none`, so has `longestMatch`, and nothing was done behind it. -/
theorem longestMatch_of_operator_none (h : (operator? start first).run c = (.ok none, c')) :
    (standard.longestMatch first Cursor.peekNth).run c = (.ok none, c') := by
  obtain ⟨res, c₁, hdescend, hrest⟩ := Scan.run_bind_eq_ok h
  cases res with
  | none => cases hrest; exact hdescend
  | some best =>
    obtain ⟨rs, text, token, -, -, -, -, hrun⟩ := run_operator start hdescend
    cases hrun.symm.trans h

/-- Of `operator?` only `longestMatch` can fail. -/
theorem longestMatch_of_operator_error {e : LexError}
    (h : (operator? start first).run c = (.error e, c')) :
    (standard.longestMatch first Cursor.peekNth).run c = (.error e, c') := by
  rcases Scan.run_bind_eq_error h with hdescend | ⟨res, c₁, hdescend, hrest⟩
  · exact hdescend
  · cases res with
    | none => cases hrest
    | some best =>
      obtain ⟨rs, text, token, -, -, -, -, hrun⟩ := run_operator start hdescend
      cases hrun.symm.trans h

/-- Where no operator is found nothing is passed, and `first` alone is no operator. -/
theorem passes_operator_none (h : (operator? start first).run c = (.ok none, c')) :
    c.Passes [] c' ∧ ∀ row ∈ Token.operators, row.1.toList ≠ [first] := by
  have hdescend := longestMatch_of_operator_none h
  refine ⟨(passes_descend hdescend).1, fun row hrow hruns => ?_⟩
  have hsome := (OperatorTrie.tokenAt?_standard [first] row.2).2 ⟨row, hrow, hruns, rfl⟩
  rw [(descend_eq_none hdescend).2] at hsome
  cases hsome

/-- The scan `operator?` fails only where a rune cannot be decoded. -/
theorem faults_operator {e : LexError} (h : (operator? start first).run c = (.error e, c')) :
    c.Faults e :=
  faults_descend (longestMatch_of_operator_error h)

end Scanner

end LexStream
