import LexStream.Finding
import LexStream.OperatorTrie
import LexStream.Run

/-!
# Scanning operators

The longest operator or punctuation mark that starts with the rune just passed.  Runes are looked at
through the trie and passed only when they belong to the match, so a scan that finds no operator
leaves the cursor where it is.
-/

namespace LexStream.Scanner

variable {σ : Type} [ByteSource σ]

/-- Finds the operator that starts with `first`, which stood at `start` and is passed. -/
def operator? (start : Position) (first : Char) : Scan σ (Option Finding) := do
  match ← OperatorTrie.standard.longestMatch first Cursor.peekNth with
  | some found =>
    let rest ← Cursor.peekRow (found.length - 1)
    Scan.move (·.skip (found.length - 1))
    return some (.ofToken start found.token (String.ofList (first :: rest)))
  | none => return none

theorem descend_shrinks (b : OperatorTrie.Branches) (length : Nat) (best : Option OperatorMatch)
    (r : Char) :
    (b.descend Cursor.peekNth length best r : Scan σ (Option OperatorMatch)).Shrinks := by
  induction b generalizing length best r with
  | nil => exact .pure _
  | node rune token children siblings ihc ihs =>
    unfold OperatorTrie.Branches.descend
    dsimp only
    split
    · split
      · exact .pure _
      · refine .bind (.peekNth _) fun next => ?_
        cases next with
        | none => exact .pure _
        | some r' => exact ihc _ _ _
    · exact ihs _ _ _

theorem operator?_shrinks (start : Position) (first : Char) :
    (operator? start first : Scan σ (Option Finding)).Shrinks := by
  refine .bind (descend_shrinks _ _ _ _) fun found => ?_
  cases found with
  | none => exact .pure _
  | some found => exact .bind (.peekRow _) fun _ => .bind (.skip _) fun _ => .pure _

end LexStream.Scanner
