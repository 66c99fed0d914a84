import LexStream.Lexer
import Mathlib.Tactic.SplitIfs

/-!
# What a scan is put together from

The scans of tokens are put together from a few computations that move a cursor.  A relation between
computations on two kinds of cursors that holds of these, and goes over from the parts of a
computation to the whole, holds of the scan of every token (`Scan.Inherited`).  A property of the
computations on one kind of cursor is such a relation, too.

A relation need not hold of a look at more than the next rune, nor of a rune that is put back or
left out, nor of errors.  So the scans of operators, of literals and of numbers behind a zero
inherit it only from these, or are left to the relation.

Main facts:

* `Scan.Inherited.operator?`: the scan of an operator inherits the relation from the looks at the
  runes ahead and the leaving out of those that were looked at;
* `Scan.Inherited.otherToken`: the scan of a token that is no operator inherits the relation from
  the scans of literals and of numbers behind a zero;
* `Scan.Inherited.item`: the scan of an item inherits it from the scans of tokens.
-/

namespace LexStream

variable {σ τ : Type} [ByteSource σ] [ByteSource τ]

/-- A relation `R` between computations that holds of the parts of a scan, and goes over from `x`
and `f` to `x >>= f`. -/
structure Scan.Inherited (R : ∀ {α : Type}, Scan σ α → Scan τ α → Prop) : Prop where
  pure {α : Type} (a : α) : R (Pure.pure a) (Pure.pure a)
  bind {α β : Type} {x : Scan σ α} {y : Scan τ α} {f : α → Scan σ β} {g : α → Scan τ β} (hx : R x y)
    (hf : ∀ a, R (f a) (g a)) : R (x >>= f) (y >>= g)
  position : R Scan.position Scan.position
  peek : R Cursor.peek Cursor.peek
  scan {υ : Type} (step : υ → Char → Verdict υ) (init : υ) :
    R (Run.scan step init) (Run.scan step init)

namespace Scan.Inherited

variable {R : ∀ {α : Type}, Scan σ α → Scan τ α → Prop} (h : Inherited R) {start : Position}
  {first : Char}

include h

theorem scanClass (p : Char → Bool) : R (Run.scanClass p) (Run.scanClass p) :=
  h.bind (h.scan _ _) fun _ => h.pure _

/-! ### Operators -/

section

variable (hnth : ∀ n, R (Cursor.peekNth n) (Cursor.peekNth n))

include hnth

theorem peekRow (n : Nat) : R (Cursor.peekRow n) (Cursor.peekRow n) := by
  induction n with
  | zero => exact h.pure []
  | succ n ih =>
    refine h.bind ih fun rs => h.bind (hnth n) fun r? => ?_
    cases r? <;> exact h.pure _

theorem descend (b : OperatorTrie.Branches) (length : Nat) (best : Option OperatorMatch)
    (r : Char) :
    R (b.descend Cursor.peekNth length best r) (b.descend Cursor.peekNth length best r) := by
  induction b generalizing length best r with
  | nil => exact h.pure best
  | node rune token children siblings ihc ihs =>
    unfold OperatorTrie.Branches.descend
    dsimp only
    split
    · split
      · exact h.pure _
      · refine h.bind (hnth _) fun next => ?_
        cases next with
        | none => exact h.pure _
        | some r' => exact ihc _ _ _
    · exact ihs _ _ _

theorem operator? (hskip : ∀ n, R (Scan.move (·.skip n)) (Scan.move (·.skip n))) :
    R (Scanner.operator? start first) (Scanner.operator? start first) := by
  refine h.bind (h.descend hnth _ _ _ _) fun found => ?_
  cases found with
  | none => exact h.pure _
  | some found => exact h.bind (h.peekRow hnth _) fun _ => h.bind (hskip _) fun _ => h.pure _

end

/-! ### Literals -/

theorem untilStopped {υ : Type} {kind : LiteralKind} (step : υ → Char → Verdict υ) (init : υ)
    (hfail : R (Scan.fail (.unterminated kind start) : Scan σ (String × Char))
      (Scan.fail (.unterminated kind start))) :
    R (Scanner.untilStopped kind start step init) (Scanner.untilStopped kind start step init) := by
  refine h.bind (h.scan _ _) fun run => ?_
  cases run.ending with
  | stopped r => exact h.pure _
  | left => exact hfail
  | exhausted => exact hfail

theorem string
    (huntil : R (Scanner.untilStopped .string start Scanner.stringStep none)
      (Scanner.untilStopped .string start Scanner.stringStep none)) :
    R (Scanner.string start) (Scanner.string start) :=
  h.bind huntil fun _ => h.pure _

theorem template
    (huntil : R (Scanner.untilStopped .template start Scanner.templateStep ())
      (Scanner.untilStopped .template start Scanner.templateStep ())) :
    R (Scanner.template start) (Scanner.template start) :=
  h.bind huntil fun _ => h.pure _

theorem structured
    (huntil : ∀ {υ : Type} (step : υ → Char → Verdict υ) (init : υ),
      R (Scanner.untilStopped .structured start step init)
        (Scanner.untilStopped .structured start step init))
    (hfail : ∀ opener, R (Scan.fail (.missingDelimiter start opener) : Scan σ Finding)
      (Scan.fail (.missingDelimiter start opener))) :
    R (Scanner.structured start) (Scanner.structured start) := by
  refine h.bind (huntil _ _) fun tag => ?_
  dsimp only
  cases Rune.closer? tag.2 with
  | some closer => exact h.bind (huntil _ _) fun _ => h.pure _
  | none => exact hfail _

/-! ### Numerals and words -/

theorem decimal : R (Scanner.decimal start first) (Scanner.decimal start first) := by
  refine h.bind (h.scan _ _) fun run => ?_
  cases run.ending with
  | stopped r => exact h.bind h.position fun _ => h.pure _
  | left => exact h.pure _
  | exhausted => exact h.pure _

theorem wholeIn (base : Nat) (lead : List Char) :
    R (Scanner.wholeIn base start lead) (Scanner.wholeIn base start lead) :=
  h.bind (h.scanClass _) fun _ => h.pure _

theorem numeral (hzero : R (Scanner.zeroLed start) (Scanner.zeroLed start)) :
    R (Scanner.numeral start first) (Scanner.numeral start first) := by
  unfold Scanner.numeral
  split
  · refine h.bind h.peek fun seen => ?_
    split
    · exact h.decimal
    · exact hzero
  · exact h.decimal

theorem word : R (Scanner.word start first) (Scanner.word start first) :=
  h.bind (h.scanClass _) fun _ => h.pure _

theorem symbol : R (Scanner.symbol start) (Scanner.symbol start) :=
  h.bind (h.scanClass _) fun _ => h.pure _

/-! ### Items -/

theorem otherToken (hstring : R (Scanner.string start) (Scanner.string start))
    (htemplate : R (Scanner.template start) (Scanner.template start))
    (hstructured : R (Scanner.structured start) (Scanner.structured start))
    (hzero : R (Scanner.zeroLed start) (Scanner.zeroLed start)) :
    R (Scanner.otherToken start first) (Scanner.otherToken start first) := by
  unfold Scanner.otherToken
  split_ifs
  · exact hstring
  · exact h.symbol
  · exact htemplate
  · exact hstructured
  · exact h.numeral hzero
  · exact h.word
  · exact h.pure _

theorem token (hoperator : R (Scanner.operator? start first) (Scanner.operator? start first))
    (hother : R (Scanner.otherToken start first) (Scanner.otherToken start first)) :
    R (Scanner.token start first) (Scanner.token start first) := by
  unfold Scanner.token
  split
  · exact h.pure _
  · refine h.bind hoperator fun found => ?_
    cases found with
    | none => exact hother
    | some found => exact h.pure _

theorem item
    (htoken : ∀ start first, R (Scanner.token start first) (Scanner.token start first)) :
    R (Scanner.item : Scan σ Finding) Scanner.item := by
  refine h.bind h.position fun here => h.bind (h.scan _ here) fun blanks => ?_
  cases blanks.ending with
  | stopped r => exact htoken _ _
  | left => exact h.pure _
  | exhausted => exact h.pure _

end Scan.Inherited

end LexStream
