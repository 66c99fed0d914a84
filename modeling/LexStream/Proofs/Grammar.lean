import LexStream.Finding
import LexStream.Rune
import LexStream.Text.Digit
import LexStream.Token.Spelling
import Mathlib.Data.List.Infix

/-!
# The grammar of tokens

What a scan may find, said of rows of runes alone and without a scanner.  A literal is its sentinel
with the shortest row behind it that ends it (`Literal`), and it is broken when the text goes on
without such a row (`Broken`).  The other tokens are rows of runes of fixed classes (`Lexeme`).
`Found` adds what a scan finds where no token stands.

Main facts:

* `Shortest.eq_of_append_eq`: of the first parts of a text only one is the shortest with a property;
* `Lexeme.ne_nil`, `Lexeme.token_ne_eof`: a token has a rune, and is not the end of the text.
-/

namespace LexStream.Grammar

/-! ### Shortest rows with a property -/

/-- The row `v` has the property `P`, and no shorter first part of it does. -/
def Shortest (P : List Char → Prop) (v : List Char) : Prop :=
  P v ∧ ∀ u, u <+: v → P u → u = v

/-- No first part of the row `v` has the property `P`. -/
def Never (P : List Char → Prop) (v : List Char) : Prop :=
  ∀ u, u <+: v → ¬P u

/-- Of the first parts `u` and `v` of one text only one is the shortest with the property `P`. -/
theorem Shortest.eq_of_append_eq {P : List Char → Prop} {u v a b : List Char} (hu : Shortest P u)
    (hv : Shortest P v) (h : u ++ a = v ++ b) : u = v := by
  rcases List.prefix_or_prefix_of_prefix (⟨a, h⟩ : u <+: v ++ b) (List.prefix_append v b) with
    huv | hvu
  · exact hv.2 u huv hu.1
  · exact (hu.2 v hvu hv.1).symm

theorem Never.not_shortest {P : List Char → Prop} {v w a : List Char} (hw : Never P w)
    (h : w = v ++ a) : ¬Shortest P v :=
  fun hv => hw v (h ▸ List.prefix_append v a) hv.1

/-! ### Literals -/

/-- The string `v` ends with a double quote that no backslash precedes immediately. -/
def EndsString (v : List Char) : Prop :=
  ∃ inside, v = inside ++ ['"'] ∧ inside.getLast? ≠ some '\\'

/-- The template `v` ends with a backtick. -/
def EndsTemplate (v : List Char) : Prop :=
  v.getLast? = some '\x60'

/-- The payload `v` ends where as many brackets are closed as were opened, the first `opener`
included.  Where `opener` and `closer` are the same rune, it ends with that rune. -/
def EndsPayload (opener closer : Char) (v : List Char) : Prop :=
  if opener = closer then v.getLast? = some closer else 1 + v.count opener = v.count closer

/-- A complete literal: its sentinel and the shortest row behind it that ends it, by `EndsString`,
`EndsTemplate` or `EndsPayload`. -/
inductive Literal : LiteralKind → List Char → Prop
  | string {v : List Char} (h : Shortest EndsString v) : Literal .string ('"' :: v)
  | template {v : List Char} (h : Shortest EndsTemplate v) : Literal .template ('\x60' :: v)
  | structured {tag payload : List Char} {opener closer : Char}
      (htag : ∀ r ∈ tag, Rune.isAlphabetic r = true) (hcloser : Rune.closer? opener = some closer)
      (h : Shortest (EndsPayload opener closer) payload) :
      Literal .structured ('#' :: (tag ++ opener :: payload))

/-- The kind of token that a literal of the given kind is. -/
def tokenOf : LiteralKind → Token
  | .string => .string
  | .template => .template
  | .structured => .structured

/-- The rest of a text that starts, at `start`, with a literal that is not complete, and the error
that this is. -/
inductive Broken (start : Position) : List Char → LexError → Prop
  | string {v : List Char} (h : Never EndsString v) :
      Broken start ('"' :: v) (.unterminated .string start)
  | template {v : List Char} (h : Never EndsTemplate v) :
      Broken start ('\x60' :: v) (.unterminated .template start)
  /-- The text ends within the `tag`. -/
  | tag {tag : List Char} (htag : ∀ r ∈ tag, Rune.isAlphabetic r = true) :
      Broken start ('#' :: tag) (.unterminated .structured start)
  | payload {tag v : List Char} {opener closer : Char}
      (htag : ∀ r ∈ tag, Rune.isAlphabetic r = true) (hcloser : Rune.closer? opener = some closer)
      (h : Never (EndsPayload opener closer) v) :
      Broken start ('#' :: (tag ++ opener :: v)) (.unterminated .structured start)
  /-- The rune `found` behind the `tag` opens no payload. -/
  | delimiter {tag rest : List Char} {found : Char}
      (htag : ∀ r ∈ tag, Rune.isAlphabetic r = true) (hfound : Rune.isAlphabetic found = false)
      (hcloser : Rune.closer? found = none) :
      Broken start ('#' :: (tag ++ found :: rest)) (.missingDelimiter start found)

/-- Whether the rune `r` is the sentinel of a literal that needs an end. -/
def isSentinel (r : Char) : Bool :=
  r == '"' || r == '\x60' || r == '#'

/-- An incomplete literal is reported where its sentinel stands, at `start`. -/
theorem Broken.position? {start : Position} {rs : List Char} {e : LexError}
    (h : Broken start rs e) : e.position? = some start := by
  cases h <;> rfl

/-! ### The other tokens -/

/-- A decimal numeral: a digit `first`, then digits with at most one point and at most one exponent
mark between them. -/
inductive Decimal : List Char → Prop
  | intro {first : Char} {rest : List Char} (hfirst : first.isDigit = true)
      (hrest : ∀ r ∈ rest, r.isDigit = true ∨ r = '.' ∨ r = 'e') (hpoint : rest.count '.' ≤ 1)
      (hexponent : rest.count 'e' ≤ 1) : Decimal (first :: rest)

/-- A whole number that a zero starts, in base two, sixteen or ten; there may be no `digits` behind
the zero or the `mark`. -/
inductive Whole : List Char → Prop
  | binary {mark : Char} {digits : List Char} (hmark : mark = 'b' ∨ mark = 'B')
      (h : ∀ r ∈ digits, Text.isDigitIn 2 r = true) : Whole ('0' :: mark :: digits)
  | hexadecimal {mark : Char} {digits : List Char} (hmark : mark = 'x' ∨ mark = 'X')
      (h : ∀ r ∈ digits, Text.isDigitIn 16 r = true) : Whole ('0' :: mark :: digits)
  | decimal {digits : List Char} (h : ∀ r ∈ digits, Text.isDigitIn 10 r = true) :
      Whole ('0' :: digits)

/-- The runes that spell a token, and its kind.  What a scan finds besides is `Found`. -/
inductive Lexeme : List Char → Token → Prop
  | newline : Lexeme ['\n'] .newline
  | operator {text : String} {token : Token} (h : (text, token) ∈ Token.operators) :
      Lexeme text.toList token
  | literal {kind : LiteralKind} {rs : List Char} (h : Literal kind rs) : Lexeme rs (tokenOf kind)
  | symbol {name : List Char} (h : ∀ r ∈ name, Rune.isNameRune r = true) :
      Lexeme (':' :: name) .symbol
  | whole {rs : List Char} (h : Whole rs) : Lexeme rs .int
  /-- A zero starts a decimal numeral only in front of a point. -/
  | decimal {first : Char} {rest : List Char} (h : Decimal (first :: rest))
      (hzero : first = '0' → rest.head? = some '.') :
      Lexeme (first :: rest)
        (if '.' ∈ first :: rest ∨ 'e' ∈ first :: rest then .float else .int)
  | word {first : Char} {rest : List Char} (hfirst : Rune.isNameRune first = true)
      (hunderscore : first ≠ '_') (hdigit : first.isDigit = false)
      (hrest : ∀ r ∈ rest, Rune.isNameRune r = true) :
      Lexeme (first :: rest) (Token.ofWord (String.ofList (first :: rest)))

/-- What a scan finds in the runes that stand from `start` on: a token, a numeral that is dropped
for a second mark of a kind, or a rune that starts no token. -/
inductive Found (start : Position) : List Char → Finding → Prop
  | lexeme {rs : List Char} {token : Token} (h : Lexeme rs token) :
      Found start rs (.ofToken start token (String.ofList rs))
  | repeatedMark {rs : List Char} {mark : Char} (h : Decimal rs) (hmark : mark = '.' ∨ mark = 'e')
      (hmem : mark ∈ rs) :
      Found start (rs ++ [mark]) (.illegal (start.advanceAll rs) mark
        (.repeatedMark (start.advanceAll rs) mark (String.ofList rs)))
  | stray {r : Char} (hspace : Rune.isSpace r = false)
      (hoperator : ∀ row ∈ Token.operators, row.1.toList ≠ [r]) (hsentinel : isSentinel r = false)
      (hcolon : r ≠ ':') (hname : Rune.isNameRune r = false) :
      Found start [r] (.illegal start r (.strayRune start r))

/-! ### Tokens have runes -/

theorem operators_ne_nil {row : String × Token} (h : row ∈ Token.operators) :
    row.1.toList ≠ [] := by
  have hall : ∀ row ∈ Token.operators, row.1.toList ≠ [] := by decide
  exact hall row h

theorem Lexeme.ne_nil {rs : List Char} {token : Token} (h : Lexeme rs token) : rs ≠ [] := by
  cases h with
  | newline => simp
  | operator h => exact operators_ne_nil h
  | literal h => cases h <;> simp
  | symbol => simp
  | whole h => cases h <;> simp
  | decimal => simp
  | word => simp

/-- A `word` is a truth value, a reserved word or an identifier. -/
theorem ofWord_mem (word : String) :
    Token.ofWord word ∈ .bool :: .ident :: Token.reservedWords.map (·.2) := by
  unfold Token.ofWord
  split
  · exact List.mem_cons_self
  · cases h : Token.ofReservedWord? word with
    | none => exact List.mem_cons_of_mem _ List.mem_cons_self
    | some token =>
      have hmem : (word, token) ∈ Token.reservedWords := by
        obtain ⟨before, behind, hrows, -⟩ := List.lookup_eq_some_iff.1 h
        rw [hrows]
        exact List.mem_append_right before List.mem_cons_self
      exact List.mem_cons_of_mem _ (List.mem_cons_of_mem _ (List.mem_map_of_mem hmem))

/-- No row of runes spells `eof` or `illegal`. -/
theorem Lexeme.token_ne {rs : List Char} {token : Token} (h : Lexeme rs token) :
    token ≠ .eof ∧ token ≠ .illegal := by
  cases h with
  | newline => decide
  | operator h =>
    have hall : ∀ row ∈ Token.operators, row.2 ≠ .eof ∧ row.2 ≠ .illegal := by decide
    exact hall _ h
  | @literal kind rs h => cases kind <;> decide
  | symbol => decide
  | whole => decide
  | decimal => split <;> decide
  | @word first rest hfirst hunderscore hdigit hrest =>
    have hall : ∀ t ∈ Token.bool :: .ident :: Token.reservedWords.map (·.2),
        t ≠ .eof ∧ t ≠ .illegal := by decide
    exact hall _ (ofWord_mem _)

/-- Something other than `eof` is found where runes are left. -/
theorem Found.token_ne_eof {start : Position} {rs : List Char} {found : Finding}
    (h : Found start rs found) : found.item.token ≠ .eof := by
  cases h with
  | lexeme h => exact h.token_ne.1
  | repeatedMark => simp [Finding.illegal]
  | stray => simp [Finding.illegal]

end LexStream.Grammar
