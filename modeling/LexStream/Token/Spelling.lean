import LexStream.Token

/-!
# Fixed spellings

The kinds with a spelling of their own: the operators and punctuation, the reserved words, and the
words for the truth values.  Names are sorted into kinds by these tables (`Token.ofWord`).

Main facts:

* `Token.reservedWord?_eq_some_iff`: the reserved word of a kind is the word of that kind's row;
* `Token.lexeme?_eq_some_iff`: the lexeme of a kind is the lexeme of that kind's row.
-/

namespace LexStream.Token

/-- The operators and punctuation, each lexeme with its `Token`. -/
def operators : List (String × Token) := [
  ("+", .add), ("-", .sub), ("*", .mul), ("/", .div), ("%", .mod), ("&", .bitAnd), ("|", .bitOr),
  ("^", .bitNot), ("<<", .shiftLeft), (">>", .shiftRight), ("&^", .bitClear), ("=", .assign),
  (":=", .define), ("+=", .assignAdd), ("-=", .assignSub), ("*=", .assignMul), ("/=", .assignDiv),
  ("%=", .assignMod), ("++", .increment), ("--", .decrement), ("&=", .assignBitAnd),
  ("|=", .assignBitOr), ("^=", .assignBitNot), ("<<=", .assignShiftLeft),
  (">>=", .assignShiftRight), ("&^=", .assignBitClear), ("&&", .logicalAnd), ("||", .logicalOr),
  ("==", .equal), ("<", .less), (">", .greater), ("!", .logicalNot), ("!=", .notEqual),
  ("<=", .lessEqual), (">=", .greaterEqual), ("(", .openParen), (")", .closeParen),
  ("[", .openBracket), ("]", .closeBracket), ("\x7b", .openBrace), ("\x7d", .closeBrace),
  (",", .comma), (".", .dot), (";", .semicolon), ("=>", .arrow), ("_", .underscore)]

/-- The reserved words, each with its `Token`. -/
def reservedWords : List (String × Token) := [
  ("package", .packageWord), ("func", .funcWord), ("var", .varWord), ("const", .constWord),
  ("type", .typeWord), ("any", .anyWord), ("nil", .nil), ("interface", .interfaceWord),
  ("return", .returnWord), ("if", .ifWord), ("else", .elseWord), ("switch", .switchWord),
  ("default", .defaultWord), ("continue", .continueWord), ("break", .breakWord),
  ("for", .forWord), ("match", .matchWord), ("symbol", .symbolType), ("string", .stringType),
  ("int", .intType), ("float", .floatType), ("bool", .boolType), ("tuple", .tupleType),
  ("struct", .structType), ("map", .mapType), ("enum", .enumType)]

/-- The words for the two values of the kind `bool`. -/
def boolWords : List String :=
  ["true", "false"]

/-- The spelling that the `table` gives the kind `t`, which is that of its first row. -/
def spelledIn? (table : List (String × Token)) (t : Token) : Option String :=
  (table.find? (·.2 == t)).map (·.1)

/-- The kind of the operator or punctuation mark `t` is spelled as. -/
def lexeme? (t : Token) : Option String :=
  spelledIn? operators t

/-- The reserved word that the kind `t` stands for. -/
def reservedWord? (t : Token) : Option String :=
  spelledIn? reservedWords t

/-- The kind of the reserved word `word`. -/
def ofReservedWord? (word : String) : Option Token :=
  reservedWords.lookup word

/-- Whether the `word` is one of `boolWords`. -/
def isBoolWord (word : String) : Bool :=
  boolWords.contains word

/-- The kind of a name: `bool` for a truth value, that of a reserved word, or else `ident`. -/
def ofWord (word : String) : Token :=
  if isBoolWord word then .bool else (ofReservedWord? word).getD .ident

/-- Whether `t` is a keyword, the word for a type or `nil`, a kind with a `reservedWord?`. -/
def isKeyword (t : Token) : Bool :=
  t.reservedWord?.isSome

/-- Whether `t` is an operator or a punctuation mark, a kind with a `lexeme?`. -/
def isOperator (t : Token) : Bool :=
  t.lexeme?.isSome

/-- Whether the kind is a literal. -/
def isLiteral : Token → Bool
  | .symbol | .string | .template | .structured | .int | .float | .bool | .nil => true
  | _ => false

/-- A `table` whose rows have different kinds spells the kind `t` as its row does. -/
theorem spelledIn?_eq_some_iff {table : List (String × Token)}
    (h : table.Pairwise fun r s => r.2 ≠ s.2) (t : Token) (text : String) :
    spelledIn? table t = some text ↔ (text, t) ∈ table := by
  induction table with
  | nil => simp [spelledIn?]
  | cons r table ih =>
    obtain ⟨word, kind⟩ := r
    have hne := (List.pairwise_cons.1 h).1
    by_cases hk : kind = t
    · subst hk
      -- No later row has this kind.
      have : (text, kind) ∉ table := fun hm => hne _ hm rfl
      simp [spelledIn?, this, eq_comm]
    · have ih := ih (List.pairwise_cons.1 h).2
      simp only [spelledIn?, Option.map_eq_some_iff] at ih
      simp [spelledIn?, hk, ih, Ne.symm hk]

/-- The lexeme of the kind `t` is the lexeme of its row in `operators`. -/
theorem lexeme?_eq_some_iff (t : Token) (text : String) :
    t.lexeme? = some text ↔ (text, t) ∈ operators :=
  spelledIn?_eq_some_iff (by decide) t text

/-- The reserved word of the kind `t` is the word of its row in `reservedWords`. -/
theorem reservedWord?_eq_some_iff (t : Token) (word : String) :
    t.reservedWord? = some word ↔ (word, t) ∈ reservedWords :=
  spelledIn?_eq_some_iff (by decide) t word

end LexStream.Token
