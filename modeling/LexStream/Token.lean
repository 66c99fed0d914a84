/-!
# Kinds of tokens

The closed catalogue of token kinds, in its order, with the name under which each one is shown.  How
the kinds with a fixed spelling are spelled is in `Token.Spelling`.

Main facts:

* `Token.mem_all`: the catalogue lists every kind;
* `Token.ofName?_name`: a kind is found again under its name, so no two kinds share one.
-/

namespace LexStream

/-- A kind of token: the marks of structure, the words for types, the literals, the operators of
arithmetic, assignment and logic, the punctuation and the keywords. -/
inductive Token where
  /-- End of the text. -/
  | eof
  /-- A rune that starts no token, or a mark that a numeral already has. -/
  | illegal
  /-- A name that is no reserved word. -/
  | ident
  /-- A line break. -/
  | newline
  | symbolType | stringType | intType | floatType | boolType | tupleType | structType | mapType
  | enumType
  /-- A colon and a name. -/
  | symbol
  /-- A text between double quotes. -/
  | string
  /-- A text between backticks. -/
  | template
  /-- A tagged payload between brackets. -/
  | structured
  /-- A numeral without fraction and exponent. -/
  | int
  /-- A numeral with a fraction or an exponent. -/
  | float
  /-- A truth value. -/
  | bool
  /-- The absent value. -/
  | nil
  | add | sub | mul | div | mod | bitAnd | bitOr | bitNot | shiftLeft | shiftRight | bitClear
  | assign | define | assignAdd | assignSub | assignMul | assignDiv | assignMod | increment
  | decrement | assignBitAnd | assignBitOr | assignBitNot | assignShiftLeft | assignShiftRight
  | assignBitClear
  | logicalAnd | logicalOr | equal | less | greater | logicalNot | notEqual | lessEqual
  | greaterEqual
  | openParen | closeParen | openBracket | closeBracket | openBrace | closeBrace | comma | dot
  | semicolon | arrow | underscore
  | packageWord | funcWord | varWord | constWord | typeWord | anyWord | interfaceWord
  | returnWord | ifWord | elseWord | switchWord | defaultWord | continueWord | breakWord
  | forWord | matchWord
deriving DecidableEq, Inhabited

namespace Token

/-- The name under which a kind is shown by `toString`. -/
def name : Token → String
  | .eof => "EOF"
  | .illegal => "ILLEGAL"
  | .ident => "IDENT"
  | .newline => "NEWLINE"
  | .symbolType => "T_SYMBOL"
  | .stringType => "T_STRING"
  | .intType => "T_INT"
  | .floatType => "T_FLOAT"
  | .boolType => "T_BOOL"
  | .tupleType => "T_TUPLE"
  | .structType => "T_STRUCT"
  | .mapType => "T_MAP"
  | .enumType => "T_ENUM"
  | .symbol => "SYMBOL"
  | .string => "STRING"
  | .template => "TEMPLATE"
  | .structured => "STRUCTURED"
  | .int => "INT"
  | .float => "FLOAT"
  | .bool => "BOOL"
  | .nil => "NIL"
  | .add => "ADD"
  | .sub => "SUB"
  | .mul => "MULT"
  | .div => "DIV"
  | .mod => "MOD"
  | .bitAnd => "BIT_AND"
  | .bitOr => "BIT_OR"
  | .bitNot => "BIT_NOT"
  | .shiftLeft => "BIT_LEFT"
  | .shiftRight => "BIT_RIGHT"
  | .bitClear => "BIT_CLEAR"
  | .assign => "ASSIGN"
  | .define => "SHORT_VAR"
  | .assignAdd => "ASSIGN_ADD"
  | .assignSub => "ASSIGN_SUB"
  | .assignMul => "ASSIGN_MULT"
  | .assignDiv => "ASSIGN_DIV"
  | .assignMod => "ASSIGN_MOD"
  | .increment => "ASSIGN_INC"
  | .decrement => "ASSIGN_DEC"
  | .assignBitAnd => "ASSIGN_BIT_AND"
  | .assignBitOr => "ASSIGN_BIT_OR"
  | .assignBitNot => "ASSIGN_BIT_NOT"
  | .assignShiftLeft => "ASSIGN_BIT_LEFT"
  | .assignShiftRight => "ASSIGN_BIT_RIGHT"
  | .assignBitClear => "ASSIGN_BIT_CLEAR"
  | .logicalAnd => "AND"
  | .logicalOr => "OR"
  | .equal => "EQ"
  | .less => "LT"
  | .greater => "GT"
  | .logicalNot => "NOT"
  | .notEqual => "NEQ"
  | .lessEqual => "LTEQ"
  | .greaterEqual => "GTEQ"
  | .openParen => "OPEN_PAREN"
  | .closeParen => "CLOSE_PAREN"
  | .openBracket => "OPEN_BRACKET"
  | .closeBracket => "CLOSE_BRACKET"
  | .openBrace => "OPEN_BRACE"
  | .closeBrace => "CLOSE_BRACE"
  | .comma => "COMMA"
  | .dot => "ACCESS"
  | .semicolon => "SEMI"
  | .arrow => "ARROW"
  | .underscore => "OMIT"
  | .packageWord => "PACKAGE"
  | .funcWord => "FUNC"
  | .varWord => "VAR"
  | .constWord => "CONST"
  | .typeWord => "TYPE"
  | .anyWord => "ANY"
  | .interfaceWord => "INTERFACE"
  | .returnWord => "RETURN"
  | .ifWord => "IF"
  | .elseWord => "ELSE"
  | .switchWord => "SWITCH"
  | .defaultWord => "DEFAULT"
  | .continueWord => "CONTINUE"
  | .breakWord => "BREAK"
  | .forWord => "FOR"
  | .matchWord => "MATCH"

instance : ToString Token where
  toString := name

/-- Every kind, in the order of the catalogue. -/
def all : List Token := [
    .eof, .illegal, .ident, .newline, .symbolType, .stringType, .intType, .floatType, .boolType,
    .tupleType, .structType, .mapType, .enumType, .symbol, .string, .template, .structured, .int,
    .float, .bool, .nil, .add, .sub, .mul, .div, .mod, .bitAnd, .bitOr, .bitNot, .shiftLeft,
    .shiftRight, .bitClear, .assign, .define, .assignAdd, .assignSub, .assignMul, .assignDiv,
    .assignMod, .increment, .decrement, .assignBitAnd, .assignBitOr, .assignBitNot,
    .assignShiftLeft, .assignShiftRight, .assignBitClear, .logicalAnd, .logicalOr, .equal, .less,
    .greater, .logicalNot, .notEqual, .lessEqual, .greaterEqual, .openParen, .closeParen,
    .openBracket, .closeBracket, .openBrace, .closeBrace, .comma, .dot, .semicolon, .arrow,
    .underscore, .packageWord, .funcWord, .varWord, .constWord, .typeWord, .anyWord,
    .interfaceWord, .returnWord, .ifWord, .elseWord, .switchWord, .defaultWord, .continueWord,
    .breakWord, .forWord, .matchWord]

/-- The place of the kind `t` in the catalogue `all`. -/
def index (t : Token) : Nat :=
  all.idxOf t

/-- Kinds are ordered by their `index`. -/
instance : LT Token where
  lt s t := s.index < t.index

instance (s t : Token) : Decidable (s < t) :=
  inferInstanceAs (Decidable (s.index < t.index))

/-- The kind shown under the name `text`. -/
def ofName? (text : String) : Option Token :=
  all.find? (·.name == text)

theorem mem_all (t : Token) : t ∈ all := by
  cases t <;> decide

/-- The kind `t` is found again under its `name`. -/
theorem ofName?_name (t : Token) : ofName? t.name = some t := by
  have h : ∀ t ∈ all, ofName? t.name = some t := by decide +kernel
  exact h t (mem_all t)

/-- No two kinds share a `name`. -/
theorem eq_of_name_eq {s t : Token} (h : s.name = t.name) : s = t := by
  have := ofName?_name s
  rw [h, ofName?_name t] at this
  exact (Option.some.inj this).symm

end Token

end LexStream
