import LexStream.Item
import LexStream.ReadFailure
import LexStream.Text.Hex

/-!
# Fatal errors of a scan

What ends a scan before the end of its text: a read that failed, bytes that are not UTF-8, a literal
without its end, and a consumer that no longer listens.  `LexError.message` is the wording.
-/

namespace LexStream

/-- The literals that need an end, for which the scan gives `LexError.unterminated` without one. -/
inductive LiteralKind where
  /-- A text between double quotes. -/
  | string
  /-- A text between backticks. -/
  | template
  /-- A tagged payload between brackets. -/
  | structured
deriving DecidableEq, Inhabited

/-- The word for a kind of literal in `LexError.cause`. -/
def LiteralKind.name : LiteralKind → String
  | .string => "string"
  | .template => "template"
  | .structured => "structured"

/-- The reasons for which a scan ends before the end of its text. -/
inductive LexError where
  /-- A read failed where the rune at `pos` was to be read. -/
  | readFailed (pos : Position) (failure : ReadFailure)
  /-- The bytes where the rune at `pos` was to be read start no rune. -/
  | invalidUtf8 (pos : Position) (bytes : List UInt8)
  /-- The text ends inside the literal that starts at `start`. -/
  | unterminated (kind : LiteralKind) (start : Position)
  /-- The tag that starts at `start` is followed by `found`, which opens no payload. -/
  | missingDelimiter (start : Position) (found : Char)
  /-- The consumer has stopped listening. -/
  | cancelled
deriving DecidableEq, Inhabited

namespace LexError

/-- The position an error points at; `cancelled` points nowhere. -/
def position? : LexError → Option Position
  | .readFailed pos _ => some pos
  | .invalidUtf8 pos _ => some pos
  | .unterminated _ start => some start
  | .missingDelimiter start _ => some start
  | .cancelled => none

/-- What an error says of its cause, its `position?` apart. -/
def cause : LexError → String
  | .readFailed _ failure => "read failed: " ++ failure.message
  | .invalidUtf8 _ bytes =>
    "invalid UTF-8 sequence [" ++ ", ".intercalate (bytes.map Text.byteHex) ++ "]"
  | .unterminated kind _ => "unterminated " ++ kind.name ++ " literal"
  | .missingDelimiter _ found =>
    "structured literal expects '\x7b', '(' or '|', found " ++ Text.quotedRune found
  | .cancelled => "scan cancelled"

/-- The wording of an error: its `position?`, if it has one, and its `cause`. -/
def message (e : LexError) : String :=
  match e.position? with
  | some pos => toString pos ++ ": " ++ e.cause
  | none => e.cause

/-- The message of the failed read behind a `readFailed`. -/
def source? : LexError → Option String
  | .readFailed _ failure => some failure.message
  | _ => none

end LexError

/-- One element of a token stream: an `Item`, or the `LexError` that ends the stream. -/
abbrev LexResult := Except LexError Item

instance : DecidableEq LexResult
  | .ok i, .ok j => if h : i = j then .isTrue (h ▸ rfl) else .isFalse (by simpa using h)
  | .error d, .error e => if h : d = e then .isTrue (h ▸ rfl) else .isFalse (by simpa using h)
  | .ok _, .error _ => .isFalse (by simp)
  | .error _, .ok _ => .isFalse (by simp)

end LexStream
