import LexStream.Text.Digit
import LexStream.Text.Hex
import LexStream.Text.Scalar

/-!
# Forms of strings

The four written forms of a string in a TOML document: basic and literal, on one line or on several.
A basic form has escapes, a literal one has none.  A form on several lines drops a newline right
behind its opening quotes, keeps up to two quotes in a row as they are, and ends at three.

Reading is a machine that sees one rune at a time; what it has seen without deciding on it is its
state (`Undecided`).
-/

namespace LexStream.Toml

/-- The written forms of a string. -/
inductive StringForm where
  /-- Between double quotes, with escapes. -/
  | basic
  /-- Between single quotes, as it is. -/
  | literal
  /-- Between triple double quotes, with escapes. -/
  | multiBasic
  /-- Between triple single quotes, as it is. -/
  | multiLiteral
deriving DecidableEq

namespace StringForm

/-- The quote of a form, which its `fence` is made of. -/
def quote : StringForm → Char
  | .basic | .multiBasic => '"'
  | .literal | .multiLiteral => '\''

/-- Whether a form has escapes, which is so for `basic` and `multiBasic`. -/
def hasEscapes : StringForm → Bool
  | .basic | .multiBasic => true
  | .literal | .multiLiteral => false

/-- Whether a form may go over several lines, which is so for `multiBasic` and `multiLiteral`. -/
def isMulti : StringForm → Bool
  | .multiBasic | .multiLiteral => true
  | .basic | .literal => false

/-- The quotes that open and close a string of the `form`. -/
def fence (form : StringForm) : List Char :=
  List.replicate (if form.isMulti then 3 else 1) form.quote

end StringForm

/-- Whether the rune `r` may stand for itself in a document: anything but a control, the tab
excepted. -/
def isPlain (r : Char) : Bool :=
  r = '\t' || (0x20 ≤ r.toNat && r.toNat ≠ 0x7F)

/-- Whether the rune `r` is white space within a line. -/
def isBlank (r : Char) : Bool :=
  r = ' ' || r = '\t'

/-! ### Reading -/

/-- What a string holds that is not decided yet. -/
inductive Undecided where
  /-- The `count` quotes in a row that were read last, which may belong to the string or close
  it. -/
  | quotes (count : Nat)
  /-- A carriage return, which a newline must follow; with `inMargin` both are dropped. -/
  | carriage (inMargin : Bool)
  /-- A backslash. -/
  | backslash
  /-- An escape by number that needs `missing + 1` more digits. -/
  | number (missing value : Nat)
  /-- A backslash and white space, which a newline must follow. -/
  | lineEnd
  /-- The white space behind an escaped newline, which is dropped. -/
  | margin

/-- What becomes of a string with the next rune, the `content` read so far included. -/
inductive Progress where
  /-- It goes on, with what is undecided in `state`. -/
  | more (state : Undecided) (content : String)
  /-- It ends with the rune. -/
  | closed (content : String)
  /-- It has ended before the rune. -/
  | closedBefore (content : String)
  /-- It is no string. -/
  | broken

namespace StringForm

/-- The content with `count` quotes behind it. -/
def pushQuotes (form : StringForm) (content : String) (count : Nat) : String :=
  count.repeat (fun s => s.push form.quote) content

/-- What a rune `r` does behind `content` that is no quote and stands for itself, if it may. -/
def plainStep (form : StringForm) (content : String) (r : Char) : Progress :=
  if r = '\\' && form.hasEscapes then .more .backslash content
  else if r = '\n' && form.isMulti then .more (.quotes 0) (content.push r)
  else if r = '\r' && form.isMulti then .more (.carriage false) content
  else if isPlain r then .more (.quotes 0) (content.push r)
  else .broken

/-- What a rune does behind `count` quotes.  Three quotes close a form on several lines; up to two
more in front of them belong to the string. -/
def quotesStep (form : StringForm) (count : Nat) (content : String) (r : Char) : Progress :=
  if r = form.quote then
    if !form.isMulti then .closed content
    else if count = 4 then .closed (form.pushQuotes content 2)
    else .more (.quotes (count + 1)) content
  else if 3 ≤ count then .closedBefore (form.pushQuotes content (count - 3))
  else form.plainStep (form.pushQuotes content count) r

/-- The rune that the escape of the one letter `r` stands for. -/
def escape? (r : Char) : Option Char :=
  if r = 'b' then some '\x08'
  else if r = 't' then some '\t'
  else if r = 'n' then some '\n'
  else if r = 'f' then some '\x0C'
  else if r = 'r' then some '\r'
  else if r = '"' then some '"'
  else if r = '\\' then some '\\'
  else none

/-- What the rune `r` does behind a backslash, by `escape?` or as the start of an escape by
number. -/
def escapeStep (form : StringForm) (content : String) (r : Char) : Progress :=
  match escape? r with
  | some escaped => .more (.quotes 0) (content.push escaped)
  | none =>
    if r = 'u' then .more (.number 3 0) content
    else if r = 'U' then .more (.number 7 0) content
    else if !form.isMulti then .broken
    else if isBlank r then .more .lineEnd content
    else if r = '\n' then .more .margin content
    else if r = '\r' then .more (.carriage true) content
    else .broken

/-- What the rune `r` does in an escape by number, of which `value` is read and `missing + 1` digits
are not. -/
def numberStep (missing value : Nat) (content : String) (r : Char) : Progress :=
  if Text.isDigitIn 16 r then
    let value := value * 16 + (Text.digitValue? r).getD 0
    match missing with
    | 0 =>
      match Text.scalar? value with
      | some escaped => .more (.quotes 0) (content.push escaped)
      | none => .broken
    | missing + 1 => .more (.number missing value) content
  else .broken

/-- What the rune `r` does behind `content` and what is undecided. -/
def step (form : StringForm) (content : String) (r : Char) : Undecided → Progress
  | .quotes count => form.quotesStep count content r
  | .carriage inMargin =>
    if r ≠ '\n' then .broken
    else if inMargin then .more .margin content
    else .more (.quotes 0) (content.push r)
  | .backslash => form.escapeStep content r
  | .number missing value => numberStep missing value content r
  | .lineEnd =>
    if isBlank r then .more .lineEnd content
    else if r = '\n' then .more .margin content
    else if r = '\r' then .more (.carriage true) content
    else .broken
  | .margin =>
    if isBlank r || r = '\n' then .more .margin content
    else if r = '\r' then .more (.carriage true) content
    else form.quotesStep 0 content r

/-- The `content` of a string that ends where the document does, which needs three quotes in a
row. -/
def atEnd? (form : StringForm) (content : String) : Undecided → Option String
  | .quotes count => if 3 ≤ count then some (form.pushQuotes content (count - 3)) else none
  | _ => none

/-- Reads a string behind its opening quotes, by one `step` for each rune: its content and what
follows its closing ones. -/
def readOn (form : StringForm) (state : Undecided) (content : String) :
    List Char → Option (String × List Char)
  | [] => (form.atEnd? content state).map (·, [])
  | r :: rs =>
    match form.step content r state with
    | .more state content => form.readOn state content rs
    | .closed content => some (content, rs)
    | .closedBefore content => some (content, r :: rs)
    | .broken => none

/-- Drops a newline at the front, with or without a carriage return. -/
def dropNewline : List Char → List Char
  | '\n' :: rs => rs
  | '\r' :: '\n' :: rs => rs
  | rs => rs

/-- Reads a string of any of the forms in `forms`, tried in their order. -/
def readAny? (forms : List StringForm) (text : List Char) : Option (String × List Char) :=
  match forms.find? (fun form => form.fence.isPrefixOf text) with
  | some form =>
    let inside := text.drop form.fence.length
    form.readOn (.quotes 0) "" (if form.isMulti then dropNewline inside else inside)
  | none => none

/-- Reads a string of any `StringForm`, those on several lines tried first. -/
def read? (text : List Char) : Option (String × List Char) :=
  readAny? [.multiBasic, .basic, .multiLiteral, .literal] text

/-- Reads a string on one line, `basic` or `literal`. -/
def readLine? (text : List Char) : Option (String × List Char) :=
  readAny? [.basic, .literal] text

end StringForm

/-! ### Writing -/

/-- Whether the rune `r` is a control. -/
def isControl (r : Char) : Bool :=
  r.toNat ≤ 0x1F || r.toNat = 0x7F

namespace StringForm

/-- How a `form` with escapes writes the rune `r`, which is no quote. -/
def escaped (form : StringForm) (r : Char) : List Char :=
  if r = '\n' && form.isMulti then [r]
  else if r = '\x08' then ['\\', 'b']
  else if r = '\t' then ['\\', 't']
  else if r = '\n' then ['\\', 'n']
  else if r = '\x0C' then ['\\', 'f']
  else if r = '\r' then ['\\', 'r']
  else if r = '\\' then ['\\', '\\']
  else if isControl r then '\\' :: 'u' :: Text.fixedHex Text.upperDigit 4 r.toNat
  else [r]

/-- Writes the runes of a string behind `count` quotes in a row.  With escapes, every quote is
escaped on one line, and every third one in a row on several. -/
def writeOn (form : StringForm) (count : Nat) : List Char → List Char
  | [] => []
  | r :: rs =>
    if !form.hasEscapes then r :: form.writeOn 0 rs
    else if r ≠ form.quote then form.escaped r ++ form.writeOn 0 rs
    else if form.isMulti && count < 2 then r :: form.writeOn (count + 1) rs
    else '\\' :: r :: form.writeOn 0 rs

/-- Writes `content` in a `form`.  On several lines, a string that holds a newline starts on a line
of its own. -/
def write (form : StringForm) (content : List Char) : List Char :=
  form.fence ++ (if form.isMulti && content.contains '\n' then ['\n'] else []) ++
    form.writeOn 0 content ++ form.fence

/-- The length of the longest row of `quote` in a string, behind `count` of them in a row. -/
def longestRow (quote : Char) (count : Nat) : List Char → Nat
  | [] => count
  | r :: rs =>
    if r = quote then longestRow quote (count + 1) rs else max count (longestRow quote 0 rs)

/-- The form in which `content` is written: the plainest one in which it needs no escapes, and a
basic one when there is none. -/
def choose (content : List Char) : StringForm :=
  let codes := content.any fun r => isControl r && r ≠ '\t' && r ≠ '\n'
  let lines := content.contains '\n'
  let slashes := content.contains '\\'
  let single := longestRow '\'' 0 content
  let double := longestRow '"' 0 content
  if !codes && !slashes && double = 0 && !lines then .basic
  else if !codes && single = 0 && !lines then .literal
  else if !codes && !slashes && double ≤ 2 then .multiBasic
  else if !codes && single ≤ 2 then .multiLiteral
  else if lines then .multiBasic
  else .basic

end StringForm

end LexStream.Toml
