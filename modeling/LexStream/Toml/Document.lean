import LexStream.Toml.DateTime
import LexStream.Toml.Number
import LexStream.Toml.StringForm

/-!
# Documents

A TOML document is read line by line: comments, headers of tables and of elements of arrays of
tables, and keys with their values.  Arrays and inline tables may be nested, and keys may be dotted,
up to a fixed depth.
-/

namespace LexStream.Toml

/-- The least number of levels that arrays and inline tables, or the parts of a key, must not
reach. -/
def depthLimit : Nat := 80

/-! ### White space and comments -/

/-- Drops white space within a line, runes with `isBlank`. -/
def dropBlanks (text : List Char) : List Char :=
  text.dropWhile isBlank

/-- Drops a comment, `#` and the runes with `isPlain` behind it, if there is one. -/
def dropComment : List Char → List Char
  | '#' :: rs => rs.dropWhile isPlain
  | rs => rs

/-- Reads the end of a line, which is a newline or the end of the document. -/
def newlineOrEnd? : List Char → Option (List Char)
  | [] => some []
  | '\n' :: rs => some rs
  | '\r' :: '\n' :: rs => some rs
  | _ => none

/-- Reads what may stand at the end of a line, a comment, and the end itself by `newlineOrEnd?`. -/
def lineEnd? (text : List Char) : Option (List Char) :=
  newlineOrEnd? (dropComment (dropBlanks text))

/-- Drops what may stand between the elements of an array: white space, newlines and comments.
While `inComment`, only `isPlain` runes are dropped up to the end of the line. -/
def dropFiller (inComment : Bool) : List Char → List Char
  | [] => []
  | '\r' :: '\n' :: rs => dropFiller false rs
  | r :: rs =>
    if r = '\n' then dropFiller false rs
    else if inComment then if isPlain r then dropFiller true rs else r :: rs
    else if isBlank r then dropFiller false rs
    else if r = '#' then dropFiller true rs
    else r :: rs

/-! ### Keys -/

/-- Whether the rune `r` may stand in a key without quotes. -/
def isKeyRune (r : Char) : Bool :=
  r.isAlphanum || r = '_' || r = '-'

/-- Reads one part of a key: a string on one line, or a row of runes with `isKeyRune`. -/
def keyPart? (text : List Char) : Option (String × List Char) :=
  match text with
  | '"' :: _ => StringForm.readLine? text
  | '\'' :: _ => StringForm.readLine? text
  | _ =>
    let name := text.takeWhile isKeyRune
    if name.isEmpty then none else some (String.ofList name, text.dropWhile isKeyRune)

/-- Reads the parts of a key, at most `n` of them, with the white space around each. -/
def keyParts? : Nat → List Char → Option (List String × List Char)
  | 0, _ => none
  | n + 1, text => do
    let (part, text) ← keyPart? (dropBlanks text)
    match dropBlanks text with
    | '.' :: text =>
      let (parts, text) ← keyParts? n text
      return (part :: parts, text)
    | text => return ([part], text)

/-- Reads a key of less than `depthLimit` parts. -/
def key? (text : List Char) : Option (List String × List Char) :=
  keyParts? (depthLimit - 1) text

/-! ### Values -/

/-- Reads the word `word`. -/
def word? (word : List Char) (text : List Char) : Option (List Char) :=
  if word.isPrefixOf text then some (text.drop word.length) else none

/-- Reads a value that holds no others: a string, a truth value, a date or time, or a number. -/
def scalarValue? (text : List Char) : Option (Node × List Char) :=
  match text with
  | [] => none
  | r :: _ =>
    if r = '"' || r = '\'' then (StringForm.read? text).map fun (s, rest) => (.string s, rest)
    else if r = 't' then (word? ['t', 'r', 'u', 'e'] text).map (.boolean true, ·)
    else if r = 'f' then (word? ['f', 'a', 'l', 's', 'e'] text).map (.boolean false, ·)
    else if DateTime.startsDate text || DateTime.startsTime text then DateTime.read? text
    else Number.read? text

/-- Reads the elements of an array behind those read already, at most `n` more, and its end. -/
def elements? (value? : List Char → Option (Node × List Char)) :
    Nat → List Node → List Char → Option (Node × List Char)
  | 0, _, _ => none
  | n + 1, before, text =>
    match dropFiller false text with
    | ']' :: rest => some (.array before, rest)
    | text => do
      let (element, text) ← value? text
      match dropFiller false text with
      | ']' :: rest => return (.array (before ++ [element]), rest)
      | ',' :: text => elements? value? n (before ++ [element]) text
      | _ => none

/-- Reads a key, its value by `value?` and the white space behind it into the `entries` of a
table. -/
def keyValue? (value? : List Char → Option (Node × List Char)) (entries : Entries)
    (text : List Char) : Option (Entries × List Char) := do
  let (path, text) ← key? text
  match text with
  | '=' :: text =>
    let (value, text) ← value? (dropBlanks text)
    let entries ← entries.extend value (← path.getLast?) .header false path.dropLast
    return (entries, dropBlanks text)
  | _ => none

/-- Reads the keys of an inline table behind those read already, at most `n` more, and its end. -/
def pairs? (value? : List Char → Option (Node × List Char)) :
    Nat → Entries → List Char → Option (Node × List Char)
  | 0, _, _ => none
  | n + 1, before, text => do
    let (entries, text) ← keyValue? value? before text
    match text with
    | '\x7d' :: rest => return (.inlineTable entries, rest)
    | ',' :: text => pairs? value? n entries text
    | _ => none

/-- Reads a value in which arrays and inline tables are nested less than `depth + 1` deep. -/
def value? : Nat → List Char → Option (Node × List Char)
  | 0, text => scalarValue? text
  | depth + 1, text =>
    match text with
    | '[' :: text => elements? (value? depth) (text.length + 1) [] text
    | '\x7b' :: text =>
      match dropBlanks text with
      | '\x7d' :: rest => some (.inlineTable [], rest)
      | text => pairs? (value? depth) (text.length + 1) [] text
    | text => scalarValue? text

/-! ### Lines -/

/-- What was read of a document: its tables under `root`, and the row of keys, `here`, to the table
that is open. -/
structure Document where
  root : Entries := []
  here : List String := []

namespace Document

/-- Opens the table or the element at `path` that a header names, by `Entries.openTable` or
`Entries.openRow`, and makes it the open one. -/
def open? (f : String → Entries → Option Entries) (d : Document) (path : List String) :
    Option Document := do
  let key ← path.getLast?
  let root ← d.root.modifyAt (f key) path.dropLast
  return ⟨root, path⟩

/-- Reads a header behind its opening brackets: its key, its `closing` brackets and the end of its
line. -/
def header? (f : String → Entries → Option Entries) (closing : List Char) (d : Document)
    (text : List Char) : Option (Document × List Char) := do
  let (path, text) ← key? text
  let text ← lineEnd? (← word? closing text)
  return (← d.open? f path, text)

/-- Reads a key with its value and the end of its line, into the table `here` that is open. -/
def entry? (d : Document) (text : List Char) : Option (Document × List Char) := do
  let (path, text) ← key? text
  match text with
  | '=' :: text =>
    let (value, text) ← value? (depthLimit - 1) (dropBlanks text)
    let text ← lineEnd? text
    let key ← path.getLast?
    let root ← d.root.modifyAt (Entries.extend value key .header false path.dropLast) d.here
    return ({ d with root }, text)
  | _ => none

/-- Reads a line: the header of an element of an array of tables or of a table, an empty line, or an
entry by `entry?`. -/
def line? (d : Document) (text : List Char) : Option (Document × List Char) :=
  match dropBlanks text with
  | '[' :: '[' :: text => d.header? Entries.openRow [']', ']'] text
  | '[' :: text => d.header? Entries.openTable [']'] text
  | text =>
    match lineEnd? text with
    | some rest => some (d, rest)
    | none => d.entry? text

/-- Reads at most `n` lines, which must be all there are. -/
def lines? : Nat → Document → List Char → Option Document
  | _, d, [] => some d
  | 0, _, _ :: _ => none
  | n + 1, d, text => do
    let (d, text) ← d.line? text
    lines? n d text

/-- Drops a byte order mark `U+FEFF` at the front. -/
def dropMark : List Char → List Char
  | '\uFEFF' :: rs => rs
  | rs => rs

/-- Reads the document `text`: the entries of its top table. -/
def read? (text : List Char) : Option Entries :=
  (lines? (text.length + 1) {} (dropMark text)).map Document.root

end Document

end LexStream.Toml
