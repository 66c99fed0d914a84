import LexStream.Config
import LexStream.Toml.Document

/-!
# Settings as documents

The settings of a scan in a TOML document: how they are read from one and checked, and how they are
written.  Keys that are no settings are ignored, and settings without a key keep their defaults.
-/

namespace LexStream.Config

open LexStream.Toml

/-! ### Reading -/

/-- The number under `key`, a whole number that is not negative, or the `default` without the
key. -/
def natural (entries : Entries) (key : String) (default : Nat) : Except ConfigError Nat :=
  match entries.lookup key with
  | none => .ok default
  | some (.integer n) => if 0 ≤ n then .ok n.toNat else .error .malformed
  | some _ => .error .malformed

/-- The truth value under `key`, or the `default` without the key. -/
def boolean (entries : Entries) (key : String) (default : Bool) : Except ConfigError Bool :=
  match entries.lookup key with
  | none => .ok default
  | some (.boolean b) => .ok b
  | some _ => .error .malformed

/-- The string under `key`, or the `default` without the key. -/
def string (entries : Entries) (key : String) (default : String) : Except ConfigError String :=
  match entries.lookup key with
  | none => .ok default
  | some (.string text) => .ok text
  | some _ => .error .malformed

/-- The settings that the `entries` of a document give, with the defaults of `Config`. -/
def ofEntries (entries : Entries) : Except ConfigError Config := do
  let defaults : Config := {}
  return {
    channelCapacity := ← natural entries "channel_capacity" defaults.channelCapacity
    unbounded := ← boolean entries "unbounded" defaults.unbounded
    readBufferSize := ← natural entries "read_buffer_size" defaults.readBufferSize
    threadName := ← string entries "thread_name" defaults.threadName }

/-- Reads settings from the document `text` and checks them with `validate`. -/
def ofDocument (text : String) : Except ConfigError Config := do
  match Document.read? text.toList with
  | none => throw .malformed
  | some entries =>
    let config ← ofEntries entries
    config.validate
    return config

/-- Reads settings from the bytes of a file, `none` if it is not there. -/
def ofFile (content : Option (List UInt8)) : Except ConfigError Config :=
  match content with
  | none => .error (.unreadable "No such file or directory (os error 2)")
  | some bytes =>
    match String.fromUTF8? ⟨bytes.toArray⟩ with
    | none => .error (.unreadable "stream did not contain valid UTF-8")
    | some text => ofDocument text

/-! ### Writing -/

/-- The line for `key` and the written form `value` of its value. -/
def line (key : String) (value : List Char) : List Char :=
  key.toList ++ [' ', '=', ' '] ++ value ++ ['\n']

/-- The settings `c` as four lines, in the order of the fields of `Config`. -/
def lines (c : Config) : List Char :=
  line "channel_capacity" (toString c.channelCapacity).toList ++
    line "unbounded" (toString c.unbounded).toList ++
    line "read_buffer_size" (toString c.readBufferSize).toList ++
    line "thread_name" ((StringForm.choose c.threadName.toList).write c.threadName.toList)

/-- Writes the settings `c` as a document, which holds no whole number from `integerBound` on. -/
def toDocument (c : Config) : Except ConfigError String :=
  if c.channelCapacity < integerBound && c.readBufferSize < integerBound then
    .ok (String.ofList c.lines)
  else .error .unwritable

end LexStream.Config
