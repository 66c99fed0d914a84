/-!
# Settings

The settings of a scan and of the queue to its consumer, their defaults, and which of them are
valid (`Config.validate`).
-/

namespace LexStream

/-- The settings of a scan: the queue to the consumer, the read buffer, and the name of the thread
that scans. -/
structure Config where
  /-- The number of results that the queue holds before the scan waits. -/
  channelCapacity : Nat := 0
  /-- Whether the queue holds any number of results, whatever its capacity. -/
  unbounded : Bool := false
  /-- The number of bytes that the read buffer holds. -/
  readBufferSize : Nat := 8192
  /-- The name of the thread that scans. -/
  threadName : String := "goxc-lex"
deriving DecidableEq, Inhabited

/-- What is wrong with a `Config`, or with the text it comes from. -/
inductive ConfigError where
  /-- The text is no document of settings. -/
  | malformed
  /-- The settings have no written form. -/
  | unwritable
  /-- The text could not be read, for the reason in `message`. -/
  | unreadable (message : String)
  /-- A setting has a value that `Config.validate` refuses. -/
  | invalid (reason : String)
deriving DecidableEq

namespace ConfigError

/-- The wording of an error, its cause included where `message` or `reason` is given. -/
def message : ConfigError → String
  | .malformed => "Failed to parse configuration"
  | .unwritable => "Failed to serialize configuration"
  | .unreadable message => "Failed to read configuration: " ++ message
  | .invalid reason => "Invalid configuration: " ++ reason

/-- Whether an error stems from another failure, which only `invalid` does not. -/
def hasSource : ConfigError → Bool
  | .invalid _ => false
  | _ => true

end ConfigError

namespace Config

/-- Checks the settings: `readBufferSize` is positive, and `threadName` is neither empty nor holds a
NUL.  The first fault in this order is the one told. -/
def validate (c : Config) : Except ConfigError Unit :=
  if c.readBufferSize = 0 then .error (.invalid "read_buffer_size must be > 0")
  else if c.threadName.isEmpty then .error (.invalid "thread_name must not be empty")
  else if c.threadName.toList.contains '\x00' then
    .error (.invalid "thread_name must not contain NUL")
  else .ok ()

end Config

end LexStream
