import LexStream.Finding

/-!
# Log records

What a scan and its consumer write into the log, as data: each record has a level and a message.
-/

namespace LexStream

/-- How much a record matters. -/
inductive Level where
  | trace | debug | warn | error
deriving DecidableEq

/-- The word for a level, in capitals. -/
def Level.name : Level → String
  | .trace => "TRACE"
  | .debug => "DEBUG"
  | .warn => "WARN"
  | .error => "ERROR"

/-- A record of the log. -/
inductive Record where
  /-- The `item` was found. -/
  | found (item : Item)
  /-- The `remark` on the item found next, which is illegal. -/
  | remarked (remark : Remark)
  /-- The fatal error `e` ended the scan. -/
  | halted (e : LexError)
  /-- A scan for a consumer has begun. -/
  | scanStarted
  /-- A scan for a consumer has stopped at `pos` since the consumer no longer listens. -/
  | scanCancelled (pos : Position)
  /-- A scan for a consumer has come to its end at `pos` after a number of `items`. -/
  | scanFinished (pos : Position) (items : Nat)
  /-- The consumer has stopped a stream. -/
  | streamCancelled
deriving DecidableEq

namespace Record

/-- The level of a record, `warn` for a remark and `error` for a fatal error. -/
def level : Record → Level
  | .found _ => .trace
  | .remarked _ => .warn
  | .halted _ => .error
  | .scanStarted | .scanCancelled _ | .scanFinished .. | .streamCancelled => .debug

/-- The message of a record, without its `level`. -/
def message : Record → String
  | .found item => toString item
  | .remarked remark => remark.message
  | .halted e => "lexing halted: " ++ e.message
  | .scanStarted => "scan started"
  | .scanCancelled pos => "scan cancelled at " ++ toString pos
  | .scanFinished pos items =>
    "scan finished at " ++ toString pos ++ " after " ++ toString items ++ " items"
  | .streamCancelled => "token stream cancelled by consumer"

/-- A record is written as its `level` and its `message`. -/
instance : ToString Record where
  toString r := r.level.name ++ " " ++ r.message

/-- The records of one step of a scan: a `found` item with its remark before it, or the fatal error
as `halted`. -/
def ofFinding : Except LexError Finding → List Record
  | .ok f => f.remark.toList.map .remarked ++ [.found f.item]
  | .error e => [.halted e]

end Record

end LexStream
