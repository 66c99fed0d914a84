import LexStream.ReadFailure

/-!
# Byte sources

Where the bytes of a text come from.  A source is asked for one byte at a time and answers with the
byte, with the end of its input or with a failure.  An end need not be final: asked again, a source
may go on.

A list of signals is the plainest source: it gives its signals one after the other and is at its end
from then on.
-/

namespace LexStream

/-- What a source answers to `ByteSource.read`, when it is asked for a byte. -/
inductive Signal where
  /-- The next byte is `b`. -/
  | byte (b : UInt8)
  /-- The end of the input, as far as this request can tell. -/
  | ended
  /-- The read failed with `failure`. -/
  | failed (failure : ReadFailure)
deriving DecidableEq, Inhabited

/-- A source of bytes.  Its `size` bounds the bytes it can still give: a byte makes it smaller, and
no answer makes it larger. -/
class ByteSource (σ : Type) where
  /-- Asks the source for a byte, and gives the source behind it. -/
  read : σ → Signal × σ
  /-- A bound on the bytes to come, which a byte given by `read` makes smaller. -/
  size : σ → Nat
  size_read_le (s : σ) : size (read s).2 ≤ size s
  size_read_lt {s s' : σ} {b : UInt8} (h : read s = (.byte b, s')) : size s' < size s

namespace ByteSource

/-- Takes the first signal of a list, or gives `ended` where there is none. -/
def readList : List Signal → Signal × List Signal
  | [] => (.ended, [])
  | x :: xs => (x, xs)

instance : ByteSource (List Signal) where
  read := readList
  size := List.length
  size_read_le
    | [] => Nat.le_refl _
    | _ :: xs => Nat.le_succ xs.length
  size_read_lt {s _ _} h := by
    cases s with
    | nil => cases h
    | cons x xs => cases h; exact Nat.lt_succ_self _

end ByteSource

end LexStream
