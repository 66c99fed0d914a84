import LexStream.ByteSource

/-!
# Buffered sources

A reader as the list of events it goes through, read through a buffer.  A byte is taken from the
buffer while it holds one; only when it is empty is the reader asked, for as many bytes as the
buffer holds.  Interrupted reads are tried again and never show.

Main fact: `Source.read_signals`: byte by byte a buffered source answers as the plain list of its
signals does, whatever its capacity and however its bytes are cut into chunks.
-/

namespace LexStream

/-- What happens to a reader, in the order of time. -/
inductive ReadEvent where
  /-- The `bytes` arrive.  A read takes as many as it has room for and leaves the rest for the next
  one; no bytes at all are the end of the input for one read. -/
  | chunk (bytes : List UInt8)
  /-- One read fails with `failure`. -/
  | failure (failure : ReadFailure)
  /-- The scan is asked to stop; the same read goes on with the next event. -/
  | cancel
deriving Inhabited

namespace ReadEvent

/-- The signals that an event gives to `ByteSource.read`, byte by byte.  A transient failure gives
none, since the read is tried again. -/
def signals : ReadEvent → List Signal
  | .chunk [] => [.ended]
  | .chunk (b :: bs) => (b :: bs).map .byte
  | .failure f => if f.isTransient then [] else [.failed f]
  | .cancel => []

/-- How much an event adds to `Source.size`: itself and its bytes. -/
def size : ReadEvent → Nat
  | .chunk bytes => bytes.length + 1
  | .failure _ => 1
  | .cancel => 1

/-- The sum of `size` over a row of events. -/
def sizeAll : List ReadEvent → Nat
  | [] => 0
  | e :: es => e.size + sizeAll es

end ReadEvent

/-- A reader, given by its `events`, behind a buffer of at least one byte. -/
structure Source where
  /-- The number of bytes that the buffer holds. -/
  capacity : Nat
  /-- The events still to come. -/
  events : List ReadEvent
  /-- The bytes that were read and not yet taken. -/
  buffered : List UInt8 := []
  /-- The number of bytes that the reader has handed out. -/
  pulled : Nat := 0
  /-- The number of times that the reader has asked the scan to stop. -/
  cancels : Nat := 0
deriving Inhabited

namespace Source

/-- The `capacity` of a buffer for which none is asked. -/
def defaultCapacity : Nat := 8192

/-- A source that reads the events through a buffer of `capacity` bytes, of one byte at least. -/
def ofEvents (events : List ReadEvent) (capacity : Nat) : Source where
  capacity := max 1 capacity
  events := events

/-- A source that gives the `bytes` in one chunk. -/
def ofBytes (bytes : List UInt8) : Source :=
  ofEvents [.chunk bytes] defaultCapacity

/-- Asks the reader, which goes through `events`, to fill the empty buffer, and takes the first byte
that arrives. -/
def refill (s : Source) : List ReadEvent → Signal × Source
  | [] => (.ended, { s with events := [] })
  | .chunk [] :: events => (.ended, { s with events := events })
  | .chunk (b :: bs) :: events =>
    let room := s.capacity - 1
    let rest := bs.drop room
    let kept := bs.take room
    (.byte b, { s with
      events := if rest.isEmpty then events else .chunk rest :: events
      buffered := kept
      pulled := s.pulled + 1 + kept.length })
  | .failure f :: events =>
    if f.isTransient then s.refill events else (.failed f, { s with events := events })
  | .cancel :: events => refill { s with cancels := s.cancels + 1 } events

/-- Takes a byte from `buffered`, or asks the reader by `refill` when it is empty. -/
def read (s : Source) : Signal × Source :=
  match s.buffered with
  | b :: bs => (.byte b, { s with buffered := bs })
  | [] => s.refill s.events

/-- The bytes that are `buffered`, and the `events` to come with the bytes they hold. -/
def size (s : Source) : Nat :=
  s.buffered.length + ReadEvent.sizeAll s.events

/-- The signals that a source will give, byte by byte: those of `buffered`, and of the `events`. -/
def signals (s : Source) : List Signal :=
  s.buffered.map .byte ++ s.events.flatMap ReadEvent.signals

/-! ### Asking a source makes it smaller -/

theorem size_refill_le (s : Source) (hs : s.buffered = []) (events : List ReadEvent) :
    (s.refill events).2.size ≤ ReadEvent.sizeAll events := by
  fun_induction refill s events with
  | case1 s => simp [size, hs]
  | case2 s events => simp [size, ReadEvent.sizeAll, hs]
  | case3 s b bs events room rest kept =>
    -- The chunk is cut into the bytes that fit into the buffer and the ones that wait.
    have hrest : kept.length + rest.length = bs.length := by
      rw [← List.length_append, List.take_append_drop]
    simp only [size, ReadEvent.sizeAll, ReadEvent.size, List.length_cons]
    split
    · omega
    · simp only [ReadEvent.sizeAll, ReadEvent.size]
      omega
  -- A transient failure and a request to stop only drop their event.
  | case4 s f events hf ih => exact Nat.le_trans (ih hs) (Nat.le_add_left _ _)
  | case5 s f events hf => simp [size, ReadEvent.sizeAll, hs]
  | case6 s events ih => exact Nat.le_trans (ih hs) (Nat.le_add_left _ _)

theorem size_refill_lt (s : Source) (hs : s.buffered = []) (events : List ReadEvent) {b : UInt8}
    {s' : Source} (h : s.refill events = (.byte b, s')) :
    s'.size < ReadEvent.sizeAll events := by
  fun_induction refill s events with
  | case1 s => cases h
  | case2 s events => cases h
  | case3 s b bs events room rest kept =>
    have hrest : kept.length + rest.length = bs.length := by
      rw [← List.length_append, List.take_append_drop]
    cases h
    simp only [size, ReadEvent.sizeAll, ReadEvent.size, List.length_cons]
    split
    · omega
    · simp only [ReadEvent.sizeAll, ReadEvent.size]
      omega
  | case4 s f events hf ih => exact Nat.lt_of_lt_of_le (ih hs h) (Nat.le_add_left _ _)
  | case5 s f events hf => cases h
  | case6 s events ih => exact Nat.lt_of_lt_of_le (ih hs h) (Nat.le_add_left _ _)

instance : ByteSource Source where
  read := read
  size := size
  size_read_le s := by
    unfold read
    split
    next b bs hb => simp [size, hb]
    next hb => simpa [size, hb] using s.size_refill_le hb s.events
  size_read_lt {s s' b} h := by
    unfold read at h
    split at h
    next b bs hb => cases h; simp [size, hb]
    next hb => simpa [size, hb] using s.size_refill_lt hb s.events h

/-! ### A source answers as the list of its signals -/

theorem refill_signals (s : Source) (hs : s.buffered = []) (events : List ReadEvent) :
    ByteSource.readList (events.flatMap ReadEvent.signals) =
      ((s.refill events).1, (s.refill events).2.signals) := by
  fun_induction refill s events with
  | case1 s => simp [ByteSource.readList, signals, hs]
  | case2 s events => simp [ByteSource.readList, signals, ReadEvent.signals, hs]
  | case3 s b bs events room rest kept =>
    -- The buffered bytes come first, then what is left of the chunk.
    have hbs : bs.map Signal.byte = kept.map Signal.byte ++ rest.map Signal.byte := by
      rw [← List.map_append, List.take_append_drop]
    simp only [List.flatMap_cons, ReadEvent.signals, List.map_cons, List.cons_append,
      ByteSource.readList, signals, hbs, List.append_assoc]
    cases rest with
    | nil => simp
    | cons r rs => simp [ReadEvent.signals]
  | case4 s f events hf ih => simpa [ReadEvent.signals, hf] using ih hs
  | case5 s f events hf => simp [ByteSource.readList, signals, ReadEvent.signals, hf, hs]
  | case6 s events ih => simpa [ReadEvent.signals] using ih hs

/-- Asked for a byte, a source answers as the list of its `signals` does, and goes on as its rest:
`signals` commutes with `read` and `ByteSource.readList`. -/
theorem read_signals (s : Source) :
    ByteSource.readList s.signals = (s.read.1, s.read.2.signals) := by
  unfold read
  split
  next b bs hb => simp [ByteSource.readList, signals, hb]
  next hb => simpa [signals, hb] using s.refill_signals hb s.events

end Source

end LexStream
