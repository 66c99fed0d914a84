import LexStream.Config
import LexStream.LexError

/-!
# Conduits

The queue that carries results from a scan to its consumer, and the slot that carries the request to
stop back.  The slot holds one request; once the scan has learned of it, or of a receiver that is
gone, it stays cancelled.  Dropping the handles that can ask for a stop asks for nothing.

Main facts:

* `Conduit.Fits.apply`: the queue never outgrows its capacity;
* `Conduit.poll_latched` and `Conduit.emit_of_latched`: a cancelled scan stays cancelled.
-/

namespace LexStream

/-- The way `Conduit.emit` goes when a place in the queue and a request to stop are both there. -/
inductive Arm where
  /-- The result goes into the queue. -/
  | send
  /-- The request is heeded. -/
  | heed
deriving DecidableEq

/-- What became of a result that `Conduit.emit` was given. -/
inductive Delivery where
  /-- It is in the queue. -/
  | accepted
  /-- It is discarded, since the consumer no longer listens. -/
  | refused
  /-- Neither is possible yet. -/
  | blocked
deriving DecidableEq

/-- What a consumer that does not wait gets from `Conduit.receive`. -/
inductive Receipt where
  /-- The first result `r` of the queue. -/
  | result (r : LexResult)
  /-- Nothing, as far as one can tell now. -/
  | empty
  /-- Nothing, ever again. -/
  | disconnected
deriving DecidableEq

/-- A `queue` of results with a slot for the request to stop, which is full while `pending`. -/
structure Conduit where
  /-- The number of results that the queue holds; `none` if it holds any number. -/
  capacity : Option Nat
  /-- The results on their way, the one to be received next in front. -/
  queue : List LexResult := []
  /-- Whether the slot holds a request to stop.  A `signal` sets it, and `poll` and `heed` clear
  it. -/
  pending : Bool := false
  /-- Whether the scan has learned that the consumer no longer listens.  It is never unset. -/
  latched : Bool := false
  /-- Whether the consumer can still `receive`. -/
  receiverAlive : Bool := true
  /-- Whether the scan can still `emit`. -/
  emitterAlive : Bool := true
  /-- The number of handles through which `cancel` can ask for a stop. -/
  handles : Nat := 1
deriving DecidableEq

namespace Conduit

/-- Opens a conduit for the settings `config`, with one handle.  An `unbounded` one has no
`capacity`. -/
def ofConfig (config : Config) : Conduit :=
  { capacity := if config.unbounded then none else some config.channelCapacity }

/-- Whether the `queue` has a place for a result while nobody waits for one. -/
def hasRoom (c : Conduit) : Bool :=
  match c.capacity with
  | none => true
  | some n => c.queue.length < n

/-- Puts a request to stop into the slot; a slot that is `pending` stays as it is. -/
def signal (c : Conduit) : Conduit :=
  { c with pending := true }

/-- Asks for a stop through one of the `handles`, if there is one. -/
def cancel (c : Conduit) : Conduit :=
  if c.handles = 0 then c else c.signal

/-- Makes another handle from one of the `handles`, if there is one. -/
def cloneHandle (c : Conduit) : Conduit :=
  if c.handles = 0 then c else { c with handles := c.handles + 1 }

/-- Gives one of the `handles` up, which asks for nothing. -/
def dropHandle (c : Conduit) : Conduit :=
  { c with handles := c.handles - 1 }

/-- Gives the receiving end up, and the results in the `queue` with it. -/
def dropReceiver (c : Conduit) : Conduit :=
  { c with receiverAlive := false, queue := [] }

/-- Gives the delivering end up, so that `receive` may tell that nothing more comes. -/
def dropEmitter (c : Conduit) : Conduit :=
  { c with emitterAlive := false }

/-- Asks, on the side of the scan, whether to stop.  A request that is `pending` leaves the slot and
is `latched`. -/
def poll (c : Conduit) : Bool × Conduit :=
  if c.latched then (true, c)
  else if c.pending then (true, { c with pending := false, latched := true })
  else (false, c)

/-- Hands the result `r` to the `queue`, or learns that nobody will receive it. -/
def send (c : Conduit) (r : LexResult) : Delivery × Conduit :=
  if c.receiverAlive then (.accepted, { c with queue := c.queue ++ [r] })
  else (.refused, { c with latched := true })

/-- Heeds the request in the slot: it is `latched`, and the result is refused. -/
def heed (c : Conduit) : Delivery × Conduit :=
  (.refused, { c with pending := false, latched := true })

/-- Delivers a result.  A place in the queue, or a receiver that is gone, lets it be sent; a request
to stop refuses it; with both the arm `preferred` is taken, and with neither it has to wait. -/
def emit (c : Conduit) (r : LexResult) (preferred : Arm) : Delivery × Conduit :=
  if c.latched || !c.emitterAlive then (.refused, c)
  else
    match !c.receiverAlive || c.hasRoom, c.pending with
    | true, true => if preferred = .send then c.send r else c.heed
    | true, false => c.send r
    | false, true => c.heed
    | false, false => (.blocked, c)

/-- Takes the first result of the `queue` without waiting. -/
def receive (c : Conduit) : Receipt × Conduit :=
  match c.queue with
  | r :: rs => (.result r, { c with queue := rs })
  | [] => (if c.emitterAlive then .empty else .disconnected, c)

/-- What can be done with a conduit by the operation of the same name. -/
inductive Operation where
  /-- The scan delivers the result `r` and prefers one arm. -/
  | emit (r : LexResult) (preferred : Arm)
  /-- The scan asks whether to stop. -/
  | poll
  /-- The consumer takes a result without waiting. -/
  | receive
  /-- The consumer asks for a stop. -/
  | cancel
  /-- The consumer makes another handle. -/
  | cloneHandle
  /-- The consumer gives a handle up. -/
  | dropHandle
  /-- The consumer gives the receiving end up. -/
  | dropReceiver
  /-- The scan gives the delivering end up. -/
  | dropEmitter
deriving DecidableEq

/-- What an operation answers, its constructor given by the type of the answer. -/
inductive Answer where
  /-- It is done, and there is nothing to tell. -/
  | done
  /-- What became of a result, for `emit`. -/
  | delivery (d : Delivery)
  /-- Whether the scan is to stop, for `poll`. -/
  | cancelled (b : Bool)
  /-- What the consumer got, for `receive`. -/
  | receipt (r : Receipt)
deriving DecidableEq

/-- Does an operation on `c`, and gives its answer and the conduit behind it. -/
def apply (c : Conduit) : Operation → Answer × Conduit
  | .emit r preferred => let (d, c') := c.emit r preferred; (.delivery d, c')
  | .poll => let (b, c') := c.poll; (.cancelled b, c')
  | .receive => let (r, c') := c.receive; (.receipt r, c')
  | .cancel => (.done, c.cancel)
  | .cloneHandle => (.done, c.cloneHandle)
  | .dropHandle => (.done, c.dropHandle)
  | .dropReceiver => (.done, c.dropReceiver)
  | .dropEmitter => (.done, c.dropEmitter)

/-! ### What a conduit keeps -/

/-- A scan that is `latched` is told to stop by every `poll`, and nothing changes. -/
theorem poll_latched {c : Conduit} (h : c.latched = true) : c.poll = (true, c) := by
  simp [poll, h]

/-- A scan that is `latched` delivers nothing: `emit` refuses the result `r`, whatever is
`preferred`. -/
theorem emit_of_latched {c : Conduit} (h : c.latched = true) (r : LexResult) (preferred : Arm) :
    c.emit r preferred = (.refused, c) := by
  simp [emit, h]

/-- Whether the `queue` is no longer than the `capacity`. -/
def Fits (c : Conduit) : Prop :=
  ∀ n, c.capacity = some n → c.queue.length ≤ n

theorem fits_ofConfig (config : Config) : (ofConfig config).Fits := by
  intro n _
  exact Nat.zero_le n

/-- No operation `op` makes the `queue` outgrow its `capacity`. -/
theorem Fits.apply {c : Conduit} (h : c.Fits) (op : Operation) : (c.apply op).2.Fits := by
  cases op with
  | emit r preferred =>
    show (c.emit r preferred).2.Fits
    -- Nothing is put into a queue without a place, unless nobody receives.
    have hsend : (!c.receiverAlive || c.hasRoom) = true → (c.send r).2.Fits := by
      intro hroom n hn
      unfold send at hn ⊢
      split
      next hr =>
        simp only [hr, if_true] at hn
        simp only [hr, hasRoom, hn, Bool.not_true, Bool.false_or, decide_eq_true_eq] at hroom
        simp only [List.length_append, List.length_singleton]
        exact hroom
      next hr =>
        simp only [hr] at hn
        exact h n hn
    unfold emit
    split
    · exact h
    · split
      next hroom _ =>
        split
        · exact hsend hroom
        · exact h
      next hroom _ => exact hsend hroom
      next => exact h
      next => exact h
  | poll =>
    show c.poll.2.Fits
    unfold poll
    split
    · exact h
    · split <;> exact h
  | receive =>
    show c.receive.2.Fits
    unfold receive
    split
    next r rs hq =>
      intro n hn
      have := h n hn
      rw [hq] at this
      exact Nat.le_of_succ_le this
    next => exact h
  | cancel =>
    show c.cancel.Fits
    unfold cancel
    split <;> exact h
  | cloneHandle =>
    show c.cloneHandle.Fits
    unfold cloneHandle
    split <;> exact h
  | dropHandle => exact h
  | dropReceiver => intro n _; exact Nat.zero_le n
  | dropEmitter => exact h

end Conduit

end LexStream
