import LexStream.Producer

/-!
# Token streams

A producer on a thread of its own, the conduit, and the consumer who takes the results one by one
and may stop the stream at any time.  `TokenStream.step?` is what either side may do next, in any
order; the operations of the consumer (`TokenStream.next`, `TokenStream.cancel`, `TokenStream.join`)
are runs of such steps in which the producer goes on only while the consumer waits.
-/

namespace LexStream

/-- A `producer` and a consumer with a `conduit` between them. -/
structure TokenStream where
  producer : Producer
  conduit : Conduit
  /-- The name of the thread on which the `producer` runs. -/
  threadName : String
  /-- Whether the consumer waits for a result, since a `request`. -/
  waiting : Bool := false
  /-- Whether the consumer has stopped the stream by `cancel`. -/
  cancelled : Bool := false
  /-- Whether the consumer has begun to give the stream up by `drop`. -/
  dropped : Bool := false
  /-- What the consumer was given, with `none` for the end of the stream. -/
  answers : List (Option LexResult) := []
  /-- The log that the consumer has written, apart from that of the `producer`. -/
  log : List Record := []

/-- What the two sides of a stream can do, by `TokenStream.step?`. -/
inductive StreamAction where
  /-- The producer makes a step by itself, with one arm `preferred`. -/
  | produce (preferred : Arm)
  /-- The consumer asks for a result and begins to wait. -/
  | request
  /-- The waiting consumer takes what the queue has, or learns that there is nothing more. -/
  | take
  /-- The producer hands its result to the waiting consumer past the empty queue. -/
  | handOver
  /-- The consumer stops the stream. -/
  | cancel
  /-- The consumer begins to give the stream up and asks for a stop. -/
  | drop
  /-- The receiving end of a stream that is given up goes, and its handle. -/
  | release
deriving DecidableEq

namespace TokenStream

/-- A stream of the items of the source `s`, with the settings `config`. -/
def ofSource (config : Config) (s : Source) : TokenStream where
  producer := .ofSource s
  conduit := .ofConfig config
  threadName := config.threadName

/-- Gives the `waiting` consumer the answer `a`. -/
def answer (s : TokenStream) (a : Option LexResult) : TokenStream :=
  { s with waiting := false, answers := s.answers ++ [a] }

/-- Stops the stream: the request goes into the slot, once, and is logged. -/
def stop (s : TokenStream) : TokenStream :=
  if s.cancelled then s
  else { s with
    cancelled := true
    conduit := s.conduit.cancel
    log := s.log ++ [.streamCancelled] }

/-- What the stream `s` is after an action, if the action is possible. -/
def step? (s : TokenStream) : StreamAction → Option TokenStream
  | .produce preferred =>
    (s.producer.step? preferred s.conduit).map fun (p, c) => { s with producer := p, conduit := c }
  | .request =>
    if s.waiting || s.dropped then none
    else if s.cancelled then some (s.answer none)
    else some { s with waiting := true }
  | .take =>
    if s.waiting then
      match s.conduit.receive with
      | (.result r, c) => some ({ s with conduit := c }.answer (some r))
      | (.disconnected, c) => some ({ s with conduit := c }.answer none)
      | (.empty, _) => none
    else none
  | .handOver =>
    if s.waiting && s.conduit.queue.isEmpty && !s.conduit.latched then
      match s.producer.stage with
      | .delivering r =>
        let (p, c) := s.producer.delivered r s.conduit
        some ({ s with producer := p, conduit := c }.answer (some r))
      | _ => none
    else none
  | .cancel => if s.waiting || s.dropped then none else some s.stop
  | .drop =>
    if s.waiting || s.dropped then none
    else some { s with dropped := true, conduit := s.conduit.cancel }
  | .release =>
    if s.dropped && s.conduit.receiverAlive then
      some { s with conduit := s.conduit.dropReceiver.dropHandle }
    else none

/-! ### The operations of the consumer -/

/-- Lets both sides act until the `waiting` consumer has an answer: it takes from the queue if it
can, else the producer hands its result over, else the producer makes a step. -/
def settle (s : TokenStream) : TokenStream :=
  if s.waiting then
    match (s.step? .take).or (s.step? .handOver) with
    | some s' => s'
    | none =>
      -- Nothing is there yet, so it is the producer's turn.
      match _step : s.producer.step? .send s.conduit with
      | some (p, c) => settle { s with producer := p, conduit := c }
      | none => s
  else s
termination_by s.producer.measure
decreasing_by exact Producer.measure_step?_lt _step

/-- Asks for the next result and waits for it; `none` at the end of the stream, and always once it
is `cancelled`. -/
def next (s : TokenStream) : Option LexResult × TokenStream :=
  match s.step? .request with
  | some s' =>
    let s'' := s'.settle
    (s''.answers.getLast?.join, s'')
  | none => (none, s)

/-- Takes results until the stream ends, at most `n` of them. -/
def take (s : TokenStream) : Nat → List LexResult × TokenStream
  | 0 => ([], s)
  | n + 1 =>
    match s.next with
    | (none, s') => ([], s')
    | (some r, s') =>
      let (rs, s'') := s'.take n
      (r :: rs, s'')

/-- Takes results until the stream ends.  A source has at most one item for each of its bytes and
events, and its `eof`. -/
def rest (s : TokenStream) : List LexResult × TokenStream :=
  s.take (s.conduit.queue.length + s.producer.measure + 1)

/-- Stops the stream, as `stop` does.  Doing so again changes nothing. -/
def cancel (s : TokenStream) : TokenStream :=
  s.stop

/-- Stops the stream and waits until the `producer` has returned. -/
def join (s : TokenStream) : TokenStream :=
  let stopped := s.stop
  let (p, c) := stopped.producer.run .heed stopped.conduit
  { stopped with producer := p, conduit := c }

/-- Whether the stage of the `producer` is `returned`. -/
def isReturned (s : TokenStream) : Bool :=
  match s.producer.stage with
  | .returned _ => true
  | _ => false

end TokenStream

end LexStream
