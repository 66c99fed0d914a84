import LexStream.Proofs.Consumers

/-!
# Exchanges

An `Exchange` is a producer at one end of a conduit with anybody at the other end: whoever holds the
receiving end and the handles may take results, ask for a stop and give things up in any order,
between any two steps of the producer.  A stream is used by one consumer, and its schedules are rows
of such turns.

Main facts:

* `Exchange.effect_of_step?`: what a turn can do;
* `Exchange.InStep.after`, `Exchange.unheard_after`: what a row of turns keeps;
* `TokenStream.exchange_after`: a schedule of a stream is a row of turns.
-/

namespace LexStream

/-! ### What a producer leaves alone -/

@[simp] theorem Conduit.handles_cancel (c : Conduit) : c.cancel.handles = c.handles := by
  unfold cancel signal
  split_ifs <;> rfl

@[simp] theorem Conduit.latched_cancel (c : Conduit) : c.cancel.latched = c.latched := by
  unfold cancel signal
  split_ifs <;> rfl

theorem Conduit.pending_cancel_of_pending {c : Conduit} (h : c.pending = true) :
    c.cancel.pending = true := by
  unfold cancel signal
  split_ifs
  · exact h
  · rfl

namespace Producer

variable {p p' : Producer} {c c' : Conduit}

/-- What holds of a conduit `c` and of `c.cancel` holds behind a scan. -/
theorem scan_induction {P : Conduit → Prop} (h : P c) (hcancel : P c.cancel) : P (p.scan c).2 := by
  unfold scan
  dsimp only
  split_ifs
  · exact hcancel
  · exact h

theorem latched_scan : (p.scan c).2.latched = c.latched :=
  scan_induction (P := fun c' => c'.latched = c.latched) rfl c.latched_cancel

theorem handles_scan : (p.scan c).2.handles = c.handles :=
  scan_induction (P := fun c' => c'.handles = c.handles) rfl c.handles_cancel

@[simp] theorem handles_delivered (p : Producer) (r : LexResult) (c : Conduit) :
    (p.delivered r c).2.handles = c.handles := by
  unfold delivered
  split_ifs <;> rfl

/-- A scan forgets no request to stop: the conduit stays `Unheard`. -/
theorem unheard_scan (h : c.Unheard) : (p.scan c).2.Unheard := by
  refine scan_induction h ?_
  rcases h with h | h | h
  · exact .inl (c.latched_cancel.trans h)
  · exact .inr (.inl (Conduit.pending_cancel_of_pending h))
  · exact .inr (.inr (c.receiverAlive_cancel.trans h))

theorem Move.handles_eq (hmove : p.Move c p' c') : c'.handles = c.handles := by
  cases hmove with
  | poll => rfl
  | scan => exact handles_scan
  | deliver => exact handles_delivered p _ _
  | quit => rfl

/-- A step of a producer forgets no request to stop: the conduit stays `Unheard`. -/
theorem Move.unheard (hmove : p.Move c p' c') (h : c.Unheard) : c'.Unheard := by
  cases hmove with
  | poll => exact h
  | scan => exact unheard_scan h
  | deliver => simpa [Conduit.Unheard] using h
  | quit => exact .inl rfl

end Producer

/-! ### Exchanges -/

/-- A `producer` at one end of a `conduit`. -/
structure Exchange where
  producer : Producer
  conduit : Conduit

/-- What happens next between a producer and whoever is at the other end of the `conduit`. -/
inductive Turn where
  /-- The producer makes a step by itself, with `preferred` as the arm that is taken where two are
  ready. -/
  | produce (preferred : Arm)
  /-- The producer hands its result to somebody who waits at the empty `queue`. -/
  | handOver
  /-- Somebody takes the first result of the `queue`. -/
  | receive
  /-- Somebody asks for a stop through one of the `handles`. -/
  | cancel
  | cloneHandle
  | dropHandle
  /-- The receiving end is given up, and `receiverAlive` no more. -/
  | dropReceiver
deriving DecidableEq

/-- Whether the producer makes this turn by itself, as `produce`. -/
def Turn.isProduce : Turn → Bool
  | .produce _ => true
  | _ => false

/-- The number of steps that the producer makes in a turn, `1` for its own and for a `handOver`. -/
def Turn.steps : Turn → Nat
  | .produce _ => 1
  | .handOver => 1
  | _ => 0

namespace Exchange

/-- A producer in front of a source, with a queue that holds `capacity` results, or any number. -/
def ofSource (capacity : Option Nat) (s : Source) : Exchange :=
  ⟨.ofSource s, { capacity }⟩

/-- The result that the producer of `x` can hand over now. -/
def offered? (x : Exchange) : Option LexResult :=
  match x.producer.stage with
  | .delivering r =>
    if x.conduit.receiverAlive && x.conduit.queue.isEmpty && !x.conduit.latched then some r
    else none
  | _ => none

/-- What a turn makes of an exchange `x`, and `none` if the turn is not possible. -/
def step? (x : Exchange) : Turn → Option Exchange
  | .produce preferred => (x.producer.step? preferred x.conduit).map fun (p, c) => ⟨p, c⟩
  | .handOver =>
    x.offered?.map fun r =>
      let (p, c) := x.producer.delivered r x.conduit
      ⟨p, c⟩
  | .receive =>
    match x.conduit.receive with
    | (.result _, c) => some { x with conduit := c }
    | _ => none
  | .cancel => if x.conduit.handles = 0 then none else some { x with conduit := x.conduit.cancel }
  | .cloneHandle =>
    if x.conduit.handles = 0 then none else some { x with conduit := x.conduit.cloneHandle }
  | .dropHandle =>
    if x.conduit.handles = 0 then none else some { x with conduit := x.conduit.dropHandle }
  | .dropReceiver =>
    if x.conduit.receiverAlive then some { x with conduit := x.conduit.dropReceiver } else none

/-- The exchange behind a turn `t`.  One that is not possible is left out. -/
def next (x : Exchange) (t : Turn) : Exchange :=
  (x.step? t).getD x

/-- The exchange behind a row of `turns`. -/
def after (x : Exchange) (turns : List Turn) : Exchange :=
  turns.foldl next x

/-- Whether the producer begins to scan an item in the turn `t`. -/
def begins (x : Exchange) (t : Turn) : Bool :=
  t.isProduce && x.producer.stage == .scanning

/-- The result that goes into the `queue`, or to somebody who waits at it, in this turn. -/
def delivers? (x : Exchange) : Turn → Option LexResult
  | .produce preferred =>
    match x.producer.stage with
    | .delivering r => if (x.conduit.emit r preferred).1 = .accepted then some r else none
    | _ => none
  | .handOver => x.offered?
  | _ => none

/-- The number of scans that a row of turns `begins`. -/
def begun (x : Exchange) : List Turn → Nat
  | [] => 0
  | t :: turns => (x.begins t).toNat + (x.next t).begun turns

/-- The results that a row of turns delivers, by `delivers?`. -/
def delivered (x : Exchange) : List Turn → List LexResult
  | [] => []
  | t :: turns => (x.delivers? t).toList ++ (x.next t).delivered turns

/-- The turn asks for a stop: through a handle by `cancel`, by `dropReceiver`, or by a scan whose
reader uses a handle. -/
inductive Asks (x : Exchange) : Turn → Prop
  | cancel (hhandles : x.conduit.handles ≠ 0) : Asks x .cancel
  | dropReceiver : Asks x .dropReceiver
  | reader {preferred : Arm} (hstage : x.producer.stage = .scanning)
      (hreader : x.producer.lexer.cursor.source.cancels <
        x.producer.lexer.step.2.cursor.source.cancels)
      (hhandles : x.conduit.handles ≠ 0) : Asks x (.produce preferred)

/-- No turn of the row `Asks` for a stop. -/
def Unasked (x : Exchange) : List Turn → Prop
  | [] => True
  | t :: turns => ¬x.Asks t ∧ (x.next t).Unasked turns

/-- Whether the producer has `returned`. -/
def Returned (x : Exchange) : Prop :=
  ∃ how, x.producer.stage = .returned how

/-! ### Turns -/

/-- What a turn makes of an exchange `x`. -/
inductive Effect (x : Exchange) : Turn → Exchange → Prop
  | poll {preferred : Arm} (hstage : x.producer.stage = .polling)
      (hlatched : x.conduit.latched = false) (hpending : x.conduit.pending = false) :
      Effect x (.produce preferred) { x with producer := { x.producer with stage := .scanning } }
  | scan {preferred : Arm} (hstage : x.producer.stage = .scanning) :
      Effect x (.produce preferred)
        ⟨(x.producer.scan x.conduit).1, (x.producer.scan x.conduit).2⟩
  /-- The result `r` goes into the `queue`, or past the empty queue to somebody who waits. -/
  | deliver {t : Turn} {r : LexResult} {queue : List LexResult}
      (hstage : x.producer.stage = .delivering r) (ht : t.steps = 1)
      (hdelivers : x.delivers? t = some r) (hreceiver : x.conduit.receiverAlive = true) :
      Effect x t
        ⟨(x.producer.delivered r { x.conduit with queue }).1,
          (x.producer.delivered r { x.conduit with queue }).2⟩
  | quit {preferred : Arm} {pending : Bool} (hreturned : ¬x.Returned)
      (hstage : x.producer.stage ≠ .scanning) (hwhy : x.conduit.Unheard)
      (hdelivers : x.delivers? (.produce preferred) = none) :
      Effect x (.produce preferred)
        ⟨(x.producer.quit { x.conduit with pending, latched := true }).1,
          (x.producer.quit { x.conduit with pending, latched := true }).2⟩
  /-- A result is taken, or one of the `handles` is made or given up. -/
  | hold {t : Turn} {queue : List LexResult} {handles : Nat}
      (ht : t ∈ [.receive, .cloneHandle, .dropHandle]) :
      Effect x t { x with conduit := { x.conduit with queue, handles } }
  | cancel (hhandles : x.conduit.handles ≠ 0) :
      Effect x .cancel { x with conduit := x.conduit.signal }
  | dropReceiver : Effect x .dropReceiver { x with conduit := x.conduit.dropReceiver }

variable {x x' : Exchange} {t : Turn}

theorem offered?_eq_some {r : LexResult} (h : x.offered? = some r) :
    x.producer.stage = .delivering r ∧ x.conduit.receiverAlive = true ∧ x.conduit.queue = [] := by
  unfold offered? at h
  split at h
  next r' hstage =>
    split_ifs at h with hfree
    simp only [Bool.and_eq_true, List.isEmpty_iff] at hfree
    obtain rfl := Option.some.inj h
    exact ⟨hstage, hfree.1⟩
  next => cases h

theorem effect_produce {preferred : Arm} {p : Producer} {c : Conduit}
    (hready : x.producer.Ready x.conduit)
    (h : x.producer.step? preferred x.conduit = some (p, c)) :
    x.Effect (.produce preferred) ⟨p, c⟩ := by
  have hmove := Producer.move_of_step? hready h
  cases hstage : x.producer.stage with
  | polling =>
    have hdelivers : x.delivers? (.produce preferred) = none := by simp [delivers?, hstage]
    cases hmove with
    | poll _ hlatched hpending => exact .poll hstage hlatched hpending
    | scan hscan => cases hstage.symm.trans hscan
    | deliver hdeliver => cases hstage.symm.trans hdeliver
    | quit hreturned hwhy =>
      exact .quit (fun ⟨how, hhow⟩ => hreturned how hhow) (by simp [hstage]) hwhy hdelivers
  | scanning =>
    unfold Producer.step? at h
    rw [hstage] at h
    obtain ⟨rfl, rfl⟩ := Prod.ext_iff.1 (Option.some.inj h)
    exact .scan hstage
  | delivering r =>
    have hemission := x.conduit.emission_emit r preferred (hready.emitter_of (by simp [hstage]))
    unfold Producer.step? at h
    rw [hstage] at h
    dsimp only at h
    split at h
    next c₁ hemit =>
      have hdelivers : x.delivers? (.produce preferred) = some r := by
        simp [delivers?, hstage, hemit]
      rw [hemit] at hemission
      cases hemission with
      | accepted hreceiver hroom =>
        obtain ⟨rfl, rfl⟩ := Prod.ext_iff.1 (Option.some.inj h)
        exact .deliver hstage rfl hdelivers hreceiver
    next c₁ hemit =>
      have hdelivers : x.delivers? (.produce preferred) = none := by
        simp [delivers?, hstage, hemit]
      rw [hemit] at hemission
      cases hemission with
      | refused hwhy =>
        obtain ⟨rfl, rfl⟩ := Prod.ext_iff.1 (Option.some.inj h)
        exact .quit (by simp [Returned, hstage]) (by simp [hstage]) hwhy hdelivers
    next => cases h
  | returned how => exact absurd hstage (hmove.not_returned how)

/-- Every turn `t` that is possible has one of the effects. -/
theorem effect_of_step? (hready : x.producer.Ready x.conduit) (h : x.step? t = some x') :
    x.Effect t x' := by
  unfold step? at h
  cases t with
  | produce preferred =>
    obtain ⟨⟨p, c⟩, hstep, rfl⟩ := Option.map_eq_some_iff.1 h
    exact effect_produce hready hstep
  | handOver =>
    obtain ⟨r, hr, rfl⟩ := Option.map_eq_some_iff.1 h
    obtain ⟨hstage, hreceiver, -⟩ := offered?_eq_some hr
    exact .deliver hstage rfl hr hreceiver
  | receive =>
    dsimp only at h
    cases hqueue : x.conduit.queue with
    | nil =>
      -- Nothing is taken, whether the producer has returned or not.
      unfold Conduit.receive at h
      rw [hqueue] at h
      cases hemitter : x.conduit.emitterAlive with
      | true => simp [hemitter] at h
      | false => simp [hemitter] at h
    | cons r rs =>
      have hreceive : x.conduit.receive = (.result r, { x.conduit with queue := rs }) := by
        simp [Conduit.receive, hqueue]
      rw [hreceive] at h
      cases h
      exact .hold (by simp)
  | cancel =>
    dsimp only at h
    split_ifs at h with hhandles
    obtain rfl := Option.some.inj h
    rw [Conduit.cancel, if_neg hhandles]
    exact .cancel hhandles
  | cloneHandle =>
    dsimp only at h
    split_ifs at h with hhandles
    obtain rfl := Option.some.inj h
    rw [Conduit.cloneHandle, if_neg hhandles]
    exact .hold (by simp)
  | dropHandle =>
    dsimp only at h
    split_ifs at h with hhandles
    obtain rfl := Option.some.inj h
    exact .hold (by simp)
  | dropReceiver =>
    dsimp only at h
    split_ifs at h
    obtain rfl := Option.some.inj h
    exact .dropReceiver

/-! ### What a turn keeps -/

/-- The producer is at its end of the conduit, as `Ready` says, and has returned once it learned of
a stop, which is `latched` there. -/
structure InStep (x : Exchange) : Prop where
  ready : x.producer.Ready x.conduit
  latched : x.conduit.latched = true → x.Returned

theorem inStep_ofSource (capacity : Option Nat) (s : Source) : (ofSource capacity s).InStep where
  ready := .of_open rfl nofun rfl
  latched := nofun

/-- Where the conduit of a producer that has not returned is `Unheard`, a request is `pending` or
the receiving end is gone. -/
theorem InStep.pending_or (h : x.InStep) (hunheard : x.conduit.Unheard) (hopen : ¬x.Returned) :
    x.conduit.pending = true ∨ x.conduit.receiverAlive = false :=
  hunheard.resolve_left fun hlatched => hopen (h.latched hlatched)

namespace Effect

theorem inStep (he : x.Effect t x') (h : x.InStep) : x'.InStep := by
  cases he with
  | poll hstage hlatched hpending =>
    refine ⟨h.ready.of_move (.poll hstage hlatched hpending), fun htrue => ?_⟩
    cases hlatched.symm.trans htrue
  | scan hstage =>
    refine ⟨h.ready.of_move (.scan hstage), fun htrue => ?_⟩
    obtain ⟨how, hhow⟩ := h.latched (Producer.latched_scan.symm.trans htrue)
    cases hstage.symm.trans hhow
  | deliver hstage =>
    refine ⟨h.ready.delivered hstage rfl, fun htrue => ?_⟩
    have hlatched : x.conduit.latched = true := by simpa using htrue
    obtain ⟨how, hhow⟩ := h.latched hlatched
    cases hstage.symm.trans hhow
  | quit hreturned hstage hwhy =>
    exact ⟨h.ready.of_move (.quit (fun how hhow => hreturned ⟨how, hhow⟩) hwhy), fun _ => ⟨_, rfl⟩⟩
  | hold => exact ⟨⟨h.ready.fits, h.ready.emitter⟩, h.latched⟩
  | cancel => exact ⟨⟨h.ready.fits, h.ready.emitter⟩, h.latched⟩
  | dropReceiver => exact ⟨⟨h.ready.fits, h.ready.emitter⟩, h.latched⟩

/-- A request to stop is not forgotten: an `Effect` leaves an `Unheard` conduit `Unheard`. -/
theorem unheard (he : x.Effect t x') (hunheard : x.conduit.Unheard) : x'.conduit.Unheard := by
  cases he with
  | poll => exact hunheard
  | scan => exact Producer.unheard_scan hunheard
  | deliver => simpa [Conduit.Unheard] using hunheard
  | quit => exact .inl rfl
  | hold => exact hunheard
  | cancel => exact .inr (.inl rfl)
  | dropReceiver => exact .inr (.inr rfl)

end Effect

theorem InStep.next (h : x.InStep) (t : Turn) : (x.next t).InStep := by
  unfold Exchange.next
  cases hstep : x.step? t with
  | none => exact h
  | some x' => exact (effect_of_step? h.ready hstep).inStep h

theorem InStep.after (h : x.InStep) (turns : List Turn) : (x.after turns).InStep := by
  induction turns generalizing x with
  | nil => exact h
  | cons t turns ih => exact ih (h.next t)

theorem unheard_next (h : x.InStep) (hunheard : x.conduit.Unheard) (t : Turn) :
    (x.next t).conduit.Unheard := by
  unfold Exchange.next
  cases hstep : x.step? t with
  | none => exact hunheard
  | some x' => exact (effect_of_step? h.ready hstep).unheard hunheard

theorem unheard_after (h : x.InStep) (hunheard : x.conduit.Unheard) (turns : List Turn) :
    (x.after turns).conduit.Unheard := by
  induction turns generalizing x with
  | nil => exact hunheard
  | cons t turns ih => exact ih (h.next t) (unheard_next h hunheard t)

end Exchange

/-! ### Streams -/

namespace TokenStream

variable {s s' : TokenStream} {total : List LexResult}

/-- The two ends of a stream `s`. -/
def exchange (s : TokenStream) : Exchange :=
  ⟨s.producer, s.conduit⟩

/-- The turns that an action on `s` is. -/
def turnsOf (s : TokenStream) : StreamAction → List Turn
  | .produce preferred => [.produce preferred]
  | .request => []
  | .take => [.receive]
  | .handOver => [.handOver]
  | .cancel => if s.cancelled then [] else [.cancel]
  | .drop => [.cancel]
  | .release => [.dropReceiver, .dropHandle]

/-- The turns that a `schedule` is. -/
def turns (s : TokenStream) : List StreamAction → List Turn
  | [] => []
  | a :: schedule =>
    match s.step? a with
    | some s' => s.turnsOf a ++ s'.turns schedule
    | none => s.turns schedule

theorem next_cancel (x : Exchange) : x.next .cancel = { x with conduit := x.conduit.cancel } := by
  unfold Exchange.next Exchange.step? Conduit.cancel
  dsimp only
  split_ifs <;> rfl

theorem next_dropHandle (x : Exchange) :
    x.next .dropHandle = { x with conduit := x.conduit.dropHandle } := by
  unfold Exchange.next Exchange.step? Conduit.dropHandle
  dsimp only
  split_ifs with h
  · have hhandles : x.conduit.handles - 1 = x.conduit.handles := by omega
    rw [hhandles]
    rfl
  · rfl

theorem next_receive_cons {x : Exchange} {r : LexResult} {rs : List LexResult}
    (h : x.conduit.queue = r :: rs) :
    x.next .receive = { x with conduit := { x.conduit with queue := rs } } := by
  unfold Exchange.next Exchange.step? Conduit.receive
  dsimp only
  rw [h]
  rfl

theorem next_receive_nil {x : Exchange} (h : x.conduit.queue = []) : x.next .receive = x := by
  unfold Exchange.next Exchange.step? Conduit.receive
  dsimp only
  rw [h]
  cases x.conduit.emitterAlive <;> rfl

/-- An action `a` is the row of turns `s.turnsOf a`. -/
theorem exchange_of_step? {a : StreamAction} (hacc : Accounts total s) (h : s.step? a = some s') :
    s'.exchange = s.exchange.after (s.turnsOf a) := by
  cases a with
  | produce preferred =>
    obtain ⟨⟨p, c⟩, hstep, rfl⟩ := Option.map_eq_some_iff.1 h
    have hnext : s.exchange.step? (.produce preferred) = some ⟨p, c⟩ :=
      Option.map_eq_some_iff.2 ⟨(p, c), hstep, rfl⟩
    show _ = s.exchange.next (.produce preferred)
    rw [Exchange.next, hnext]
    rfl
  | request =>
    unfold step? at h
    dsimp only at h
    split_ifs at h
    · obtain rfl := Option.some.inj h
      rfl
    · obtain rfl := Option.some.inj h
      rfl
  | take =>
    show _ = s.exchange.next .receive
    unfold step? at h
    dsimp only at h
    split_ifs at h
    unfold Conduit.receive at h
    cases hqueue : s.conduit.queue with
    | nil =>
      rw [next_receive_nil hqueue]
      cases hemitter : s.conduit.emitterAlive with
      | true =>
        rw [hqueue, hemitter] at h
        cases h
      | false =>
        rw [hqueue, hemitter] at h
        obtain rfl := Option.some.inj h
        rfl
    | cons r rs =>
      rw [next_receive_cons hqueue]
      rw [hqueue] at h
      obtain rfl := Option.some.inj h
      rfl
  | handOver =>
    show _ = s.exchange.next .handOver
    unfold step? at h
    dsimp only at h
    split_ifs at h with hfree
    simp only [Bool.and_eq_true] at hfree
    obtain ⟨⟨hwaiting, hqueue⟩, hlatched⟩ := hfree
    have hreceiver := hacc.receiver (hacc.waiting hwaiting).2
    split at h
    next r hstage =>
      obtain rfl := Option.some.inj h
      have hoffered : s.exchange.offered? = some r := by
        simp [Exchange.offered?, exchange, hstage, hreceiver, hqueue, hlatched]
      unfold Exchange.next Exchange.step?
      rw [hoffered]
      rfl
    next => cases h
  | cancel =>
    unfold step? at h
    dsimp only at h
    split_ifs at h
    obtain rfl := Option.some.inj h
    unfold TokenStream.stop turnsOf
    dsimp only
    split_ifs
    · rfl
    · exact (next_cancel s.exchange).symm
  | drop =>
    unfold step? at h
    dsimp only at h
    split_ifs at h
    obtain rfl := Option.some.inj h
    exact (next_cancel s.exchange).symm
  | release =>
    unfold step? at h
    dsimp only at h
    split_ifs at h with hreleased
    obtain rfl := Option.some.inj h
    simp only [Bool.and_eq_true] at hreleased
    have hnext : s.exchange.next .dropReceiver =
        { s.exchange with conduit := s.conduit.dropReceiver } := by
      have hreceiver : s.exchange.conduit.receiverAlive = true := hreleased.2
      unfold Exchange.next Exchange.step?
      dsimp only
      rw [if_pos hreceiver]
      rfl
    show _ = (s.exchange.next .dropReceiver).next .dropHandle
    rw [hnext, next_dropHandle]
    rfl

/-- A `schedule` is the row `s.turns schedule`. -/
theorem exchange_after (hacc : Accounts total s) (schedule : List StreamAction) :
    (s.after schedule).exchange = s.exchange.after (s.turns schedule) := by
  induction schedule generalizing s with
  | nil => rfl
  | cons a schedule ih =>
    unfold turns
    cases hstep : s.step? a with
    | none =>
      -- What is not possible is left out of the schedule, and makes no turns.
      have hafter : s.after (a :: schedule) = s.after schedule := by simp [after, hstep]
      rw [hafter]
      exact ih hacc
    | some s' =>
      have hacc' := hacc.transition (transition_of_step? hacc.ready hstep)
      rw [after_cons hstep, ih hacc', exchange_of_step? hacc hstep]
      exact List.foldl_append.symm

/-- A new stream and what becomes of it under a `schedule` are exchanges of a producer in front of
the `source`. -/
theorem inStep_exchange (config : Config) (source : Source) (schedule : List StreamAction) :
    ((ofSource config source).after schedule).exchange.InStep := by
  rw [exchange_after (.ofSource config source)]
  have hstart : (ofSource config source).exchange.InStep :=
    Exchange.inStep_ofSource (if config.unbounded then none else some config.channelCapacity) source
  exact hstart.after _

end TokenStream

end LexStream
