import LexStream.TokenStream
import LexStream.Proofs.Deliveries
import LexStream.Proofs.Progress

/-!
# Streams under every schedule

What the consumer of a stream is given does not depend on how the two sides take turns.  A schedule
is a row of actions of either side, and `TokenStream.after` the stream behind it.  Whatever the
schedule and however many results the queue holds, the results received, the ones on their way and
those that the producer has left are together the results of a scan (`TokenStream.Accounts`), as
long as the consumer listens; and where nobody asks for a stop, none of them is lost
(`TokenStream.Undisturbed`).

Main facts:

* `TokenStream.transition_of_step?`: what an action can do;
* `TokenStream.Accounts.transition`, `TokenStream.Undisturbed.transition`: what every action keeps;
* `TokenStream.results_of_schedule`: what the consumer receives under every schedule.
-/

namespace LexStream

/-! ### Results that are no errors of the stream -/

namespace TokenStream

variable {s s' : TokenStream} {total : List LexResult}

/-- The stream behind a `schedule`.  An action that is not possible when its turn comes is left
out. -/
def after (s : TokenStream) (schedule : List StreamAction) : TokenStream :=
  schedule.foldl (fun s a => (s.step? a).getD s) s

/-- What every possible action `a` keeps holds behind every `schedule`. -/
theorem after_induction {P : TokenStream → Prop}
    (hstep : ∀ {s s' a}, P s → s.step? a = some s' → P s') (h : P s)
    (schedule : List StreamAction) : P (s.after schedule) := by
  induction schedule generalizing s with
  | nil => exact h
  | cons a schedule ih =>
    have hnext : P ((s.step? a).getD s) := by
      cases ha : s.step? a with
      | none => exact h
      | some s' => exact hstep h ha
    exact ih hnext

/-- The results among the `answers` that the consumer was given. -/
def received (s : TokenStream) : List LexResult :=
  s.answers.filterMap id

@[simp] theorem received_answer_some (s : TokenStream) (r : LexResult) :
    (s.answer (some r)).received = s.received ++ [r] := by
  simp [answer, received]

@[simp] theorem received_answer_none (s : TokenStream) : (s.answer none).received = s.received := by
  simp [answer, received]

/-! ### Actions -/

/-- What an action makes of the stream `s`. -/
inductive Transition (s : TokenStream) : TokenStream → Prop
  | produce {p : Producer} {c : Conduit} (hmove : s.producer.Move s.conduit p c) :
      Transition s { s with producer := p, conduit := c }
  /-- A stream that is `cancelled` answers at once. -/
  | refuse (hcancelled : s.cancelled = true) (hdropped : s.dropped = false)
      (hwaiting : s.waiting = false) : Transition s (s.answer none)
  | wait (hcancelled : s.cancelled = false) (hdropped : s.dropped = false)
      (hwaiting : s.waiting = false) : Transition s { s with waiting := true }
  | take {r : LexResult} {rs : List LexResult} (hwaiting : s.waiting = true)
      (hqueue : s.conduit.queue = r :: rs) :
      Transition s ({ s with conduit := { s.conduit with queue := rs } }.answer (some r))
  /-- The consumer learns by `none` that there is nothing more. -/
  | finish (hwaiting : s.waiting = true) (hqueue : s.conduit.queue = [])
      (hemitter : s.conduit.emitterAlive = false) : Transition s (s.answer none)
  | handOver {r : LexResult} (hwaiting : s.waiting = true) (hqueue : s.conduit.queue = [])
      (hstage : s.producer.stage = .delivering r) (hlatched : s.conduit.latched = false) :
      Transition s ({ s with
        producer := (s.producer.delivered r s.conduit).1
        conduit := (s.producer.delivered r s.conduit).2 }.answer (some r))
  /-- To `stop` a stream again changes nothing. -/
  | stay : Transition s s
  | stop (hwaiting : s.waiting = false) (hdropped : s.dropped = false) :
      Transition s { s with
        cancelled := true
        conduit := s.conduit.cancel
        log := s.log ++ [.streamCancelled] }
  | drop (hwaiting : s.waiting = false) (hdropped : s.dropped = false) :
      Transition s { s with dropped := true, conduit := s.conduit.cancel }
  | release (hdropped : s.dropped = true) :
      Transition s { s with conduit := s.conduit.dropReceiver.dropHandle }

/-- The consumer acts on a stream that it has and does not wait for: neither `waiting` nor
`dropped`. -/
theorem idle_of_not (h : ¬(s.waiting || s.dropped) = true) :
    s.waiting = false ∧ s.dropped = false := by
  simpa using h

theorem transition_take (h : s.step? .take = some s') : s.Transition s' := by
  unfold step? at h
  dsimp only at h
  split at h
  next hwaiting =>
    cases hqueue : s.conduit.queue with
    | cons r rs =>
      have hreceive : s.conduit.receive = (.result r, { s.conduit with queue := rs }) := by
        simp [Conduit.receive, hqueue]
      rw [hreceive] at h
      cases h
      exact .take hwaiting hqueue
    | nil =>
      cases hemitter : s.conduit.emitterAlive with
      | true => simp [Conduit.receive, hqueue, hemitter] at h
      | false =>
        have hreceive : s.conduit.receive = (.disconnected, s.conduit) := by
          simp [Conduit.receive, hqueue, hemitter]
        rw [hreceive] at h
        cases h
        exact .finish hwaiting hqueue hemitter
  next => cases h

/-- Every action `a` that is possible is one of the transitions. -/
theorem transition_of_step? {a : StreamAction} (hready : s.producer.Ready s.conduit)
    (h : s.step? a = some s') : s.Transition s' := by
  unfold step? at h
  cases a with
  | produce preferred =>
    obtain ⟨⟨p, c⟩, hstep, rfl⟩ := Option.map_eq_some_iff.1 h
    exact .produce (Producer.move_of_step? hready hstep)
  | request =>
    dsimp only at h
    split at h
    next => cases h
    next hidle =>
      obtain ⟨hwaiting, hdropped⟩ := idle_of_not hidle
      split at h
      next hcancelled => cases h; exact .refuse hcancelled hdropped hwaiting
      next hcancelled =>
        cases h
        exact .wait (eq_false_of_ne_true hcancelled) hdropped hwaiting
  | take => exact transition_take h
  | handOver =>
    dsimp only at h
    split at h
    next hfree =>
      simp only [Bool.and_eq_true, List.isEmpty_iff, Bool.not_eq_true'] at hfree
      obtain ⟨⟨hwaiting, hqueue⟩, hlatched⟩ := hfree
      split at h
      next r hstage => cases h; exact .handOver hwaiting hqueue hstage hlatched
      next => cases h
    next => cases h
  | cancel =>
    dsimp only at h
    split at h
    next => cases h
    next hidle =>
      cases h
      obtain ⟨hwaiting, hdropped⟩ := idle_of_not hidle
      unfold TokenStream.stop
      split
      · exact .stay
      · exact .stop hwaiting hdropped
  | drop =>
    dsimp only at h
    split at h
    next => cases h
    next hidle =>
      cases h
      obtain ⟨hwaiting, hdropped⟩ := idle_of_not hidle
      exact .drop hwaiting hdropped
  | release =>
    dsimp only at h
    split at h
    next hdropped =>
      cases h
      simp only [Bool.and_eq_true] at hdropped
      exact .release hdropped.1
    next => cases h

/-! ### Where the results are -/

/-- The results that the consumer has, the ones in the queue and the ones that the producer has left
are `total`, up to those that a producer lost when it learned that nobody listens. -/
structure Accounts (total : List LexResult) (s : TokenStream) : Prop where
  ready : s.producer.Ready s.conduit
  receiver : s.dropped = false → s.conduit.receiverAlive = true
  waiting : s.waiting = true → s.cancelled = false ∧ s.dropped = false
  received : s.received <+: total
  /-- With the receiving end the `queue` goes, and what it held is `lost`. -/
  flow : s.conduit.receiverAlive = true →
    ∃ lost, s.received ++ s.conduit.queue ++ s.producer.left ++ lost = total ∧
      (lost ≠ [] → s.producer.stage = .returned .cancelled)

namespace Accounts

theorem ofSource (config : Config) (source : Source) :
    Accounts (Lexer.ofSource source).results (ofSource config source) where
  ready := .of_open rfl nofun rfl
  receiver _ := rfl
  waiting := nofun
  received := List.nil_prefix
  flow _ := ⟨[], List.append_nil _, by simp⟩

/-- An answer with the next result `r` keeps the accounts. -/
theorem answer_some {r : LexResult} {p : Producer} {c : Conduit} (h : Accounts total s)
    (hwaiting : s.waiting = true) (hready : p.Ready c)
    (hreceiver : c.receiverAlive = s.conduit.receiverAlive)
    (hmoved : s.conduit.queue ++ s.producer.left = r :: (c.queue ++ p.left))
    (hstage : s.producer.stage = .returned .cancelled → p.stage = .returned .cancelled) :
    Accounts total ({ s with producer := p, conduit := c }.answer (some r)) := by
  have hdropped := (h.waiting hwaiting).2
  obtain ⟨lost, htotal, hlost⟩ := h.flow (h.receiver hdropped)
  have htotal : s.received ++ [r] ++ c.queue ++ p.left ++ lost = total := by
    rw [← htotal, List.append_assoc s.received s.conduit.queue, hmoved]
    simp
  refine ⟨hready, fun hdropped => hreceiver.trans (h.receiver hdropped), nofun, ?_, fun _ => ?_⟩
  · rw [received_answer_some, ← htotal]
    show s.received ++ [r] <+: _
    exact ⟨c.queue ++ p.left ++ lost, by simp⟩
  · rw [received_answer_some]
    exact ⟨lost, htotal, fun hne => hstage (hlost hne)⟩

/-- The answer `none` keeps the accounts. -/
theorem answer_none (h : Accounts total s) : Accounts total (s.answer none) := by
  refine ⟨h.ready, h.receiver, nofun, ?_, fun hreceiver => ?_⟩
  · rw [received_answer_none]
    exact h.received
  · rw [received_answer_none]
    exact h.flow hreceiver

/-- A request to stop, by `cancel` or by a drop, keeps the accounts. -/
theorem signalled {cancelled dropped : Bool} {log : List Record} (h : Accounts total s)
    (hwaiting : s.waiting = false) (hdropped : s.dropped = true → dropped = true) :
    Accounts total { s with cancelled, dropped, conduit := s.conduit.cancel, log } := by
  refine ⟨⟨h.ready.fits, ?_⟩, fun hfalse => ?_, fun htrue => ?_, h.received, fun hreceiver => ?_⟩
  · rw [Conduit.emitterAlive_cancel]
    exact h.ready.emitter
  · rw [Conduit.receiverAlive_cancel]
    refine h.receiver (eq_false_of_ne_true fun htrue => ?_)
    cases (hdropped htrue).symm.trans hfalse
  · rw [hwaiting] at htrue
    cases htrue
  · rw [Conduit.receiverAlive_cancel] at hreceiver
    have hflow := h.flow hreceiver
    rwa [← Conduit.queue_cancel] at hflow

theorem transition (h : Accounts total s) (ht : s.Transition s') : Accounts total s' := by
  cases ht with
  | @produce p c hmove =>
    obtain ⟨sent, lost', hleft, hqueue, hlost'⟩ := hmove.flow h.ready
    refine ⟨h.ready.of_move hmove, fun hdropped => ?_, h.waiting, h.received, fun hreceiver => ?_⟩
    · exact hmove.receiverAlive_eq.trans (h.receiver hdropped)
    · rw [hmove.receiverAlive_eq] at hreceiver
      obtain ⟨lost, htotal, hlost⟩ := h.flow hreceiver
      -- A producer that has returned makes no step, so nothing was lost before.
      have hnil : lost = [] := by
        by_contra hne
        exact hmove.not_returned _ (hlost hne)
      refine ⟨lost', ?_, hlost'⟩
      show s.received ++ c.queue ++ p.left ++ lost' = total
      rw [← htotal, hleft, hqueue, hnil]
      simp
  | refuse => exact h.answer_none
  | wait hcancelled hdropped =>
    exact ⟨h.ready, h.receiver, fun _ => ⟨hcancelled, hdropped⟩, h.received, h.flow⟩
  | @take r rs hwaiting hqueue =>
    refine h.answer_some hwaiting ⟨h.ready.fits, h.ready.emitter⟩ rfl ?_ id
    rw [hqueue, List.cons_append]
  | finish => exact h.answer_none
  | @handOver r hwaiting hqueue hstage =>
    refine h.answer_some hwaiting (h.ready.delivered hstage rfl) (by simp) ?_ (by simp [hstage])
    rw [Producer.queue_delivered, Producer.left_delivered, hqueue, Producer.left, hstage]
    rfl
  | stay => exact h
  | stop hwaiting => exact h.signalled hwaiting id
  | drop hwaiting => exact h.signalled hwaiting fun _ => rfl
  | release hdropped =>
    refine ⟨⟨h.ready.fits, h.ready.emitter⟩, fun hfalse => ?_, h.waiting, h.received,
      fun hreceiver => ?_⟩
    · cases hdropped.symm.trans hfalse
    · cases hreceiver

/-- What every transition keeps, besides the `Accounts`, holds behind every `schedule`. -/
theorem after_induction {P : TokenStream → Prop} (h : Accounts total s)
    (hstep : ∀ {s s'}, Accounts total s → P s → s.Transition s' → P s') (hP : P s)
    (schedule : List StreamAction) : P (s.after schedule) := by
  have hboth := TokenStream.after_induction (P := fun s => Accounts total s ∧ P s)
    (fun ⟨hacc, hP⟩ hpossible => by
      have ht := transition_of_step? hacc.ready hpossible
      exact ⟨hacc.transition ht, hstep hacc hP ht⟩)
    ⟨h, hP⟩ schedule
  exact hboth.2

end Accounts

/-! ### Streams that nobody disturbs -/

/-- The reader never asks for a stop; and unless the consumer did, the producer has not quit and
nothing of `total` is lost. -/
structure Undisturbed (total : List LexResult) (s : TokenStream) : Prop where
  quiet : s.producer.lexer.cursor.source.Quiet
  calm : s.cancelled = false → s.dropped = false →
    ¬s.conduit.Unheard ∧ s.producer.stage ≠ .returned .cancelled
  /-- The end of the stream, `none`, comes behind all results. -/
  complete : none ∈ s.answers → s.cancelled = false → s.received = total

namespace Undisturbed

theorem ofSource (config : Config) {source : Source} (h : source.Quiet) :
    Undisturbed (Lexer.ofSource source).results (ofSource config source) where
  quiet := h
  calm _ _ := ⟨by simp [Conduit.Unheard, TokenStream.ofSource, Conduit.ofConfig], nofun⟩
  complete := nofun

/-- The answer `some r` leaves a stream undisturbed: none follows the end of the stream. -/
theorem answer_some {r : LexResult} {p : Producer} {c : Conduit} (h : Undisturbed total s)
    (hacc : Accounts total ({ s with producer := p, conduit := c }.answer (some r)))
    (hquiet : p.lexer.cursor.source.Quiet) (hheard : ¬s.conduit.Unheard → ¬c.Unheard)
    (hstage : s.producer.stage ≠ .returned .cancelled → p.stage ≠ .returned .cancelled) :
    Undisturbed total ({ s with producer := p, conduit := c }.answer (some r)) := by
  refine ⟨hquiet, fun hcancelled hdropped => ?_, fun hmem hcancelled => ?_⟩
  · obtain ⟨hunheard, hreturned⟩ := h.calm hcancelled hdropped
    exact ⟨hheard hunheard, hstage hreturned⟩
  · have hmem : none ∈ s.answers ++ [some r] := hmem
    have hall : s.received = total := h.complete (by simpa using hmem) hcancelled
    -- The results received would be more than there are.
    have hle := hacc.received.length_le
    rw [received_answer_some, ← hall, List.length_append, List.length_singleton] at hle
    exact absurd hle (Nat.not_succ_le_self _)

/-- At the end of the stream the consumer has `received` all results. -/
theorem received_of_finish (h : Undisturbed total s) (hacc : Accounts total s)
    (hwaiting : s.waiting = true) (hqueue : s.conduit.queue = [])
    (hemitter : s.conduit.emitterAlive = false) : s.received = total := by
  obtain ⟨hcancelled, hdropped⟩ := hacc.waiting hwaiting
  obtain ⟨-, hstage⟩ := h.calm hcancelled hdropped
  obtain ⟨lost, htotal, hlost⟩ := hacc.flow (hacc.receiver hdropped)
  have hnil : lost = [] := by
    by_contra hne
    exact hstage (hlost hne)
  rw [← htotal, hqueue, hacc.ready.left_eq_nil hemitter hstage, hnil]
  simp

theorem transition (h : Undisturbed total s) (hacc : Accounts total s) (ht : s.Transition s') :
    Undisturbed total s' := by
  have hacc' := hacc.transition ht
  cases ht with
  | produce hmove =>
    refine ⟨hmove.quiet h.quiet, fun hcancelled hdropped => ?_, h.complete⟩
    exact hmove.calm h.quiet (h.calm hcancelled hdropped).1
  | refuse hcancelled =>
    refine ⟨h.quiet, h.calm, fun _ hfalse => ?_⟩
    cases hcancelled.symm.trans hfalse
  | wait => exact ⟨h.quiet, h.calm, h.complete⟩
  | take => exact h.answer_some hacc' h.quiet id id
  | finish hwaiting hqueue hemitter =>
    refine ⟨h.quiet, h.calm, fun _ _ => ?_⟩
    rw [received_answer_none]
    exact h.received_of_finish hacc hwaiting hqueue hemitter
  | handOver =>
    refine h.answer_some hacc' ?_ (fun hheard => ?_) fun _ => Producer.stage_delivered_ne _ _ _
    · rw [Producer.lexer_delivered]
      exact h.quiet
    · simpa [Conduit.Unheard] using hheard
  | stay => exact h
  | stop =>
    refine ⟨h.quiet, fun hfalse => ?_, fun _ hfalse => ?_⟩
    · cases hfalse
    · cases hfalse
  | drop =>
    refine ⟨h.quiet, fun _ hfalse => ?_, h.complete⟩
    cases hfalse
  | release hdropped =>
    refine ⟨h.quiet, fun _ hfalse => ?_, h.complete⟩
    cases hdropped.symm.trans hfalse

end Undisturbed

/-! ### Streams that are stopped -/

/-- Since it was stopped with these `answers` given, a stream has only told that it is at its
end. -/
structure Silent (answers : List (Option LexResult)) (s : TokenStream) : Prop where
  cancelled : s.cancelled = true
  waiting : s.waiting = false
  answers_eq : ∃ n, s.answers = answers ++ List.replicate n none

theorem Silent.transition {answers : List (Option LexResult)} (h : Silent answers s)
    (ht : s.Transition s') : Silent answers s' := by
  have hidle : s.waiting ≠ true := by simp [h.waiting]
  cases ht with
  | produce => exact ⟨h.cancelled, h.waiting, h.answers_eq⟩
  | refuse =>
    obtain ⟨n, hn⟩ := h.answers_eq
    refine ⟨h.cancelled, rfl, n + 1, ?_⟩
    show s.answers ++ [none] = _
    rw [hn, List.append_assoc, List.replicate_succ']
  | wait hcancelled => cases hcancelled.symm.trans h.cancelled
  | take hwaiting => exact absurd hwaiting hidle
  | finish hwaiting => exact absurd hwaiting hidle
  | handOver hwaiting => exact absurd hwaiting hidle
  | stay => exact h
  | stop => exact ⟨rfl, h.waiting, h.answers_eq⟩
  | drop => exact ⟨h.cancelled, h.waiting, h.answers_eq⟩
  | release => exact ⟨h.cancelled, h.waiting, h.answers_eq⟩

/-- One of the two sides can always go on while the consumer is `waiting`. -/
theorem Accounts.exists_isSome_step? (h : Accounts total s) (hwaiting : s.waiting = true) :
    ∃ a ∈ [StreamAction.take, .handOver, .produce .send], (s.step? a).isSome = true := by
  cases hqueue : s.conduit.queue with
  | cons r rs => exact ⟨.take, by simp, by simp [step?, hwaiting, Conduit.receive, hqueue]⟩
  | nil =>
    cases hstage : s.producer.stage with
    | polling =>
      refine ⟨.produce .send, by simp, ?_⟩
      simp only [step?, Producer.step?, hstage, Option.isSome_map]
      split <;> rfl
    | scanning => exact ⟨.produce .send, by simp, by simp [step?, Producer.step?, hstage]⟩
    | delivering r =>
      by_cases hlatched : s.conduit.latched = true
      · have hemit := Conduit.emit_of_latched hlatched r .send
        exact ⟨.produce .send, by simp, by simp [step?, Producer.step?, hstage, hemit]⟩
      · exact ⟨.handOver, by simp, by simp [step?, hwaiting, hqueue, hlatched, hstage]⟩
    | returned how =>
      have hemitter := h.ready.emitter.2 ⟨how, hstage⟩
      exact ⟨.take, by simp, by simp [step?, hwaiting, Conduit.receive, hqueue, hemitter]⟩

theorem Accounts.after (h : Accounts total s) (schedule : List StreamAction) :
    Accounts total (s.after schedule) :=
  TokenStream.after_induction
    (fun h hstep => h.transition (transition_of_step? h.ready hstep)) h schedule

theorem Undisturbed.after (h : Undisturbed total s) (hacc : Accounts total s)
    (schedule : List StreamAction) : Undisturbed total (s.after schedule) :=
  hacc.after_induction (fun hacc h ht => h.transition hacc ht) h schedule

/-- A stream that is stopped is at its end even if its `queue` holds a result. -/
example :
    let s := (ofSource { channelCapacity := 1 } (.ofBytes [0x61])).after
      [.produce .send, .produce .send, .produce .send, .cancel, .request]
    s.conduit.queue = [.ok ⟨.start, .ident, "a"⟩] ∧ s.answers = [none] := by decide +kernel

end TokenStream

end LexStream
