import LexStream.Proofs.Deliveries

/-!
# Histories of a conduit

What is done at a conduit, by the scan at one end and whoever is at the other, and what each of
these operations answers.  An operation is possible while the end or the handle that does it is
there.  A delivery that has to wait is one that is asked for again; while it waits, somebody who
receives at the empty queue can be given the result past the queue, which a queue without a place
needs.

`Conduit.History c entries c'` says that operations lead from the conduit `c` to the conduit `c'`,
with the answers in `entries`.  What an operation can do is said once, in `Conduit.Deed`.

Main facts:

* `Conduit.deed_apply`: every operation is one of the deeds;
* `Conduit.History.split`: behind a first part of a history stands a conduit of its own;
* `Conduit.History.flow`: what was received, and what is queued, is what was accepted;
* `Conduit.delivers_in_order`: the results of a conduit come out once and in order.
-/

namespace LexStream.Conduit

/-- An `Operation` with its `Answer`. -/
abbrev Entry := Operation × Answer

/-- What can happen at a conduit, at either of its ends or between them. -/
inductive Event where
  /-- The operation `op` is done. -/
  | act (op : Operation)
  /-- A delivery of `r` that waits at the empty queue meets a receive, and the result goes past the
  queue. -/
  | meet (r : LexResult)
deriving DecidableEq

/-- Whether the end, or a handle, that does the operation is still there at the conduit `c`. -/
def admits (c : Conduit) : Operation → Bool
  | .emit .. => c.emitterAlive
  | .poll => c.emitterAlive
  | .dropEmitter => c.emitterAlive
  | .receive => c.receiverAlive
  | .dropReceiver => c.receiverAlive
  | .cancel => c.handles != 0
  | .cloneHandle => c.handles != 0
  | .dropHandle => c.handles != 0

/-- Whether a result can go past the queue of `c`. -/
def admitsMeeting (c : Conduit) : Bool :=
  c.emitterAlive && c.receiverAlive && c.queue.isEmpty && !c.latched

/-- What is done when an event happens at `c`, and the conduit behind it.  Of an event that is not
possible nothing is done. -/
def happen (c : Conduit) : Event → List Entry × Conduit
  | .act op => if c.admits op then ([(op, (c.apply op).1)], (c.apply op).2) else ([], c)
  | .meet r =>
    if c.admitsMeeting then
      ([(.emit r .send, .delivery .accepted), (.receive, .receipt (.result r))], c)
    else ([], c)

/-- The conduit behind a row of `events`. -/
def after (c : Conduit) (events : List Event) : Conduit :=
  events.foldl (fun c event => (c.happen event).2) c

/-- What is done at `c` in a row of events. -/
def history (c : Conduit) : List Event → List Entry
  | [] => []
  | event :: events => (c.happen event).1 ++ (c.happen event).2.history events

/-- The result that an operation takes from the queue, if it is a `receive` that gives one. -/
def Entry.received? : Entry → Option LexResult
  | (_, .receipt (.result r)) => some r
  | _ => none

/-- The result that an operation delivers, if it is an `emit` that succeeds. -/
def Entry.accepted? : Entry → Option LexResult
  | (.emit r _, .delivery .accepted) => some r
  | _ => none

/-- The results that were received in the `entries`, in order. -/
def received (entries : List Entry) : List LexResult :=
  entries.filterMap Entry.received?

/-- The results whose delivery succeeded in the `entries`, in order. -/
def accepted (entries : List Entry) : List LexResult :=
  entries.filterMap Entry.accepted?

variable {c c₁ c₂ c' : Conduit} {e : Entry} {entries : List Entry}

@[simp] theorem received_append (entries more : List Entry) :
    received (entries ++ more) = received entries ++ received more :=
  List.filterMap_append

@[simp] theorem accepted_append (entries more : List Entry) :
    accepted (entries ++ more) = accepted entries ++ accepted more :=
  List.filterMap_append

theorem Entry.eq_of_accepted? {r : LexResult} (h : e.accepted? = some r) :
    ∃ preferred, e = (.emit r preferred, .delivery .accepted) := by
  unfold accepted? at h
  split at h
  next r' preferred =>
    obtain rfl := Option.some.inj h
    exact ⟨preferred, rfl⟩
  next => cases h

/-! ### Deeds -/

/-- What an operation that is possible answers, and what it makes of the conduit `c`. -/
inductive Deed (c : Conduit) : Entry → Conduit → Prop
  | accept {r : LexResult} {preferred : Arm} (hemitter : c.emitterAlive = true)
      (hreceiver : c.receiverAlive = true) (hlatched : c.latched = false) :
      Deed c (.emit r preferred, .delivery .accepted) { c with queue := c.queue ++ [r] }
  | refuse {r : LexResult} {preferred : Arm} {pending : Bool} (hwhy : c.Unheard) :
      Deed c (.emit r preferred, .delivery .refused) { c with pending, latched := true }
  | wait {r : LexResult} {preferred : Arm} (hheard : ¬c.Unheard) (hroom : c.hasRoom = false) :
      Deed c (.emit r preferred, .delivery .blocked) c
  /-- The scan asks by `poll`, and learns of a request to stop or has learned of one before. -/
  | heed {pending : Bool} (hwhy : c.latched = true ∨ c.pending = true) :
      Deed c (.poll, .cancelled true) { c with pending, latched := true }
  | goOn (hlatched : c.latched = false) (hpending : c.pending = false) :
      Deed c (.poll, .cancelled false) c
  | take {r : LexResult} {rs : List LexResult} (hreceiver : c.receiverAlive = true)
      (hqueue : c.queue = r :: rs) :
      Deed c (.receive, .receipt (.result r)) { c with queue := rs }
  | miss (hqueue : c.queue = []) (hemitter : c.emitterAlive = true) :
      Deed c (.receive, .receipt .empty) c
  | finish (hreceiver : c.receiverAlive = true) (hqueue : c.queue = [])
      (hemitter : c.emitterAlive = false) : Deed c (.receive, .receipt .disconnected) c
  | cancel : Deed c (.cancel, .done) c.signal
  | cloneHandle {handles : Nat} : Deed c (.cloneHandle, .done) { c with handles }
  | dropHandle {handles : Nat} : Deed c (.dropHandle, .done) { c with handles }
  | dropReceiver : Deed c (.dropReceiver, .done) c.dropReceiver
  | dropEmitter : Deed c (.dropEmitter, .done) c.dropEmitter

theorem deed_emit (r : LexResult) (preferred : Arm) (hemitter : c.emitterAlive = true) :
    c.Deed (.emit r preferred, .delivery (c.emit r preferred).1) (c.emit r preferred).2 := by
  by_cases hlatched : c.latched = true
  · have hrefuse : c.Deed (.emit r preferred, .delivery .refused)
        { c with pending := c.pending, latched := true } := .refuse (.inl hlatched)
    rw [emit_of_latched hlatched]
    rwa [eq_of_latched hlatched] at hrefuse
  · have hemission := c.emission_emit r preferred hemitter
    generalize c.emit r preferred = outcome at hemission ⊢
    obtain ⟨delivery, c'⟩ := outcome
    cases hemission with
    | accepted hreceiver => exact .accept hemitter hreceiver (eq_false_of_ne_true hlatched)
    | refused hwhy => exact .refuse hwhy
    | blocked hheard hroom => exact .wait hheard hroom

theorem deed_poll (c : Conduit) : c.Deed (.poll, .cancelled c.poll.1) c.poll.2 := by
  unfold poll
  split_ifs with hlatched hpending
  · have hheed : c.Deed (.poll, .cancelled true)
        { c with pending := c.pending, latched := true } := .heed (.inl hlatched)
    rwa [eq_of_latched hlatched] at hheed
  · exact .heed (.inr hpending)
  · exact .goOn (eq_false_of_ne_true hlatched) (eq_false_of_ne_true hpending)

theorem deed_receive (hreceiver : c.receiverAlive = true) :
    c.Deed (.receive, .receipt c.receive.1) c.receive.2 := by
  unfold receive
  split
  next r rs hqueue => exact .take hreceiver hqueue
  next hqueue =>
    split_ifs with hemitter
    · exact .miss hqueue hemitter
    · exact .finish hreceiver hqueue (eq_false_of_ne_true hemitter)

/-- Every operation `op` that is possible is one of the deeds. -/
theorem deed_apply {op : Operation} (h : c.admits op = true) :
    c.Deed (op, (c.apply op).1) (c.apply op).2 := by
  cases op with
  | emit r preferred => exact deed_emit r preferred h
  | poll => exact deed_poll c
  | receive => exact deed_receive h
  | cancel =>
    have hhandles : c.handles ≠ 0 := by simpa [admits] using h
    show c.Deed (.cancel, .done) c.cancel
    rw [Conduit.cancel, if_neg hhandles]
    exact .cancel
  | cloneHandle =>
    have hhandles : c.handles ≠ 0 := by simpa [admits] using h
    show c.Deed (.cloneHandle, .done) c.cloneHandle
    rw [Conduit.cloneHandle, if_neg hhandles]
    exact .cloneHandle
  | dropHandle => exact .dropHandle
  | dropReceiver => exact .dropReceiver
  | dropEmitter => exact .dropEmitter

/-! ### Histories -/

/-- The operations in `entries` lead from the conduit `c` to another one, and answer so. -/
inductive History (c : Conduit) : List Entry → Conduit → Prop
  | start : History c [] c
  | act {entries : List Entry} {e : Entry} {c₁ c₂ : Conduit} (h : History c entries c₁)
      (hd : Deed c₁ e c₂) : History c (entries ++ [e]) c₂

namespace History

theorem single (h : c.Deed e c') : c.History [e] c' :=
  .act .start h

theorem trans {more : List Entry} (h : c.History entries c₁) (h' : c₁.History more c₂) :
    c.History (entries ++ more) c₂ := by
  induction h' with
  | start =>
    rw [List.append_nil]
    exact h
  | act _ hd ih =>
    rw [← List.append_assoc]
    exact ih.act hd

/-- An operation `e` of a history is done at a conduit `c₁` that the operations `before` it lead
to. -/
theorem split {before later : List Entry} (h : c.History entries c')
    (hentries : entries = before ++ e :: later) :
    ∃ c₁ c₂, c.History before c₁ ∧ c₁.Deed e c₂ ∧ c₂.History later c' := by
  induction h generalizing later with
  | start => simp at hentries
  | @act entries e' c₁ c₂ h hd ih =>
    -- The operation is the last one, or it stands in the history before that.
    rcases List.eq_nil_or_concat later with rfl | ⟨init, last, rfl⟩
    · obtain ⟨rfl, hlast⟩ := List.append_inj' hentries rfl
      obtain rfl := List.head_eq_of_cons_eq hlast
      exact ⟨c₁, c₂, h, hd, .start⟩
    · rw [List.concat_eq_append, ← List.cons_append, ← List.append_assoc] at hentries
      obtain ⟨hinit, hlast⟩ := List.append_inj' hentries rfl
      obtain rfl := List.head_eq_of_cons_eq hlast
      obtain ⟨c₃, c₄, hbefore, he, hlater⟩ := ih hinit
      refine ⟨c₃, c₄, hbefore, he, ?_⟩
      rw [List.concat_eq_append]
      exact hlater.act hd

end History

theorem history_happen (c : Conduit) (event : Event) :
    c.History (c.happen event).1 (c.happen event).2 := by
  cases event with
  | act op =>
    unfold happen
    dsimp only
    split_ifs with hadmits
    · exact .single (deed_apply hadmits)
    · exact .start
  | meet r =>
    unfold happen
    dsimp only
    split_ifs with hadmits
    · simp only [admitsMeeting, Bool.and_eq_true, List.isEmpty_iff, Bool.not_eq_true'] at hadmits
      obtain ⟨⟨⟨hemitter, hreceiver⟩, hqueue⟩, hlatched⟩ := hadmits
      -- It is as if the queue had a place for the result until it is received.
      have htake : Deed { c with queue := c.queue ++ [r] } (.receive, .receipt (.result r))
          { c with queue := [] } := .take hreceiver (by simp [hqueue])
      have hsame : { c with queue := [] } = c := by rw [← hqueue]
      rw [hsame] at htake
      exact (History.single (.accept hemitter hreceiver hlatched)).act htake
    · exact .start

/-- What happens at a conduit in the `events` is a history of it. -/
theorem history_after (c : Conduit) (events : List Event) :
    c.History (c.history events) (c.after events) := by
  induction events generalizing c with
  | nil => exact .start
  | cons event events ih => exact (c.history_happen event).trans (ih _)

/-! ### What a history keeps -/

namespace Deed

theorem capacity_eq (hd : c.Deed e c') : c'.capacity = c.capacity := by
  cases hd <;> rfl

/-- The receiving end comes back by no operation, and is given up by `dropReceiver` only. -/
theorem receiverAlive_eq (hd : c.Deed e c') (hne : e ≠ (.dropReceiver, .done)) :
    c'.receiverAlive = c.receiverAlive := by
  cases hd with
  | dropReceiver => exact absurd rfl hne
  | _ => rfl

theorem emitterAlive_eq (hd : c.Deed e c') (hne : e ≠ (.dropEmitter, .done)) :
    c'.emitterAlive = c.emitterAlive := by
  cases hd with
  | dropEmitter => exact absurd rfl hne
  | _ => rfl

theorem receiverAlive_of (hd : c.Deed e c') (h : c'.receiverAlive = true) :
    c.receiverAlive = true := by
  by_cases he : e = (.dropReceiver, .done)
  · subst he
    cases hd with
    | dropReceiver => cases h
  · rw [← hd.receiverAlive_eq he]
    exact h

theorem emitterAlive_of (hd : c.Deed e c') (h : c'.emitterAlive = true) :
    c.emitterAlive = true := by
  by_cases he : e = (.dropEmitter, .done)
  · subst he
    cases hd with
    | dropEmitter => cases h
  · rw [← hd.emitterAlive_eq he]
    exact h

/-- What an operation `e` takes stands at the head of the queue, and what it delivers behind it. -/
theorem flow (hd : c.Deed e c') (hreceiver : c'.receiverAlive = true) :
    received [e] ++ c'.queue = c.queue ++ accepted [e] := by
  cases hd with
  | accept => rfl
  | take _ hqueue => simp [received, accepted, Entry.received?, Entry.accepted?, hqueue]
  | dropReceiver => cases hreceiver
  | _ => exact (List.append_nil _).symm

end Deed

namespace History

/-- While somebody can receive, the results `received` and those in the queue are those that were in
the queue and those `accepted`. -/
theorem flow (h : c.History entries c') (hreceiver : c'.receiverAlive = true) :
    received entries ++ c'.queue = c.queue ++ accepted entries := by
  induction h with
  | start => exact (List.append_nil _).symm
  | @act entries e c₁ c₂ h hd ih =>
    have hbefore := ih (hd.receiverAlive_of hreceiver)
    calc
      received (entries ++ [e]) ++ c₂.queue = received entries ++ (received [e] ++ c₂.queue) := by
        rw [received_append, List.append_assoc]
      _ = received entries ++ c₁.queue ++ accepted [e] := by
        rw [hd.flow hreceiver, List.append_assoc]
      _ = c.queue ++ accepted (entries ++ [e]) := by
        rw [hbefore, accepted_append, List.append_assoc]

theorem capacity_eq (h : c.History entries c') : c'.capacity = c.capacity := by
  induction h with
  | start => rfl
  | act _ hd ih => exact hd.capacity_eq.trans ih

/-- A delivering end that is gone was given up by `dropEmitter`. -/
theorem mem_of_emitterAlive (h : c.History entries c') (hemitter : c.emitterAlive = true)
    (hgone : c'.emitterAlive = false) : (.dropEmitter, .done) ∈ entries := by
  induction h with
  | start => cases hemitter.symm.trans hgone
  | @act entries e c₁ c₂ h hd ih =>
    by_cases he : e = (.dropEmitter, .done)
    · simp [he]
    · exact List.mem_append_left _ (ih ((hd.emitterAlive_eq he).symm.trans hgone))

theorem mem_of_receiverAlive (h : c.History entries c') (hreceiver : c.receiverAlive = true)
    (hgone : c'.receiverAlive = false) : (.dropReceiver, .done) ∈ entries := by
  induction h with
  | start => cases hreceiver.symm.trans hgone
  | @act entries e c₁ c₂ h hd ih =>
    by_cases he : e = (.dropReceiver, .done)
    · simp [he]
    · exact List.mem_append_left _ (ih ((hd.receiverAlive_eq he).symm.trans hgone))

/-- Where the delivering end is gone, no delivery succeeds: nothing is `accepted`. -/
theorem accepted_eq_nil (h : c.History entries c') (hgone : c.emitterAlive = false) :
    accepted entries = [] := by
  have hall : c'.emitterAlive = false ∧ accepted entries = [] := by
    induction h with
    | start => exact ⟨hgone, rfl⟩
    | @act entries e c₁ c₂ h hd ih =>
      obtain ⟨hgone₁, hnil⟩ := ih
      refine ⟨eq_false_of_ne_true fun h₂ => ?_, ?_⟩
      · cases hgone₁.symm.trans (hd.emitterAlive_of h₂)
      · rw [accepted_append, hnil, List.nil_append]
        refine List.filterMap_eq_nil_iff.2 fun e' he' => ?_
        obtain rfl := List.mem_singleton.1 he'
        cases hd with
        | accept hemitter => cases hgone₁.symm.trans hemitter
        | _ => rfl
  exact hall.2

/-- A result `r` that is received was delivered, behind as many results as were received
`before`. -/
theorem exists_delivery {before later : List Entry} {r : LexResult} (h : c.History entries c')
    (hqueue : c.queue = [])
    (hentries : entries = before ++ (.receive, .receipt (.result r)) :: later) :
    ∃ earlier preferred between,
      before = earlier ++ (.emit r preferred, .delivery .accepted) :: between ∧
        accepted earlier = received before := by
  obtain ⟨c₁, c₂, hbefore, htake, -⟩ := h.split hentries
  cases htake with
  | @take _ rs hreceiver hhead =>
    have hflow : accepted before = received before ++ r :: rs := by
      rw [← hhead, hbefore.flow hreceiver, hqueue, List.nil_append]
    obtain ⟨first, rest, hparts, hfirst, hrest⟩ := List.filterMap_eq_append_iff.1 hflow
    obtain ⟨skipped, e, between, rfl, hskipped, he, -⟩ := List.filterMap_eq_cons_iff.1 hrest
    obtain ⟨preferred, rfl⟩ := Entry.eq_of_accepted? he
    refine ⟨first ++ skipped, preferred, between, ?_, ?_⟩
    · rw [hparts, List.append_assoc]
    · have hnone : accepted skipped = [] := List.filterMap_eq_nil_iff.2 hskipped
      rw [accepted_append, hnone, List.append_nil]
      exact hfirst

/-- Who is told `disconnected` has received everything that was ever delivered. -/
theorem received_of_disconnected {before later : List Entry} (h : c.History entries c')
    (hqueue : c.queue = []) (hemitter : c.emitterAlive = true)
    (hentries : entries = before ++ (.receive, .receipt .disconnected) :: later) :
    (.dropEmitter, .done) ∈ before ∧ received before = accepted entries := by
  obtain ⟨c₁, c₂, hbefore, hfinish, hlater⟩ := h.split hentries
  cases hfinish with
  | finish hreceiver hempty hgone =>
    refine ⟨hbefore.mem_of_emitterAlive hemitter hgone, ?_⟩
    have hflow := hbefore.flow hreceiver
    rw [hempty, hqueue, List.append_nil, List.nil_append] at hflow
    have hnone : accepted ((.receive, .receipt .disconnected) :: later) = [] :=
      hlater.accepted_eq_nil hgone
    rw [hentries, accepted_append, hnone, List.append_nil]
    exact hflow

end History

/-! ### The queue -/

theorem Fits.happen (h : c.Fits) (event : Event) : (c.happen event).2.Fits := by
  cases event with
  | act op =>
    unfold Conduit.happen
    dsimp only
    split_ifs
    · exact h.apply op
    · exact h
  | meet r =>
    unfold Conduit.happen
    dsimp only
    split_ifs <;> exact h

theorem Fits.after (h : c.Fits) (events : List Event) : (c.after events).Fits := by
  induction events generalizing c with
  | nil => exact h
  | cons event events ih => exact ih (h.happen event)

/-- A queue that `Fits` and has no place left is full. -/
theorem Fits.length_eq (h : c.Fits) (hroom : c.hasRoom = false) :
    ∃ n, c.capacity = some n ∧ c.queue.length = n := by
  unfold hasRoom at hroom
  split at hroom
  next => cases hroom
  next n hn =>
    have hle := h n hn
    have hge : ¬c.queue.length < n := of_decide_eq_false hroom
    exact ⟨n, hn, by omega⟩

/-- A delivery by `emit` that does not succeed leaves the queue alone. -/
theorem queue_emit_of_ne {r : LexResult} {preferred : Arm}
    (hne : (c.emit r preferred).1 ≠ .accepted) : (c.emit r preferred).2.queue = c.queue := by
  cases hemitter : c.emitterAlive with
  | false => simp [emit, hemitter]
  | true =>
    have hd := deed_emit r preferred hemitter
    generalize c.emit r preferred = outcome at hd hne ⊢
    obtain ⟨delivery, c'⟩ := outcome
    cases hd with
    | accept => exact absurd rfl hne
    | refuse => rfl
    | wait => rfl

/-- A delivery is `blocked` only where the queue has no place. -/
theorem hasRoom_of_blocked {r : LexResult} {preferred : Arm}
    (hblocked : (c.emit r preferred).1 = .blocked) : c.hasRoom = false := by
  cases hemitter : c.emitterAlive with
  | false => simp [emit, hemitter] at hblocked
  | true =>
    have hd := deed_emit r preferred hemitter
    generalize c.emit r preferred = outcome at hd hblocked
    obtain ⟨delivery, c'⟩ := outcome
    obtain rfl : delivery = .blocked := hblocked
    cases hd with
    | wait _ hroom => exact hroom

/-- Whatever `events` happen at the two ends of a conduit, and whichever arm an `emit` takes where
it has the choice, results come out as they went in.  While there is a receiving end, what was
`received` and what is in the `queue` is what was `accepted`, in order.  The result of a `receive`
is that of an `emit` before it that succeeded, and the results delivered before that one are the
ones received before; an `emit` that does not succeed leaves the queue as it is.  The queue never
outgrows its `capacity`, and an `emit` is `blocked` only when the queue is full.  And who is told
`disconnected` has received everything, and the delivering end is gone. -/
theorem delivers_in_order (config : Config) (events : List Event) :
    let c := (ofConfig config).after events
    let history := (ofConfig config).history events
    (c.receiverAlive = true → received history ++ c.queue = accepted history) ∧
      (∀ before r later, history = before ++ (.receive, .receipt (.result r)) :: later →
        ∃ earlier preferred between,
          before = earlier ++ (.emit r preferred, .delivery .accepted) :: between ∧
            accepted earlier = received before) ∧
      (∀ r preferred, (c.emit r preferred).1 ≠ .accepted →
        (c.emit r preferred).2.queue = c.queue) ∧
      (config.unbounded = false → c.queue.length ≤ config.channelCapacity) ∧
      (∀ r preferred, (c.emit r preferred).1 = .blocked →
        config.unbounded = false ∧ c.queue.length = config.channelCapacity) ∧
      ∀ before later, history = before ++ (.receive, .receipt .disconnected) :: later →
        (.dropEmitter, .done) ∈ before ∧ received before = accepted history := by
  intro c history
  have hhistory : (ofConfig config).History history c := history_after _ events
  have hfits : c.Fits := (fits_ofConfig config).after events
  have hcapacity : c.capacity = if config.unbounded then none else some config.channelCapacity :=
    hhistory.capacity_eq
  refine ⟨fun hreceiver => ?_, fun before r later => ?_, fun r preferred => queue_emit_of_ne,
    fun hbounded => ?_, fun r preferred hblocked => ?_, fun before later => ?_⟩
  · exact hhistory.flow hreceiver
  · exact hhistory.exists_delivery rfl
  · rw [hbounded] at hcapacity
    exact hfits _ hcapacity
  · obtain ⟨n, hn, hlength⟩ := hfits.length_eq (hasRoom_of_blocked hblocked)
    rw [hcapacity] at hn
    split_ifs at hn with hunbounded
    obtain rfl := Option.some.inj hn
    exact ⟨eq_false_of_ne_true hunbounded, hlength⟩
  · exact hhistory.received_of_disconnected rfl rfl

end LexStream.Conduit
