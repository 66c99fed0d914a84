import LexStream.Producer
import LexStream.Proofs.AlikeSources
import LexStream.Proofs.Results

/-!
# What a producer delivers

A producer has results left (`Producer.left`): the one it is about to deliver and those that its
lexer still gives.  No step of it adds to them or changes their order; a result goes only when it is
delivered, and all of them go when the producer learns that nobody listens.

Main facts:

* `Producer.move_of_step?`: what a step of a producer can be;
* `Producer.Ready.of_move`: its stage always fits its lexer and its end of the conduit;
* `Producer.Move.flow`: what becomes of the results it has left;
* `Producer.Move.calm`: a producer whom nobody asks to stop does not quit.
-/

namespace LexStream

/-! ### The last result -/

namespace Lexer

variable {σ : Type} [ByteSource σ] {l : Lexer σ}

/-- A lexer is `finished` by a result with `isLast`, and by no other. -/
theorem finished_step (l : Lexer σ) :
    l.step.2.finished = isLast (l.step.1.map Finding.item) := by
  unfold step
  split
  next h => rw [h]; rfl
  next => split <;> rfl

/-- The results of an open lexer end with a `last` one, and none before it is one. -/
theorem results_isLast (hopen : l.finished = false) :
    ∃ init last, l.results = init ++ [last] ∧ isLast last = true ∧
      ∀ r ∈ init, isLast r = false := by
  refine results_induction (P := fun _ results => ∃ init last, results = init ++ [last] ∧
    isLast last = true ∧ ∀ r ∈ init, isLast r = false) ?_ ?_ ?_ hopen
  · intro c c' found h heof
    exact ⟨[], .ok found.item, rfl, decide_eq_true heof, by simp⟩
  · intro c c' e h
    exact ⟨[], .error e, rfl, rfl, by simp⟩
  · rintro c c' found results h hne ⟨init, last, rfl, hlast, hinit⟩
    refine ⟨.ok found.item :: init, last, rfl, hlast, fun r hr => ?_⟩
    rcases List.mem_cons.1 hr with rfl | hr
    · exact decide_eq_false hne
    · exact hinit r hr

end Lexer

/-! ### The slot of a conduit -/

namespace Conduit

variable (c : Conduit)

@[simp] theorem queue_cancel : c.cancel.queue = c.queue := by
  unfold cancel signal; split <;> rfl

@[simp] theorem receiverAlive_cancel : c.cancel.receiverAlive = c.receiverAlive := by
  unfold cancel signal; split <;> rfl

@[simp] theorem emitterAlive_cancel : c.cancel.emitterAlive = c.emitterAlive := by
  unfold cancel signal; split <;> rfl

variable {c} {c' : Conduit} {r : LexResult} {preferred : Arm} {delivery : Delivery}

/-- Whether a scan that asks by `poll`, or delivers by `emit`, can learn that nobody listens. -/
def Unheard (c : Conduit) : Prop :=
  c.latched = true ∨ c.pending = true ∨ c.receiverAlive = false

/-- What becomes of a conduit `c` at which a scan delivers the result `r`. -/
inductive Emission (c : Conduit) (r : LexResult) : Delivery → Conduit → Prop
  | accepted (hreceiver : c.receiverAlive = true) (hroom : c.hasRoom = true) :
      Emission c r .accepted { c with queue := c.queue ++ [r] }
  | refused {pending : Bool} (hwhy : c.Unheard) :
      Emission c r .refused { c with pending, latched := true }
  | blocked (hheard : ¬c.Unheard) (hroom : c.hasRoom = false) : Emission c r .blocked c

/-- A conduit whose scan has learned of a stop stays as it is when the scan is `latched` again. -/
theorem eq_of_latched (h : c.latched = true) :
    { c with pending := c.pending, latched := true } = c := by
  rw [← h]

theorem emission_send (hroom : (!c.receiverAlive || c.hasRoom) = true) :
    c.Emission r (c.send r).1 (c.send r).2 := by
  unfold send
  split
  next h => exact .accepted h (by simpa [h] using hroom)
  next h => exact .refused (.inr (.inr (eq_false_of_ne_true h)))

variable (c r preferred) in
theorem emission_emit (hemitter : c.emitterAlive = true) :
    c.Emission r (c.emit r preferred).1 (c.emit r preferred).2 := by
  unfold emit
  split
  next h =>
    have hlatched : c.latched = true := by simpa [hemitter] using h
    have hrefused : c.Emission r .refused { c with pending := c.pending, latched := true } :=
      .refused (.inl hlatched)
    rwa [eq_of_latched hlatched] at hrefused
  next h =>
    have hlatched : c.latched = false := by
      simp only [Bool.or_eq_true, not_or] at h
      exact eq_false_of_ne_true h.1
    split
    next hroom hpending =>
      split
      · exact emission_send hroom
      · exact .refused (.inr (.inl hpending))
    next hroom _ => exact emission_send hroom
    next hpending => exact .refused (.inr (.inl hpending))
    next hroom hpending =>
      simp only [Bool.or_eq_false_iff, Bool.not_eq_false'] at hroom
      exact .blocked (by simp [Unheard, hlatched, hpending, hroom.1]) hroom.2

end Conduit

/-! ### Readers that ask for no stop -/

namespace Source

variable {s s' : Source} {signal : Signal}

/-- A reader that never asks for a stop by a `cancel` among its events.  The reader of a stream is
one, since a stream gives no handle out. -/
def Quiet (s : Source) : Prop :=
  .cancel ∉ s.events

theorem quiet_refill {events : List ReadEvent} (h : .cancel ∉ events) :
    (s.refill events).2.Quiet ∧ (s.refill events).2.cancels = s.cancels := by
  fun_induction refill s events with
  | case1 s => exact ⟨h, rfl⟩
  | case2 s events => exact ⟨fun hmem => h (List.mem_cons_of_mem _ hmem), rfl⟩
  | case3 s b bs events room rest kept =>
    refine ⟨fun hmem => h (List.mem_cons_of_mem _ ?_), rfl⟩
    split at hmem
    · exact hmem
    · exact (List.mem_cons.1 hmem).resolve_left (by simp)
  | case4 s f events hf ih => exact ih fun hmem => h (List.mem_cons_of_mem _ hmem)
  | case5 s f events hf => exact ⟨fun hmem => h (List.mem_cons_of_mem _ hmem), rfl⟩
  | case6 s events ih => exact absurd List.mem_cons_self h

/-- A reader that is `Quiet` does not ask for a stop in a read. -/
theorem quiet_read (h : s.Quiet) (hread : ByteSource.read s = (signal, s')) :
    s'.Quiet ∧ s'.cancels = s.cancels := by
  have hread : s.read = (signal, s') := hread
  unfold read at hread
  split at hread
  next => cases hread; exact ⟨h, rfl⟩
  next =>
    obtain ⟨hquiet, hcancels⟩ := quiet_refill (s := s) h
    rw [hread] at hquiet hcancels
    exact ⟨hquiet, hcancels⟩

end Source

/-! ### Producers -/

/-- The results that a producer in this stage, with the lexer `l`, has left. -/
def Stage.left (l : Lexer Source) : Stage → List LexResult
  | .polling => l.results
  | .scanning => l.results
  | .delivering r => r :: l.results
  | .returned .finished => l.results
  | .returned .cancelled => []

/-- Whether a producer can be in this stage with the lexer `l`: it is finished by the last
result. -/
def Stage.Fits (l : Lexer Source) : Stage → Prop
  | .polling => l.finished = false
  | .scanning => l.finished = false
  | .delivering r => l.finished = isLast r
  | .returned .finished => l.finished = true
  | .returned .cancelled => True

namespace Producer

variable {p p' : Producer} {c c' : Conduit} {r : LexResult}

/-- The results that the producer `p` has left. -/
def left (p : Producer) : List LexResult :=
  p.stage.left p.lexer

/-- A producer `p` at its end of a conduit `c`, which it gives up when it returns. -/
structure Ready (p : Producer) (c : Conduit) : Prop where
  fits : p.stage.Fits p.lexer
  emitter : c.emitterAlive = false ↔ ∃ how, p.stage = .returned how

theorem Ready.emitter_of (h : p.Ready c) (hstage : ∀ how, p.stage ≠ .returned how) :
    c.emitterAlive = true := by
  refine eq_true_of_ne_false fun hfalse => ?_
  obtain ⟨how, hhow⟩ := h.emitter.1 hfalse
  exact hstage how hhow

/-- A producer that has not `returned` is at its end of a conduit that is open. -/
theorem Ready.of_open (hfits : p.stage.Fits p.lexer) (hstage : ∀ how, p.stage ≠ .returned how)
    (hemitter : c.emitterAlive = true) : p.Ready c where
  fits := hfits
  emitter := iff_of_false (by simp [hemitter]) fun ⟨how, hhow⟩ => hstage how hhow

/-- The steps of a producer `p` at the conduit `c`, and what they make of both. -/
inductive Move (p : Producer) (c : Conduit) : Producer → Conduit → Prop
  /-- Nobody asks it to stop, so it goes on to `scanning`. -/
  | poll (hstage : p.stage = .polling) (hlatched : c.latched = false)
      (hpending : c.pending = false) : Move p c { p with stage := .scanning } c
  | scan (hstage : p.stage = .scanning) : Move p c (p.scan c).1 (p.scan c).2
  /-- Its result `r` goes into the queue. -/
  | deliver {r : LexResult} (hstage : p.stage = .delivering r) (hreceiver : c.receiverAlive = true)
      (hroom : c.hasRoom = true) :
      Move p c (p.delivered r { c with queue := c.queue ++ [r] }).1
        (p.delivered r { c with queue := c.queue ++ [r] }).2
  /-- It learns that nobody listens, and it is `latched` then. -/
  | quit {pending : Bool} (hstage : ∀ how, p.stage ≠ .returned how) (hwhy : c.Unheard) :
      Move p c (p.quit { c with pending, latched := true }).1
        (p.quit { c with pending, latched := true }).2

/-- Every `step?` of a producer is one of its moves. -/
theorem move_of_step? {preferred : Arm} (hready : p.Ready c)
    (h : p.step? preferred c = some (p', c')) : p.Move c p' c' := by
  unfold step? at h
  split at h
  next hstage =>
    by_cases hlatched : c.latched = true
    · rw [Conduit.poll_latched hlatched] at h
      cases h
      have hquit : p.Move c (p.quit { c with pending := c.pending, latched := true }).1
          (p.quit { c with pending := c.pending, latched := true }).2 :=
        .quit (by simp [hstage]) (.inl hlatched)
      rwa [Conduit.eq_of_latched hlatched] at hquit
    by_cases hpending : c.pending = true
    · have hpoll : c.poll = (true, { c with pending := false, latched := true }) := by
        simp [Conduit.poll, hlatched, hpending]
      rw [hpoll] at h
      cases h
      exact .quit (by simp [hstage]) (.inr (.inl hpending))
    · have hpoll : c.poll = (false, c) := by simp [Conduit.poll, hlatched, hpending]
      rw [hpoll] at h
      cases h
      exact .poll hstage (eq_false_of_ne_true hlatched) (eq_false_of_ne_true hpending)
  next hstage =>
    cases h
    exact .scan hstage
  next r hstage =>
    have hemission := c.emission_emit r preferred (hready.emitter_of (by simp [hstage]))
    split at h
    next c₁ hemit =>
      rw [hemit] at hemission
      cases hemission with
      | accepted hreceiver hroom =>
        obtain ⟨rfl, rfl⟩ := Prod.ext_iff.1 (Option.some.inj h)
        exact .deliver hstage hreceiver hroom
    next c₁ hemit =>
      rw [hemit] at hemission
      cases hemission with
      | refused hwhy => cases h; exact .quit (by simp [hstage]) hwhy
    next => cases h
  next => cases h

/-! ### Deliveries -/

section Delivered

@[simp] theorem queue_scan : (p.scan c).2.queue = c.queue := by
  unfold scan
  dsimp only
  split
  · exact Conduit.queue_cancel c
  · rfl

@[simp] theorem receiverAlive_scan : (p.scan c).2.receiverAlive = c.receiverAlive := by
  unfold scan
  dsimp only
  split
  · exact Conduit.receiverAlive_cancel c
  · rfl

@[simp] theorem emitterAlive_scan : (p.scan c).2.emitterAlive = c.emitterAlive := by
  unfold scan
  dsimp only
  split
  · exact Conduit.emitterAlive_cancel c
  · rfl

variable (p r c)

@[simp] theorem queue_delivered : (p.delivered r c).2.queue = c.queue := by
  unfold delivered; split <;> rfl

@[simp] theorem pending_delivered : (p.delivered r c).2.pending = c.pending := by
  unfold delivered; split <;> rfl

@[simp] theorem latched_delivered : (p.delivered r c).2.latched = c.latched := by
  unfold delivered; split <;> rfl

@[simp] theorem receiverAlive_delivered :
    (p.delivered r c).2.receiverAlive = c.receiverAlive := by
  unfold delivered; split <;> rfl

@[simp] theorem lexer_delivered : (p.delivered r c).1.lexer = p.lexer := by
  unfold delivered; split <;> rfl

theorem stage_delivered_ne : (p.delivered r c).1.stage ≠ .returned .cancelled := by
  unfold delivered
  split
  · exact nofun
  · exact nofun

theorem left_delivered : (p.delivered r c).1.left = p.lexer.results := by
  unfold delivered
  split <;> rfl

variable {p r c}

/-- Behind a delivery of `r`, a producer has returned or goes on, as its lexer does. -/
theorem Ready.delivered (h : p.Ready c) (hstage : p.stage = .delivering r)
    (hemitter : c'.emitterAlive = c.emitterAlive) :
    (p.delivered r c').1.Ready (p.delivered r c').2 := by
  have hfits := h.fits
  rw [hstage] at hfits
  have hfits : p.lexer.finished = isLast r := hfits
  unfold Producer.delivered
  split
  next hlast => exact ⟨hfits.trans hlast, iff_of_true rfl ⟨_, rfl⟩⟩
  next hlast =>
    refine .of_open (hfits.trans (eq_false_of_ne_true hlast)) nofun ?_
    exact hemitter.trans (h.emitter_of (by simp [hstage]))

end Delivered

/-- A producer that came to its end and was not `cancelled` has no results left. -/
theorem Ready.left_eq_nil (h : p.Ready c) (hemitter : c.emitterAlive = false)
    (hne : p.stage ≠ .returned .cancelled) : p.left = [] := by
  obtain ⟨how, hstage⟩ := h.emitter.1 hemitter
  have hfits := h.fits
  rw [left, hstage]
  rw [hstage] at hfits hne
  cases how with
  | finished => exact Lexer.results_of_finished hfits
  | cancelled => exact absurd rfl hne

/-! ### What a step keeps -/

/-- After every move a producer fits its lexer and its end of the conduit: it is `Ready` again. -/
theorem Ready.of_move (h : p.Ready c) (hmove : p.Move c p' c') : p'.Ready c' := by
  cases hmove with
  | poll hstage =>
    have hfits := h.fits
    rw [hstage] at hfits
    exact .of_open hfits nofun (h.emitter_of (by simp [hstage]))
  | scan hstage =>
    refine .of_open p.lexer.finished_step nofun ?_
    rw [emitterAlive_scan]
    exact h.emitter_of (by simp [hstage])
  | deliver hstage => exact h.delivered hstage rfl
  | quit => exact ⟨trivial, iff_of_true rfl ⟨_, rfl⟩⟩

/-- What a move has `sent` goes into the queue, and only a producer that quits has `lost`
results. -/
theorem Move.flow (h : p.Ready c) (hmove : p.Move c p' c') :
    ∃ sent lost, p.left = sent ++ p'.left ++ lost ∧ c'.queue = c.queue ++ sent ∧
      (lost ≠ [] → p'.stage = .returned .cancelled) := by
  cases hmove with
  | poll hstage =>
    refine ⟨[], [], ?_, by simp, by simp⟩
    unfold left
    rw [hstage]
    simp [Stage.left]
  | scan hstage =>
    have hfits := h.fits
    rw [hstage] at hfits
    have hopen : p.lexer.finished = false := hfits
    refine ⟨[], [], ?_, by simp, by simp⟩
    unfold left
    rw [hstage]
    simp only [Stage.left, List.nil_append, List.append_nil, Lexer.results_of_open hopen]
    rfl
  | @deliver r hstage =>
    refine ⟨[r], [], ?_, by simp, by simp⟩
    rw [left_delivered, left, hstage]
    simp [Stage.left]
  | quit => exact ⟨[], p.left, rfl, (List.append_nil _).symm, fun _ => rfl⟩

theorem Move.receiverAlive_eq (hmove : p.Move c p' c') : c'.receiverAlive = c.receiverAlive := by
  cases hmove with
  | poll => rfl
  | scan => exact receiverAlive_scan
  | deliver => exact receiverAlive_delivered p _ _
  | quit => rfl

theorem Move.not_returned (hmove : p.Move c p' c') (how : Return) : p.stage ≠ .returned how := by
  cases hmove with
  | poll hstage => simp [hstage]
  | scan hstage => simp [hstage]
  | deliver hstage => simp [hstage]
  | quit hstage => exact hstage how

/-! ### What nobody disturbs -/

/-- A scan of a reader that is `Quiet` leaves the conduit `c` as it is. -/
theorem scan_of_quiet (h : p.lexer.cursor.source.Quiet) :
    (p.scan c).1.lexer.cursor.source.Quiet ∧ (p.scan c).2 = c := by
  have hstep : p.lexer.step.2.cursor.source.Quiet ∧
      p.lexer.step.2.cursor.source.cancels = p.lexer.cursor.source.cancels := by
    refine Lexer.invariant_step (P := fun s : Source => s.Quiet ∧
      s.cancels = p.lexer.cursor.source.cancels) ?_ ⟨h, rfl⟩
    intro s s' signal hs hread
    obtain ⟨hquiet, hcancels⟩ := Source.quiet_read hs.1 hread
    exact ⟨hquiet, hcancels.trans hs.2⟩
  refine ⟨hstep.1, ?_⟩
  unfold scan
  dsimp only
  rw [if_neg (by rw [hstep.2]; exact Nat.lt_irrefl _)]

theorem Move.quiet (h : p.lexer.cursor.source.Quiet) (hmove : p.Move c p' c') :
    p'.lexer.cursor.source.Quiet := by
  cases hmove with
  | poll => exact h
  | scan => exact (scan_of_quiet h).1
  | deliver => rwa [lexer_delivered]
  | quit => exact h

/-- Where neither the reader nor the consumer asks for a stop and the consumer listens, a producer
does not quit: a conduit that is not `Unheard` stays so. -/
theorem Move.calm (h : p.lexer.cursor.source.Quiet) (hmove : p.Move c p' c')
    (hheard : ¬c.Unheard) : ¬c'.Unheard ∧ p'.stage ≠ .returned .cancelled := by
  cases hmove with
  | poll => exact ⟨hheard, nofun⟩
  | scan =>
    rw [(scan_of_quiet h).2]
    exact ⟨hheard, nofun⟩
  | deliver =>
    refine ⟨?_, stage_delivered_ne _ _ _⟩
    simpa [Conduit.Unheard] using hheard
  | quit _ hwhy => exact absurd hwhy hheard

end Producer

end LexStream
