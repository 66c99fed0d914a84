import LexStream.Proofs.Exchanges

/-!
# Cancellation

How a producer comes to its return once somebody has asked for a stop: through a handle, as the
reader may too if it has one, or by giving up the receiving end.  From then on the producer can
learn of it at its next poll or delivery (`Conduit.Unheard`), so what it may still do is counted by
its stage: how many scans it begins, how many results it delivers, and how many steps it makes.

Main facts:

* `Exchange.Effect.spends`: what a turn uses up once a stop is asked for;
* `Exchange.prompt_of_unheard`: from then on the producer goes on and returns, after at most one
  more scan and one more delivery;
* `Exchange.Calm.after`: where nobody asks for a stop, no result is lost and nobody quits;
* `TokenStream.Stoppable.transition`, `TokenStream.isReturned_join`: the same for the stops of a
  stream;
* `Exchange.prompt_of_asks`: all this for every reachable exchange and stream.
-/

namespace LexStream

namespace Exchange

variable {x x' : Exchange} {t : Turn}

/-! ### What is left to do once a stop is asked for -/

/-- The number of scans that the producer of `x` may still begin. -/
def scansLeft (x : Exchange) : Nat :=
  match x.producer.stage with
  | .polling => if x.conduit.pending then 0 else 1
  | .scanning => 1
  | .delivering _ => 0
  | .returned _ => 0

/-- The number of results that the producer of `x` may still deliver. -/
def deliveriesLeft (x : Exchange) : Nat :=
  match x.producer.stage with
  | .polling => 0
  | .scanning => x.conduit.receiverAlive.toNat
  | .delivering _ => x.conduit.receiverAlive.toNat
  | .returned _ => 0

/-- The number of steps that the producer of `x` may still make. -/
def stepsLeft (x : Exchange) : Nat :=
  match x.producer.stage with
  | .polling => if x.conduit.pending then 1 else 3
  | .scanning => 2 + x.conduit.receiverAlive.toNat
  | .delivering _ => 1 + x.conduit.receiverAlive.toNat
  | .returned _ => 0

/-- What a turn `t` does is no more than what it takes from what is left to do. -/
structure Spends (x : Exchange) (t : Turn) (x' : Exchange) : Prop where
  scans : (x.begins t).toNat + x'.scansLeft ≤ x.scansLeft
  deliveries : (x.delivers? t).toList.length + x'.deliveriesLeft ≤ x.deliveriesLeft
  steps : t.steps + x'.stepsLeft ≤ x.stepsLeft

/-- A `receive`, a `cloneHandle` and a `dropHandle` are no steps of the producer. -/
theorem steps_eq_zero_of_hold (ht : t ∈ [.receive, .cloneHandle, .dropHandle]) : t.steps = 0 := by
  simp only [List.mem_cons, List.not_mem_nil, or_false] at ht
  rcases ht with rfl | rfl | rfl <;> rfl

/-- A turn `t` in which the producer does nothing begins no scan and delivers nothing. -/
theorem idle_of_steps_eq_zero (x : Exchange) (ht : t.steps = 0) :
    x.begins t = false ∧ x.delivers? t = none := by
  cases t with
  | produce => cases ht
  | handOver => cases ht
  | _ => exact ⟨rfl, rfl⟩

/-- A turn `t` in which the producer does nothing leaves no more to do if the conduit `c` behind it
forgets no request and revives no receiver. -/
theorem Spends.of_steps_eq_zero {c : Conduit} (ht : t.steps = 0)
    (hpending : x.conduit.pending = true → c.pending = true)
    (hreceiver : c.receiverAlive = true → x.conduit.receiverAlive = true) :
    x.Spends t { x with conduit := c } := by
  have hidle := x.idle_of_steps_eq_zero ht
  have halive : c.receiverAlive.toNat ≤ x.conduit.receiverAlive.toNat := by
    cases hc : c.receiverAlive with
    | false => exact Nat.zero_le _
    | true => rw [hreceiver hc]
  constructor
  · rw [hidle.1, Bool.toNat_false, Nat.zero_add]
    unfold scansLeft
    cases x.producer.stage with
    | polling =>
      dsimp only
      split_ifs with hc hx
      · exact Nat.le_refl 0
      · exact Nat.zero_le 1
      · exact absurd (hpending ‹_›) hc
      · exact Nat.le_refl 1
    | _ => exact Nat.le_refl _
  · rw [hidle.2, Option.toList_none, List.length_nil, Nat.zero_add]
    unfold deliveriesLeft
    cases x.producer.stage with
    | scanning => exact halive
    | delivering => exact halive
    | _ => exact Nat.le_refl _
  · rw [ht, Nat.zero_add]
    unfold stepsLeft
    cases x.producer.stage with
    | polling =>
      dsimp only
      split_ifs with hc hx
      · exact Nat.le_refl 1
      · exact Nat.le_add_left 1 2
      · exact absurd (hpending ‹_›) hc
      · exact Nat.le_refl 3
    | scanning => exact Nat.add_le_add_left halive 2
    | delivering => exact Nat.add_le_add_left halive 1
    | returned => exact Nat.le_refl 0

theorem Effect.spends (he : x.Effect t x') (h : x.InStep) (hunheard : x.conduit.Unheard) :
    x.Spends t x' := by
  cases he with
  | @poll preferred hstage hlatched hpending =>
    -- Nobody asked for a stop, so the receiving end is gone.
    have hopen : ¬x.Returned := by simp [Returned, hstage]
    have hreceiver := (h.pending_or hunheard hopen).resolve_left (by simp [hpending])
    constructor
    · simp [begins, scansLeft, hstage, hpending]
    · simp [delivers?, deliveriesLeft, hstage, hreceiver]
    · simp [Turn.steps, stepsLeft, hstage, hpending, hreceiver]
  | @scan preferred hstage =>
    have hstage' : (x.producer.scan x.conduit).1.stage =
      .delivering (x.producer.lexer.step.1.map Finding.item) := rfl
    constructor
    · simp [begins, scansLeft, hstage, hstage', Turn.isProduce]
    · simp [delivers?, deliveriesLeft, hstage, hstage']
    · simp only [Turn.steps, stepsLeft, hstage, hstage', Producer.receiverAlive_scan]
      omega
  | @deliver t r queue hstage ht hdelivers hreceiver =>
    have hopen : ¬x.Returned := by simp [Returned, hstage]
    have hpending := (h.pending_or hunheard hopen).resolve_right (by simp [hreceiver])
    unfold Producer.delivered
    split_ifs
    · constructor
      · simp [begins, scansLeft, hstage, Producer.finish]
      · simp [deliveriesLeft, hstage, hdelivers, hreceiver, Producer.finish]
      · simp [stepsLeft, hstage, ht, hreceiver, Producer.finish]
    · -- The request waits for the next poll.
      constructor
      · simp [begins, scansLeft, hstage, hpending]
      · simp [deliveriesLeft, hstage, hdelivers, hreceiver]
      · simp [stepsLeft, hstage, ht, hpending, hreceiver]
  | @quit preferred pending hreturned hstage hwhy hdelivers =>
    have hbegins : x.begins (.produce preferred) = false := by simp [begins, hstage]
    constructor
    · rw [hbegins]
      exact Nat.zero_le _
    · rw [hdelivers]
      exact Nat.zero_le _
    · show 1 ≤ x.stepsLeft
      unfold stepsLeft
      cases hx : x.producer.stage with
      | polling => dsimp only; split_ifs <;> omega
      | scanning => dsimp only; omega
      | delivering r => dsimp only; omega
      | returned how => exact absurd ⟨how, hx⟩ hreturned
  | @hold t queue handles ht =>
    exact .of_steps_eq_zero (steps_eq_zero_of_hold ht) id id
  | cancel => exact .of_steps_eq_zero rfl (fun _ => rfl) id
  | dropReceiver => exact .of_steps_eq_zero rfl id (fun halive => by cases halive)

/-- A turn `t` that is not possible begins no scan and delivers nothing. -/
theorem idle_of_step?_eq_none (h : x.step? t = none) :
    x.begins t = false ∧ x.delivers? t = none := by
  cases t with
  | produce preferred =>
    have hstep : x.producer.step? preferred x.conduit = none := Option.map_eq_none_iff.1 h
    unfold Producer.step? at hstep
    cases hstage : x.producer.stage with
    | scanning =>
      rw [hstage] at hstep
      cases hstep
    | delivering r =>
      refine ⟨by simp [begins, hstage], ?_⟩
      rw [hstage] at hstep
      dsimp only at hstep
      split at hstep
      next => cases hstep
      next => cases hstep
      next c hemit => simp [delivers?, hstage, hemit]
    | polling => simp [begins, delivers?, hstage]
    | returned => simp [begins, delivers?, hstage]
  | handOver => exact ⟨rfl, Option.map_eq_none_iff.1 h⟩
  | receive => exact ⟨rfl, rfl⟩
  | cancel => exact ⟨rfl, rfl⟩
  | cloneHandle => exact ⟨rfl, rfl⟩
  | dropHandle => exact ⟨rfl, rfl⟩
  | dropReceiver => exact ⟨rfl, rfl⟩

/-- Once a stop is asked for, no turn `t` exceeds what is left to do. -/
theorem spends_next (h : x.InStep) (hunheard : x.conduit.Unheard) (t : Turn) :
    (x.begins t).toNat + (x.next t).scansLeft ≤ x.scansLeft ∧
      (x.delivers? t).toList.length + (x.next t).deliveriesLeft ≤ x.deliveriesLeft ∧
      (x.next t).stepsLeft ≤ x.stepsLeft := by
  unfold Exchange.next
  cases hstep : x.step? t with
  | none =>
    obtain ⟨hbegins, hdelivers⟩ := idle_of_step?_eq_none hstep
    rw [hbegins, hdelivers]
    exact ⟨(Nat.zero_add _).le, (Nat.zero_add _).le, Nat.le_refl _⟩
  | some x' =>
    have hspends := (effect_of_step? h.ready hstep).spends h hunheard
    exact ⟨hspends.scans, hspends.deliveries, (Nat.le_add_left _ _).trans hspends.steps⟩

theorem begun_le (h : x.InStep) (hunheard : x.conduit.Unheard) (turns : List Turn) :
    x.begun turns ≤ x.scansLeft := by
  induction turns generalizing x with
  | nil => exact Nat.zero_le _
  | cons t turns ih =>
    have hrest := ih (h.next t) (unheard_next h hunheard t)
    have hfirst := (spends_next h hunheard t).1
    show (x.begins t).toNat + (x.next t).begun turns ≤ _
    omega

theorem length_delivered_le (h : x.InStep) (hunheard : x.conduit.Unheard) (turns : List Turn) :
    (x.delivered turns).length ≤ x.deliveriesLeft := by
  induction turns generalizing x with
  | nil => exact Nat.zero_le _
  | cons t turns ih =>
    have hrest := ih (h.next t) (unheard_next h hunheard t)
    have hfirst := (spends_next h hunheard t).2.1
    show ((x.delivers? t).toList ++ (x.next t).delivered turns).length ≤ _
    rw [List.length_append]
    omega

/-- Only a full queue makes a producer wait, and none whose conduit is `Unheard`. -/
theorem returned_or_isSome_step? (h : x.InStep)
    (hfree : x.conduit.Unheard ∨ x.conduit.hasRoom = true) (preferred : Arm) :
    x.Returned ∨ (x.step? (.produce preferred)).isSome = true := by
  unfold step?
  rw [Option.isSome_map]
  unfold Producer.step?
  cases hstage : x.producer.stage with
  | polling =>
    right
    dsimp only
    split <;> rfl
  | scanning => exact .inr rfl
  | delivering r =>
    right
    have hemission := x.conduit.emission_emit r preferred (h.ready.emitter_of (by simp [hstage]))
    dsimp only
    split
    next => rfl
    next => rfl
    next c hemit =>
      rw [hemit] at hemission
      cases hemission with
      | blocked hheard hroom =>
        rcases hfree with hunheard | hfree
        · exact absurd hunheard hheard
        · cases hfree.symm.trans hroom
  | returned how => exact .inl ⟨how, hstage⟩

theorem returned_of_stepsLeft_eq_zero (h : x.stepsLeft = 0) : x.Returned := by
  unfold stepsLeft at h
  cases hstage : x.producer.stage with
  | returned how => exact ⟨how, hstage⟩
  | polling =>
    rw [hstage] at h
    dsimp only at h
    split_ifs at h
  | scanning =>
    rw [hstage] at h
    dsimp only at h
    omega
  | delivering r =>
    rw [hstage] at h
    dsimp only at h
    omega

theorem stepsLeft_of_returned (h : x.Returned) : x.stepsLeft = 0 := by
  obtain ⟨how, hhow⟩ := h
  simp [stepsLeft, hhow]

/-- When the producer has had `x.stepsLeft` turns of its own, it has returned. -/
theorem returned_after (h : x.InStep) (hunheard : x.conduit.Unheard) {turns : List Turn}
    (hturns : x.stepsLeft ≤ turns.countP Turn.isProduce) : (x.after turns).Returned := by
  induction turns generalizing x with
  | nil => exact returned_of_stepsLeft_eq_zero (Nat.le_zero.1 hturns)
  | cons t turns ih =>
    refine ih (h.next t) (unheard_next h hunheard t) ?_
    have hle := (spends_next h hunheard t).2.2
    rw [List.countP_cons] at hturns
    cases t with
    | produce preferred =>
      -- A step of the producer is possible and takes one from the steps left, if any are.
      rcases returned_or_isSome_step? h (.inl hunheard) preferred with hreturned | hsome
      · rw [stepsLeft_of_returned hreturned] at hle
        omega
      · obtain ⟨x', hstep⟩ := Option.isSome_iff_exists.1 hsome
        have hspent : 1 + x'.stepsLeft ≤ x.stepsLeft :=
          ((effect_of_step? h.ready hstep).spends h hunheard).steps
        have hnext : x.next (.produce preferred) = x' := by rw [Exchange.next, hstep]; rfl
        have hcount : (if Turn.isProduce (.produce preferred) = true then 1 else 0) = 1 := rfl
        rw [hnext]
        omega
    | _ =>
      have hcount : turns.countP Turn.isProduce + 0 = turns.countP Turn.isProduce := rfl
      exact hle.trans (hturns.trans hcount.le)

/-- Whatever `turns` follow, the producer is never made to wait, begins at most one more scan and
delivers at most one more result, and none if nobody can receive it; and after three turns of its
own it has returned. -/
structure Prompt (x : Exchange) : Prop where
  goesOn (later : List Turn) (preferred : Arm) :
    (x.after later).Returned ∨ ((x.after later).step? (.produce preferred)).isSome = true
  begun (later : List Turn) : x.begun later ≤ 1
  delivered (later : List Turn) : (x.delivered later).length ≤ 1
  unreceived (h : x.conduit.receiverAlive = false) (later : List Turn) : x.delivered later = []
  returns (later : List Turn) (h : 3 ≤ later.countP Turn.isProduce) : (x.after later).Returned

theorem prompt_of_unheard (h : x.InStep) (hunheard : x.conduit.Unheard) : x.Prompt where
  goesOn later preferred :=
    returned_or_isSome_step? (h.after later) (.inl (unheard_after h hunheard later)) preferred
  begun later := by
    refine (begun_le h hunheard later).trans ?_
    unfold scansLeft
    split
    · split_ifs <;> omega
    · omega
    · omega
    · omega
  delivered later := by
    refine (length_delivered_le h hunheard later).trans ?_
    have hone : x.conduit.receiverAlive.toNat ≤ 1 := Bool.toNat_le _
    unfold deliveriesLeft
    split <;> omega
  unreceived hreceiver later := by
    have hle := length_delivered_le h hunheard later
    have hzero : x.deliveriesLeft = 0 := by
      unfold deliveriesLeft
      rw [hreceiver]
      split <;> rfl
    exact List.length_eq_zero_iff.1 (by omega)
  returns later hturns := by
    refine returned_after h hunheard (le_trans ?_ hturns)
    have hone : x.conduit.receiverAlive.toNat ≤ 1 := Bool.toNat_le _
    unfold stepsLeft
    split
    · split_ifs <;> omega
    · omega
    · omega
    · omega

/-- Behind a turn that `Asks` for a stop, the producer can learn of it. -/
theorem unheard_of_asks (hstep : x.step? t = some x') (hasks : x.Asks t) :
    x'.conduit.Unheard := by
  cases hasks with
  | cancel hhandles =>
    unfold step? at hstep
    dsimp only at hstep
    rw [if_neg hhandles] at hstep
    obtain rfl := Option.some.inj hstep
    refine .inr (.inl ?_)
    show x.conduit.cancel.pending = true
    rw [Conduit.cancel, if_neg hhandles]
    rfl
  | dropReceiver =>
    unfold step? at hstep
    dsimp only at hstep
    split_ifs at hstep
    obtain rfl := Option.some.inj hstep
    exact .inr (.inr rfl)
  | reader hstage hreader hhandles =>
    obtain ⟨⟨p, c⟩, hscan, rfl⟩ := Option.map_eq_some_iff.1 hstep
    unfold Producer.step? at hscan
    rw [hstage] at hscan
    obtain ⟨rfl, rfl⟩ := Prod.ext_iff.1 (Option.some.inj hscan)
    refine .inr (.inl ?_)
    unfold Producer.scan
    dsimp only
    rw [if_pos hreader, Conduit.cancel, if_neg hhandles]
    rfl

/-! ### Where nobody asks for a stop -/

/-- Everybody listens at the conduit of `x`, and the producer has not quit. -/
structure Calm (x : Exchange) : Prop where
  heard : ¬x.conduit.Unheard
  kept : x.producer.stage ≠ .returned .cancelled

theorem scan_of_not_asks {preferred : Arm} (hstage : x.producer.stage = .scanning)
    (hasks : ¬x.Asks (.produce preferred)) : (x.producer.scan x.conduit).2 = x.conduit := by
  unfold Producer.scan
  dsimp only
  split_ifs with hreader
  · unfold Conduit.cancel
    split_ifs with hhandles
    · rfl
    · exact absurd (.reader hstage hreader hhandles) hasks
  · rfl

/-- A turn that does not ask for a stop loses no result and makes nobody quit, so that `x` stays
`Calm`. -/
theorem Effect.calm (he : x.Effect t x') (h : x.InStep) (hcalm : x.Calm) (hasks : ¬x.Asks t) :
    x'.Calm ∧ x.producer.left = (x.delivers? t).toList ++ x'.producer.left := by
  cases he with
  | poll hstage =>
    refine ⟨⟨hcalm.heard, fun hquit => ?_⟩, ?_⟩
    · cases hquit
    · simp [Producer.left, Stage.left, delivers?, hstage]
  | scan hstage =>
    refine ⟨⟨?_, fun hquit => ?_⟩, ?_⟩
    · rw [scan_of_not_asks hstage hasks]
      exact hcalm.heard
    · cases hquit
    · have hfits := h.ready.fits
      rw [hstage] at hfits
      have hopen : x.producer.lexer.finished = false := hfits
      simp only [Producer.left, Stage.left, delivers?, hstage, Option.toList_none, List.nil_append,
        Lexer.results_of_open hopen]
      rfl
  | deliver hstage ht hdelivers =>
    refine ⟨⟨?_, Producer.stage_delivered_ne _ _ _⟩, ?_⟩
    · simpa [Conduit.Unheard] using hcalm.heard
    · rw [hdelivers, Producer.left_delivered, Producer.left, hstage]
      rfl
  | quit _ _ hwhy => exact absurd hwhy hcalm.heard
  | @hold t queue handles ht =>
    obtain ⟨-, hdelivers⟩ := x.idle_of_steps_eq_zero (steps_eq_zero_of_hold ht)
    refine ⟨⟨hcalm.heard, hcalm.kept⟩, ?_⟩
    rw [hdelivers]
    rfl
  | cancel hhandles => exact absurd (.cancel hhandles) hasks
  | dropReceiver => exact absurd .dropReceiver hasks

theorem Calm.next (hcalm : x.Calm) (h : x.InStep) (hasks : ¬x.Asks t) :
    (x.next t).Calm ∧
      x.producer.left = (x.delivers? t).toList ++ (x.next t).producer.left := by
  unfold Exchange.next
  cases hstep : x.step? t with
  | none =>
    rw [(idle_of_step?_eq_none hstep).2]
    exact ⟨hcalm, rfl⟩
  | some x' => exact (effect_of_step? h.ready hstep).calm h hcalm hasks

/-- Where no turn asks for a stop, what is `delivered` and what the producer has `left` are all that
it had. -/
theorem Calm.after (hcalm : x.Calm) (h : x.InStep) {turns : List Turn}
    (hunasked : x.Unasked turns) :
    (x.after turns).Calm ∧
      x.producer.left = x.delivered turns ++ (x.after turns).producer.left := by
  induction turns generalizing x with
  | nil => exact ⟨hcalm, rfl⟩
  | cons t turns ih =>
    obtain ⟨hasks, hothers⟩ := hunasked
    obtain ⟨hnext, hleft⟩ := hcalm.next h hasks
    obtain ⟨hafter, hrest⟩ := ih hnext (h.next t) hothers
    refine ⟨hafter, ?_⟩
    rw [hleft, hrest, ← List.append_assoc]
    rfl

theorem calm_ofSource (capacity : Option Nat) (s : Source) : (ofSource capacity s).Calm where
  heard := by simp [Conduit.Unheard, ofSource]
  kept := nofun

/-- A producer that has returned in a `Calm` exchange has delivered everything. -/
theorem Calm.left_eq_nil (hcalm : x.Calm) (h : x.InStep) (hreturned : x.Returned) :
    x.producer.left = [] :=
  h.ready.left_eq_nil (h.ready.emitter.2 hreturned) hcalm.kept

end Exchange

/-! ### Streams -/

namespace TokenStream

variable {s s' : TokenStream}

/-- The stream holds its handle until its `release`; once the consumer has stopped it or begun to
give it up, its producer can learn of that. -/
structure Stoppable (s : TokenStream) : Prop where
  handles : s.dropped = false → s.conduit.handles ≠ 0
  unheard : s.cancelled = true ∨ s.dropped = true → s.conduit.Unheard

namespace Stoppable

theorem ofSource (config : Config) (source : Source) : (ofSource config source).Stoppable where
  handles _ := Nat.one_ne_zero
  unheard h := by
    rcases h with h | h
    · cases h
    · cases h

theorem transition (h : s.Stoppable) (ht : s.Transition s') : s'.Stoppable := by
  have hasked : s.dropped = false → s.conduit.cancel.Unheard := by
    intro hdropped
    rw [Conduit.cancel, if_neg (h.handles hdropped)]
    exact .inr (.inl rfl)
  cases ht with
  | produce hmove =>
    refine ⟨fun hdropped => ?_, fun hstopped => hmove.unheard (h.unheard hstopped)⟩
    rw [hmove.handles_eq]
    exact h.handles hdropped
  | refuse => exact ⟨h.handles, h.unheard⟩
  | wait => exact ⟨h.handles, h.unheard⟩
  | take => exact ⟨h.handles, h.unheard⟩
  | finish => exact ⟨h.handles, h.unheard⟩
  | handOver =>
    refine ⟨fun hdropped => ?_, fun hstopped => ?_⟩
    · show (s.producer.delivered _ s.conduit).2.handles ≠ 0
      rw [Producer.handles_delivered]
      exact h.handles hdropped
    · simpa [Conduit.Unheard, answer] using h.unheard hstopped
  | stay => exact h
  | stop _ hdropped =>
    refine ⟨fun hkept => ?_, fun _ => hasked hdropped⟩
    rw [Conduit.handles_cancel]
    exact h.handles hkept
  | drop _ hdropped =>
    refine ⟨fun hkept => ?_, fun _ => hasked hdropped⟩
    cases hkept
  | release hdropped =>
    refine ⟨fun hkept => ?_, fun _ => .inr (.inr rfl)⟩
    cases hdropped.symm.trans hkept

end Stoppable

theorem stoppable_after (config : Config) (source : Source) (schedule : List StreamAction) :
    ((ofSource config source).after schedule).Stoppable :=
  (Accounts.ofSource config source).after_induction (fun _ h ht => h.transition ht)
    (.ofSource config source) schedule

/-- The `run` of a producer ends where it cannot make another step. -/
theorem step?_run_eq_none (preferred : Arm) (p : Producer) (c : Conduit) :
    (p.run preferred c).1.step? preferred (p.run preferred c).2 = none := by
  fun_induction Producer.run preferred p c with
  | case1 p c p' c' hstep ih => exact ih
  | case2 p c hnone => exact hnone

theorem cancelled_join (s : TokenStream) : s.join.cancelled = true := by
  show s.stop.cancelled = true
  unfold TokenStream.stop
  split_ifs with h
  · exact h
  · rfl

/-- Behind a `join` the producer has returned, since nothing makes it wait. -/
theorem isReturned_join (config : Config) (source : Source) (schedule : List StreamAction)
    (hidle : ((ofSource config source).after schedule).Idle) :
    ((ofSource config source).after schedule).join.isReturned = true := by
  obtain ⟨later, hjoin⟩ := exists_after_join hidle
  have hafter : ((ofSource config source).after schedule).join =
      (ofSource config source).after (schedule ++ later) := hjoin.trans List.foldl_append.symm
  generalize hs : ((ofSource config source).after schedule).join = joined at hafter
  have hinStep := inStep_exchange config source (schedule ++ later)
  have hstoppable := stoppable_after config source (schedule ++ later)
  rw [← hafter] at hinStep hstoppable
  have hcancelled : joined.cancelled = true := hs ▸ cancelled_join _
  have hunheard := hstoppable.unheard (.inl hcancelled)
  rcases Exchange.returned_or_isSome_step? hinStep (.inl hunheard) .heed with
    ⟨how, hhow⟩ | hsome
  · have hstage : joined.producer.stage = .returned how := hhow
    rw [isReturned, hstage]
  · -- The join goes on until the producer makes no step.
    have hnone : joined.producer.step? .heed joined.conduit = none := by
      rw [← hs]
      exact step?_run_eq_none .heed _ _
    have hstep : joined.exchange.step? (.produce .heed) = none := Option.map_eq_none_iff.2 hnone
    rw [hstep] at hsome
    cases hsome

end TokenStream

/-- A stop releases the producer.  In every exchange that can be reached, with a queue of any
capacity, a turn that asks for a stop leaves the producer no more than one scan and one delivery,
and never makes it wait (`Exchange.Prompt`); so do the operations of a stream, which are turns, and
a join comes back when the producer has returned.  Where no turn asks for a stop, be every handle
given up, the producer does not quit: it goes on while the queue has room, and when it returns it
has delivered everything. -/
theorem Exchange.prompt_of_asks (source : Source) :
    (∀ (capacity : Option Nat) (before : List Turn) (t : Turn) (x' : Exchange),
      ((ofSource capacity source).after before).step? t = some x' →
        ((ofSource capacity source).after before).Asks t → x'.Prompt) ∧
    (∀ (config : Config) (schedule : List StreamAction),
      let s := (TokenStream.ofSource config source).after schedule
      (s.cancelled = true ∨ s.dropped = true → s.exchange.Prompt) ∧
        (∀ later, (s.after later).exchange = s.exchange.after (s.turns later)) ∧
        (s.Idle → s.join.isReturned = true)) ∧
    ∀ (capacity : Option Nat) (turns : List Turn),
      (ofSource capacity source).Unasked turns →
        let x := (ofSource capacity source).after turns
        let delivered := (ofSource capacity source).delivered turns
        x.producer.stage ≠ .returned .cancelled ∧
          (∀ preferred, x.conduit.hasRoom = true →
            x.Returned ∨ (x.step? (.produce preferred)).isSome = true) ∧
          delivered ++ x.producer.left = (Lexer.ofSource source).results ∧
          (x.Returned → delivered = (Lexer.ofSource source).results) := by
  refine ⟨?_, ?_, ?_⟩
  · intro capacity before t x' hstep hasks
    have hinStep := (inStep_ofSource capacity source).after before
    have hinStep' := (effect_of_step? hinStep.ready hstep).inStep hinStep
    exact prompt_of_unheard hinStep' (unheard_of_asks hstep hasks)
  · intro config schedule s
    have hinStep : s.exchange.InStep := TokenStream.inStep_exchange config source schedule
    have hstoppable : s.Stoppable := TokenStream.stoppable_after config source schedule
    have hacc := (TokenStream.Accounts.ofSource config source).after schedule
    refine ⟨fun hstopped => ?_, fun later => ?_, fun hidle => ?_⟩
    · exact prompt_of_unheard hinStep (hstoppable.unheard hstopped)
    · exact TokenStream.exchange_after hacc later
    · exact TokenStream.isReturned_join config source schedule hidle
  · intro capacity turns hunasked x delivered
    have hstart := inStep_ofSource capacity source
    have hinStep : x.InStep := hstart.after turns
    obtain ⟨hcalm, hleft⟩ := (calm_ofSource capacity source).after hstart hunasked
    have hall : delivered ++ x.producer.left = (Lexer.ofSource source).results := hleft.symm
    refine ⟨hcalm.kept, fun preferred hroom => ?_, hall, fun hreturned => ?_⟩
    · exact returned_or_isSome_step? hinStep (.inr hroom) preferred
    · rw [← hall, hcalm.left_eq_nil hinStep hreturned, List.append_nil]

/-- A producer that waits for a place in the queue of `some 1` is released when a stop is asked
for. -/
theorem Exchange.prompt_of_asks_blocked :
    let x := (ofSource (some 1) (.ofBytes [0x61, 0x20, 0x62])).after
      (List.replicate 5 (.produce .send))
    (x.step? (.produce .send)).isSome = false ∧ (x.next .cancel).Prompt ∧
      (x.after [.cancel, .produce .send]).producer.stage = .returned .cancelled := by
  intro x
  have hhandles : x.conduit.handles ≠ 0 := by decide +kernel
  have hstep : x.step? .cancel = some (x.next .cancel) := by simp [next, step?, hhandles]
  exact ⟨by decide +kernel, (prompt_of_asks _).1 _ _ .cancel _ hstep (.cancel hhandles),
    by decide +kernel⟩

end LexStream
