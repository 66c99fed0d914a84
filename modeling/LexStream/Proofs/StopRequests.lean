import LexStream.Proofs.Histories

/-!
# Requests to stop

A request goes into a slot that holds one.  The scan takes it out when it asks, or instead of
delivering a result, and remembers it from then on; a delivery may also go through while a request
waits, which leaves the request in the slot.  So a request that was made waits or is remembered, and
what is remembered was asked for, or is a receiving end that a delivery found to be gone.

Main facts:

* `Conduit.Deed.signalling`: what an operation does to the slot and to what the scan remembers;
* `Conduit.History.latched_of_mem`, `Conduit.History.asked_of_mem`: a stop that was told, and a
  request that was made, are kept;
* `Conduit.History.justified`: what the scan remembers, and what waits in the slot, has a reason;
* `Conduit.stop_requests_kept`: all this for every row of events.
-/

namespace LexStream.Conduit

variable {c c₁ c' : Conduit} {e : Entry} {entries more : List Entry} {r : LexResult}
  {preferred : Arm}

/-- Whether the operation of the entry told the scan to stop: `emit` was `refused`, or `poll` was
answered so. -/
def Entry.tellsStop : Entry → Bool
  | (.emit .., .delivery .refused) => true
  | (.poll, .cancelled true) => true
  | _ => false

/-- The receiving end was given up, and a delivery was `refused` afterwards. -/
def Noticed (entries : List Entry) : Prop :=
  ∃ before between later r preferred, entries =
    before ++ (.dropReceiver, .done) ::
      (between ++ (.emit r preferred, .delivery .refused) :: later)

theorem Noticed.append (h : Noticed entries) (more : List Entry) : Noticed (entries ++ more) := by
  obtain ⟨before, between, later, r, preferred, rfl⟩ := h
  exact ⟨before, between, later ++ more, r, preferred, by simp⟩

theorem Noticed.mem (h : Noticed entries) : (.dropReceiver, .done) ∈ entries := by
  obtain ⟨before, between, later, r, preferred, rfl⟩ := h
  simp

/-- A `refused` delivery notices that the receiving end was given up before. -/
theorem noticed_snoc (h : (.dropReceiver, .done) ∈ entries) (r : LexResult) (preferred : Arm) :
    Noticed (entries ++ [(.emit r preferred, .delivery .refused)]) := by
  obtain ⟨before, between, rfl⟩ := List.append_of_mem h
  exact ⟨before, between, [], r, preferred, by simp⟩

/-! ### The slot and what the scan remembers -/

/-- What an operation does to the slot (`pending`) and to what the scan remembers (`latched`). -/
inductive Signalling (c : Conduit) : Entry → Conduit → Prop
  | keep {e : Entry} {c' : Conduit} (hsilent : e.tellsStop = false)
      (hpending : c'.pending = c.pending) (hlatched : c'.latched = c.latched) : Signalling c e c'
  | ask {c' : Conduit} (hpending : c'.pending = true) (hlatched : c'.latched = c.latched) :
      Signalling c (.cancel, .done) c'
  /-- The scan is told to stop, and remembers it by `latched`. -/
  | tell {e : Entry} {c' : Conduit} (hlatched : c'.latched = true)
      (hwhy : c.latched = true ∨ c.pending = true ∨ (c.receiverAlive = false ∧
        ∃ r preferred, e = (.emit r preferred, .delivery .refused))) : Signalling c e c'

theorem Deed.signalling (hd : c.Deed e c') : c.Signalling e c' := by
  cases hd with
  | @refuse r preferred _ hwhy =>
    refine .tell rfl ?_
    rcases hwhy with hlatched | hpending | hreceiver
    · exact .inl hlatched
    · exact .inr (.inl hpending)
    · exact .inr (.inr ⟨hreceiver, r, preferred, rfl⟩)
  | heed hwhy => exact .tell rfl (hwhy.imp_right .inl)
  | cancel => exact .ask rfl rfl
  | _ => exact .keep rfl rfl rfl

namespace Signalling

/-- What the scan remembers, it does not forget: `latched` stays. -/
theorem latched (h : c.Signalling e c') (hlatched : c.latched = true) : c'.latched = true := by
  cases h with
  | keep _ _ hsame => exact hsame.trans hlatched
  | ask _ hsame => exact hsame.trans hlatched
  | tell hlatched' => exact hlatched'

theorem latched_of_tellsStop (h : c.Signalling e c') (htells : e.tellsStop = true) :
    c'.latched = true := by
  cases h with
  | keep hsilent => cases hsilent.symm.trans htells
  | ask => cases htells
  | tell hlatched => exact hlatched

/-- A request is `pending` in the slot until the scan remembers it. -/
theorem asked (h : c.Signalling e c') (hasked : c.pending = true ∨ c.latched = true) :
    c'.pending = true ∨ c'.latched = true := by
  cases h with
  | keep _ hpending hlatched => rwa [hpending, hlatched]
  | ask hpending => exact .inl hpending
  | tell hlatched => exact .inr hlatched

end Signalling

/-! ### What a history keeps -/

namespace History

/-- A scan that was told to stop by an entry `e` remembers it. -/
theorem latched_of_mem (h : c.History entries c') (hmem : e ∈ entries)
    (htells : e.tellsStop = true) : c'.latched = true := by
  induction h with
  | start => cases hmem
  | act h hd ih =>
    rcases List.mem_append.1 hmem with hmem | hmem
    · exact hd.signalling.latched (ih hmem)
    · obtain rfl := List.mem_singleton.1 hmem
      exact hd.signalling.latched_of_tellsStop htells

/-- A request that was made by `cancel` is `pending` or remembered. -/
theorem asked_of_mem (h : c.History entries c') (hmem : (.cancel, .done) ∈ entries) :
    c'.pending = true ∨ c'.latched = true := by
  induction h with
  | start => cases hmem
  | act h hd ih =>
    rcases List.mem_append.1 hmem with hmem | hmem
    · exact hd.signalling.asked (ih hmem)
    · obtain rfl := List.mem_singleton.1 hmem
      cases hd with
      | cancel => exact .inl rfl

end History

/-! ### Reasons -/

/-- What is `pending` was asked for; and so was what is `latched`, unless the scan noticed that the
receiving end is gone. -/
structure Justified (entries : List Entry) (c : Conduit) : Prop where
  pending : c.pending = true → c.latched = false → (.cancel, .done) ∈ entries
  latched : c.latched = true → (.cancel, .done) ∈ entries ∨ Noticed entries

namespace Justified

/-- A scan that learns of a `pending` stop has a reason, also where it remembers it already. -/
theorem of_pending (h : Justified entries c) (hpending : c.pending = true) :
    (.cancel, .done) ∈ entries ∨ Noticed entries := by
  cases hlatched : c.latched with
  | true => exact h.latched hlatched
  | false => exact .inl (h.pending hpending hlatched)

theorem act (h : Justified entries c) (hs : c.Signalling e c')
    (hreceiver : c.receiverAlive = false → (.dropReceiver, .done) ∈ entries) :
    Justified (entries ++ [e]) c' := by
  have hlonger : (.cancel, .done) ∈ entries ∨ Noticed entries →
      (.cancel, .done) ∈ entries ++ [e] ∨ Noticed (entries ++ [e]) := by
    rintro (hmem | hnoticed)
    · exact .inl (List.mem_append_left _ hmem)
    · exact .inr (hnoticed.append _)
  cases hs with
  | keep _ hpending hlatched =>
    refine ⟨fun hp hl => ?_, fun hl => hlonger (h.latched (hlatched.symm.trans hl))⟩
    exact List.mem_append_left _ (h.pending (hpending.symm.trans hp) (hlatched.symm.trans hl))
  | ask =>
    have hmem : (.cancel, .done) ∈ entries ++ [(.cancel, .done)] := by simp
    exact ⟨fun _ _ => hmem, fun _ => .inl hmem⟩
  | tell hlatched hwhy =>
    refine ⟨fun _ hl => ?_, fun _ => ?_⟩
    · cases hlatched.symm.trans hl
    · rcases hwhy with hbefore | hpending | ⟨hgone, r, preferred, rfl⟩
      · exact hlonger (h.latched hbefore)
      · exact hlonger (h.of_pending hpending)
      · exact .inr (noticed_snoc (hreceiver hgone) r preferred)

end Justified

/-- Where nobody has asked for a stop before, what the scan remembers later is `Justified`. -/
theorem History.justified (h : c.History entries c') (hheard : ¬c.Unheard) :
    Justified entries c' := by
  simp only [Unheard, not_or, Bool.not_eq_true, Bool.not_eq_false] at hheard
  obtain ⟨hlatched, hpending, hreceiver⟩ := hheard
  induction h with
  | start =>
    refine ⟨fun hp => ?_, fun hl => ?_⟩
    · cases hpending.symm.trans hp
    · cases hlatched.symm.trans hl
  | act h hd ih => exact ih.act hd.signalling (h.mem_of_receiverAlive hreceiver)

/-- A delivery that was `refused` had a reason among the entries `before` it. -/
theorem History.reason_of_refused {before later : List Entry} (h : c.History entries c')
    (hheard : ¬c.Unheard)
    (hentries : entries = before ++ (.emit r preferred, .delivery .refused) :: later) :
    (.cancel, .done) ∈ before ∨ (.dropReceiver, .done) ∈ before := by
  obtain ⟨c₁, c₂, hbefore, hrefuse, -⟩ := h.split hentries
  have hjustified := hbefore.justified hheard
  have hreceiver : c.receiverAlive = true := by
    refine eq_true_of_ne_false fun hgone => hheard (.inr (.inr hgone))
  cases hrefuse with
  | refuse hwhy =>
    rcases hwhy with hlatched | hpending | hgone
    · exact (hjustified.latched hlatched).imp_right Noticed.mem
    · exact (hjustified.of_pending hpending).imp_right Noticed.mem
    · exact .inr (hbefore.mem_of_receiverAlive hreceiver hgone)

/-- A `poll` that told of a stop had a reason among the entries `before` it. -/
theorem History.reason_of_poll {before later : List Entry} (h : c.History entries c')
    (hheard : ¬c.Unheard) (hentries : entries = before ++ (.poll, .cancelled true) :: later) :
    (.cancel, .done) ∈ before ∨ Noticed before := by
  obtain ⟨c₁, c₂, hbefore, hheed, -⟩ := h.split hentries
  have hjustified := hbefore.justified hheard
  cases hheed with
  | heed hwhy =>
    rcases hwhy with hlatched | hpending
    · exact hjustified.latched hlatched
    · exact hjustified.of_pending hpending

/-! ### What a request does -/

theorem poll_of_asked (h : c.pending = true ∨ c.latched = true) : c.poll.1 = true := by
  unfold poll
  split_ifs with hlatched hpending
  · rfl
  · rfl
  · exact absurd h (by simp [hlatched, hpending])

/-- Where a stop was asked for, an `emit` that finds no place is refused and does not wait. -/
theorem emit_of_asked (h : c.pending = true ∨ c.latched = true) (hroom : c.hasRoom = false) :
    (c.emit r preferred).1 = .refused := by
  cases hemitter : c.emitterAlive with
  | false => simp [emit, hemitter]
  | true =>
    have hemission := c.emission_emit r preferred hemitter
    generalize c.emit r preferred = outcome at hemission ⊢
    obtain ⟨delivery, c'⟩ := outcome
    cases hemission with
    | accepted _ hplace => cases hroom.symm.trans hplace
    | refused => rfl
    | blocked hheard =>
      refine absurd ?_ hheard
      rcases h with hpending | hlatched
      · exact .inr (.inl hpending)
      · exact .inl hlatched

/-- No result `r` goes past the queue of a scan that is `latched`. -/
theorem happen_meet_of_latched (h : c.latched = true) (r : LexResult) :
    c.happen (.meet r) = ([], c) := by
  simp [happen, admitsMeeting, h]

/-- Stops are kept, never lost, and have reasons, whatever `events` happen at the two ends of a
conduit `c` and whichever arm a delivery takes.  A scan that was told to stop is told so by every
later `poll`; every later `emit` is refused, and nothing changes.  Behind a `cancel`, however many
deliveries went through and handles were given up since, a `poll` tells the scan to stop, and an
`emit` that finds no place is refused.  And an `emit` is refused, or a `poll` tells of a stop, only
where a stop was asked for before, or the receiving end was given up, which a `poll` tells of only
when a delivery has noticed it. -/
theorem stop_requests_kept (config : Config) (events : List Event) :
    let c := (ofConfig config).after events
    let history := (ofConfig config).history events
    (∀ e ∈ history, e.tellsStop = true →
      c.poll = (true, c) ∧ (∀ r preferred, c.emit r preferred = (.refused, c)) ∧
        ∀ r, c.happen (.meet r) = ([], c)) ∧
      ((.cancel, .done) ∈ history →
        c.poll.1 = true ∧
          ∀ r preferred, c.hasRoom = false → (c.emit r preferred).1 = .refused) ∧
      (∀ before r preferred later,
        history = before ++ (.emit r preferred, .delivery .refused) :: later →
          (.cancel, .done) ∈ before ∨ (.dropReceiver, .done) ∈ before) ∧
      ∀ before later, history = before ++ (.poll, .cancelled true) :: later →
        (.cancel, .done) ∈ before ∨ Noticed before := by
  intro c history
  have hhistory : (ofConfig config).History history c := history_after _ events
  have hheard : ¬(ofConfig config).Unheard := by simp [Unheard, ofConfig]
  refine ⟨fun e hmem htells => ?_, fun hmem => ?_, fun before r preferred later hentries => ?_,
    fun before later hentries => ?_⟩
  · have hlatched := hhistory.latched_of_mem hmem htells
    exact ⟨poll_latched hlatched, emit_of_latched hlatched, happen_meet_of_latched hlatched⟩
  · have hasked := hhistory.asked_of_mem hmem
    exact ⟨poll_of_asked hasked, fun r preferred hroom => emit_of_asked hasked hroom⟩
  · exact hhistory.reason_of_refused hheard hentries
  · exact hhistory.reason_of_poll hheard hentries

end LexStream.Conduit
