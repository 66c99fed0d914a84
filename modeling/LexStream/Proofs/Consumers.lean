import LexStream.Proofs.Schedules

/-!
# The operations of a consumer

The operations of a stream are schedules: a request, and then either side until there is an answer;
a stop; a stop and the producer until it returns.  So what holds behind every schedule holds for a
consumer that uses them, and one that takes results until the stream ends has them all.

Main facts:

* `TokenStream.exists_after_next`, `TokenStream.after_cancel`, `TokenStream.exists_after_join`: the
  operations are schedules;
* `TokenStream.rest_ofSource`: the results taken from a new stream are those of a scan.
-/

namespace LexStream

/-- A lexer `l` has at most one result for each thing that it can still do, as `remaining` counts
them. -/
theorem Lexer.length_results_le {σ : Type} [ByteSource σ] {l : Lexer σ}
    (hopen : l.finished = false) : l.results.length ≤ l.remaining := by
  have hremaining : l.remaining = l.cursor.size + 1 := by simp [remaining, hopen]
  rw [hremaining]
  refine results_induction (P := fun c results => results.length ≤ c.size + 1) ?_ ?_ ?_ hopen
  · intro c c' found h heof
    exact Nat.le_add_left 1 c.size
  · intro c c' e h
    exact Nat.le_add_left 1 c.size
  · intro c c' found results h hne ih
    have hlt := Scanner.size_item_lt h hne
    rw [List.length_cons]
    omega

namespace TokenStream

variable {s s' : TokenStream} {total : List LexResult} {a : StreamAction}

/-! ### Operations are schedules -/

theorem after_cons (h : s.step? a = some s') (schedule : List StreamAction) :
    s.after (a :: schedule) = s'.after schedule := by
  simp [after, h]

theorem step?_produce {preferred : Arm} {p : Producer} {c : Conduit}
    (h : s.producer.step? preferred s.conduit = some (p, c)) :
    s.step? (.produce preferred) = some { s with producer := p, conduit := c } := by
  simp [step?, h]

/-- A `run` of the producer `p` is a schedule of its steps. -/
theorem exists_after_run (preferred : Arm) {p : Producer} {c : Conduit} (hp : s.producer = p)
    (hc : s.conduit = c) :
    ∃ schedule, { s with
      producer := (p.run preferred c).1
      conduit := (p.run preferred c).2 } = s.after schedule := by
  fun_induction Producer.run preferred p c generalizing s with
  | case1 p c p' c' hstep ih =>
    subst hp hc
    obtain ⟨schedule, hschedule⟩ := ih (s := { s with producer := p', conduit := c' }) rfl rfl
    exact ⟨.produce preferred :: schedule, by rw [after_cons (step?_produce hstep), ← hschedule]⟩
  | case2 p c hnone =>
    subst hp hc
    exact ⟨[], rfl⟩

/-- Waiting for an answer, by `settle`, is a schedule. -/
theorem exists_after_settle (s : TokenStream) : ∃ schedule, s.settle = s.after schedule := by
  fun_induction settle s with
  | case1 s hwaiting s' hnext =>
    rcases Option.or_eq_some_iff.1 hnext with htake | ⟨-, hhand⟩
    · exact ⟨[.take], (after_cons htake []).symm⟩
    · exact ⟨[.handOver], (after_cons hhand []).symm⟩
  | case2 s hwaiting hnext p c hstep ih =>
    obtain ⟨schedule, hschedule⟩ := ih
    exact ⟨.produce .send :: schedule, by rw [after_cons (step?_produce hstep), hschedule]⟩
  | case3 s hwaiting hnext hstep => exact ⟨[], rfl⟩
  | case4 s hwaiting => exact ⟨[], rfl⟩

/-- A request for a result, by `next`, is a schedule. -/
theorem exists_after_next (s : TokenStream) : ∃ schedule, s.next.2 = s.after schedule := by
  unfold next
  split
  next s₁ hrequest =>
    obtain ⟨schedule, hschedule⟩ := s₁.exists_after_settle
    exact ⟨.request :: schedule, by rw [after_cons hrequest, ← hschedule]⟩
  next => exact ⟨[], rfl⟩

/-- A consumer between two operations on a stream `s` that it has. -/
structure Idle (s : TokenStream) : Prop where
  waiting : s.waiting = false
  dropped : s.dropped = false

theorem after_cancel (h : s.Idle) : s.cancel = s.after [.cancel] := by
  have hstep : s.step? .cancel = some s.stop := by simp [step?, h.waiting, h.dropped]
  exact (after_cons hstep []).symm

/-- Joining a stream stops it and goes on with the steps of its producer: `join` is a schedule. -/
theorem exists_after_join (h : s.Idle) : ∃ schedule, s.join = s.after schedule := by
  obtain ⟨schedule, hschedule⟩ := exists_after_run (s := s.cancel) .heed rfl rfl
  refine ⟨.cancel :: schedule, ?_⟩
  calc
    s.join = s.cancel.after schedule := hschedule
    _ = (s.after [.cancel]).after schedule := by rw [← after_cancel h]
    _ = s.after (.cancel :: schedule) := rfl

/-! ### Requests are answered -/

/-- The stream `s'` differs from `s` in one more answer, as far as the consumer can see. -/
structure Answered (s s' : TokenStream) : Prop where
  waiting : s'.waiting = false
  cancelled_eq : s'.cancelled = s.cancelled
  dropped_eq : s'.dropped = s.dropped
  answers_eq : ∃ a, s'.answers = s.answers ++ [a]

theorem answered_take (h : s.step? .take = some s') : Answered s s' := by
  simp only [step?] at h
  split at h
  next => split at h <;> cases h <;> exact ⟨rfl, rfl, rfl, _, rfl⟩
  next => cases h

theorem answered_handOver (h : s.step? .handOver = some s') : Answered s s' := by
  simp only [step?] at h
  split at h
  next =>
    split at h
    next => cases h; exact ⟨rfl, rfl, rfl, _, rfl⟩
    next => cases h
  next => cases h

/-- A consumer that is `waiting` gets an answer from `settle`. -/
theorem answered_settle (h : Accounts total s) (hwaiting : s.waiting = true) :
    Answered s s.settle := by
  fun_induction settle s with
  | case1 s _ s' hnext =>
    rcases Option.or_eq_some_iff.1 hnext with htake | ⟨-, hhand⟩
    · exact answered_take htake
    · exact answered_handOver hhand
  | case2 s _ hnext p c hstep ih =>
    have hmove := Producer.move_of_step? h.ready hstep
    obtain ⟨hidle, hcancelled, hdropped, hanswers⟩ := ih (h.transition (.produce hmove)) hwaiting
    exact ⟨hidle, hcancelled, hdropped, hanswers⟩
  | case3 s _ hnext hstep =>
    -- Neither side could go on.
    obtain ⟨htake, hhand⟩ := Option.or_eq_none_iff.1 hnext
    obtain ⟨a, ha, hsome⟩ := h.exists_isSome_step? hwaiting
    simp only [List.mem_cons, List.not_mem_nil, or_false] at ha
    rcases ha with rfl | rfl | rfl
    · simp [htake] at hsome
    · simp [hhand] at hsome
    · simp [step?, hstep] at hsome
  | case4 s hfalse => exact absurd hwaiting hfalse

/-- A request by `next` to a stream that is not `cancelled` is answered, with the last of the
`answers`. -/
theorem answered_next (h : Accounts total s) (hidle : s.Idle) (hcancelled : s.cancelled = false) :
    Answered s s.next.2 ∧ s.next.1 = s.next.2.answers.getLast?.join := by
  have hrequest : s.step? .request = some { s with waiting := true } := by
    simp [step?, hidle.waiting, hidle.dropped, hcancelled]
  have hacc : Accounts total { s with waiting := true } :=
    h.transition (.wait hcancelled hidle.dropped hidle.waiting)
  obtain ⟨hwaiting, hsame, hdropped, hanswers⟩ := answered_settle hacc rfl
  unfold next
  rw [hrequest]
  exact ⟨⟨hwaiting, hsame, hdropped, hanswers⟩, rfl⟩

/-- A consumer that takes `n` results has received them, and so many as it asked for unless the
stream came to its end. -/
theorem received_take (h : Accounts total s) (hidle : s.Idle) (hcancelled : s.cancelled = false)
    (n : Nat) :
    (s.take n).2.received = s.received ++ (s.take n).1 ∧ (s.take n).2.cancelled = false ∧
      ((s.take n).1.length = n ∨ none ∈ (s.take n).2.answers) ∧
      ∃ schedule, (s.take n).2 = s.after schedule := by
  induction n generalizing s with
  | zero => exact ⟨(List.append_nil _).symm, hcancelled, .inl rfl, [], rfl⟩
  | succ n ih =>
    obtain ⟨⟨hwaiting, hsame, hdropped, a, hanswers⟩, hlast⟩ := answered_next h hidle hcancelled
    obtain ⟨request, hrequest⟩ := s.exists_after_next
    have hreceived : s.next.2.received = s.received ++ a.toList := by
      rw [received, received, hanswers, List.filterMap_append]
      cases a <;> rfl
    have hnext : s.next = (a, s.next.2) := Prod.ext (by rw [hlast, hanswers]; simp) rfl
    unfold take
    rw [hnext]
    cases a with
    | none =>
      refine ⟨hreceived, hsame.trans hcancelled, .inr ?_, request, hrequest⟩
      rw [hanswers]
      simp
    | some r =>
      -- The rest is taken from the stream behind this request.
      have hacc : Accounts total s.next.2 := hrequest ▸ h.after request
      obtain ⟨hrest, hopen, hlength, schedule, hschedule⟩ :=
        ih hacc ⟨hwaiting, hdropped.trans hidle.dropped⟩ (hsame.trans hcancelled)
      refine ⟨?_, hopen, hlength.imp_left (congrArg (· + 1)), request ++ schedule, ?_⟩
      · rw [hrest, hreceived]
        simp
      · rw [hschedule, hrequest]
        exact List.foldl_append.symm

/-- The results taken by `rest` from a new stream until it ends are those of a scan of its
`source`. -/
theorem rest_ofSource (config : Config) {source : Source} (hquiet : source.Quiet) :
    (ofSource config source).rest.1 = (Lexer.ofSource source).results := by
  have hacc := Accounts.ofSource config source
  unfold rest
  generalize hn : (ofSource config source).conduit.queue.length +
    (ofSource config source).producer.measure + 1 = n
  obtain ⟨hreceived, hcancelled, hend, schedule, hschedule⟩ :=
    received_take hacc ⟨rfl, rfl⟩ rfl n
  rw [show (ofSource config source).received = [] from rfl, List.nil_append] at hreceived
  rw [hschedule] at hreceived hcancelled hend
  rw [← hreceived]
  rcases hend with hlength | hend
  · -- There are fewer results than were asked for.
    have hle := (hacc.after schedule).received.length_le
    have hmost := Lexer.length_results_le (l := .ofSource source) rfl
    have hmeasure : (ofSource config source).producer.measure =
        5 * (Lexer.ofSource source).remaining + 3 := rfl
    rw [hreceived, hlength] at hle
    omega
  · exact ((Undisturbed.ofSource config hquiet).after hacc schedule).complete hend hcancelled

end TokenStream

end LexStream
