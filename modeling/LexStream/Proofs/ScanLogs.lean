import LexStream.Proofs.Cancellation
import LexStream.Proofs.Progress
import LexStream.Proofs.ResultBounds

/-!
# The log of a scan

A scan writes down that it has begun, what it produces, and how it has come to its return.  Each
result has a report of its own: an item is found, an illegal one with the remark that says why in
front of it, and an error halts the scan.  The record that closes the log is written by the step in
which the producer returns.

`Producer.Accounts l n accepted p` says that the producer `p` has made `n` requests to the lexer
`l`, that its log has a report for each of the answers, and that the emitter has accepted the
results `accepted`, which are all answers but one that may be held or dropped.

Main facts:

* `Lexer.reports_step`: what is written behind a request is the report of its answer;
* `Exchange.Effect.accounts`: every turn keeps the account;
* `Exchange.accounts_after`: so does every row of turns;
* `Exchange.log_after`: what the log says of the results, and what it says at the end.
-/

namespace LexStream

/-! ### Reports -/

namespace Record

/-- What a scan writes when it produces a result: an item with its remark before it, or the
error. -/
inductive Reports : LexResult → List Record → Prop
  | item {item : Item} (h : item.token ≠ .illegal) : Reports (.ok item) [.found item]
  | illegal {item : Item} (h : item.token = .illegal) (remark : Remark) :
    Reports (.ok item) [.remarked remark, .found item]
  | error (e : LexError) : Reports (.error e) [.halted e]

/-- Whether a `record` says that an item was `found`. -/
def isTrace (record : Record) : Bool :=
  record.level = .trace

variable {r : LexResult} {results : List LexResult} {records : List Record}
  {reports : List (List Record)}

/-- An item is traced once, and an error is not: `isTrace` counts the items. -/
theorem Reports.countP_isTrace (h : Reports r records) :
    records.countP isTrace = [r].countP Except.isOk := by
  cases h <;> rfl

/-- No report is a record of the scan itself, which are those of the level `debug`. -/
theorem Reports.level_ne (h : Reports r records) {record : Record} (hmem : record ∈ records) :
    record.level ≠ .debug := by
  cases h with
  | item =>
    obtain rfl := List.mem_singleton.1 hmem
    exact nofun
  | illegal =>
    rcases List.mem_cons.1 hmem with rfl | hmem
    · exact nofun
    · obtain rfl := List.mem_singleton.1 hmem
      exact nofun
  | error =>
    obtain rfl := List.mem_singleton.1 hmem
    exact nofun

/-- The `reports` trace as many items as there are among the `results`. -/
theorem countP_isTrace_flatten (h : List.Forall₂ Reports results reports) :
    reports.flatten.countP isTrace = results.countP Except.isOk := by
  induction h with
  | nil => rfl
  | @cons r records results reports hr _ ih =>
    rw [List.flatten_cons, List.countP_append, hr.countP_isTrace, ih, ← List.countP_append]
    rfl

theorem level_ne_of_mem_flatten (h : List.Forall₂ Reports results reports) {record : Record}
    (hmem : record ∈ reports.flatten) : record.level ≠ .debug := by
  induction h with
  | nil => cases hmem
  | cons hr _ ih =>
    rw [List.flatten_cons] at hmem
    rcases List.mem_append.1 hmem with hmem | hmem
    · exact hr.level_ne hmem
    · exact ih hmem

end Record

/-- What is `Found` has a remark just where it is illegal. -/
theorem Grammar.Found.reports {start : Position} {rs : List Char} {found : Finding}
    (h : Found start rs found) :
    Record.Reports (.ok found.item) (Record.ofFinding (.ok found)) := by
  cases h with
  | lexeme h => exact .item h.token_ne.2
  | repeatedMark => exact .illegal rfl _
  | stray => exact .illegal rfl _

namespace Lexer

variable {σ : Type} [ByteSource σ] {l : Lexer σ}

/-- What is written behind a request, by `Record.ofFinding`, is the report of its answer. -/
theorem reports_step (hopen : l.finished = false) (hline : 1 ≤ l.position.line) :
    Record.Reports l.nextItem.1 (Record.ofFinding l.step.1) := by
  match hitem : Scanner.item.run l.cursor with
  | (.error e, c) =>
    have hstep : l.step.1 = .error e := by rw [step, hopen, hitem]; rfl
    rw [nextItem_of_error hopen hitem, hstep]
    exact .error e
  | (.ok found, c) =>
    have hstep : l.step.1 = .ok found := by rw [step, hopen, hitem]; rfl
    rw [nextItem_of_ok hopen hitem, hstep]
    obtain ⟨bs, c₁, -, -, hstands⟩ := Scanner.finds_item hline hitem
    cases hstands with
    | eof _ _ hfound =>
      subst hfound
      exact .item (by simp [Finding.ofToken])
    | found hfinds =>
      obtain ⟨rs, -, hfound⟩ := hfinds
      exact hfound.reports

/-- An open lexer counts by `produced` the items that it gives. -/
theorem produced_nextItem (hopen : l.finished = false) :
    l.nextItem.2.produced = l.produced + [l.nextItem.1].countP Except.isOk := by
  match hitem : Scanner.item.run l.cursor with
  | (.error e, c) =>
    rw [nextItem_of_error hopen hitem]
    rfl
  | (.ok found, c) =>
    rw [nextItem_of_ok hopen hitem]
    rfl

theorem answers_succ (l : Lexer σ) (k : Nat) :
    (l.requests (k + 1)).1 = (l.requests k).1 ++ [(l.requests k).2.nextItem.1] := by
  induction k generalizing l with
  | zero => rfl
  | succ k ih => exact congrArg (l.nextItem.1 :: ·) (ih l.nextItem.2)

theorem Ordered.requests (h : l.Ordered) (k : Nat) : (l.requests k).2.Ordered := by
  induction k with
  | zero => exact h
  | succ k ih =>
    rw [requests_succ]
    exact ih.nextItem

end Lexer

/-! ### Accounts -/

/-- The record with which a producer in this stage, with the lexer `l`, has closed its log. -/
def Stage.closing (l : Lexer Source) : Stage → List Record
  | .polling => []
  | .scanning => []
  | .delivering _ => []
  | .returned .finished => [.scanFinished l.position l.produced]
  | .returned .cancelled => [.scanCancelled l.position]

theorem Stage.finished_mem_closing_iff {l : Lexer Source} {stage : Stage} {pos : Position}
    {items : Nat} : .scanFinished pos items ∈ stage.closing l ↔
      stage = .returned .finished ∧ pos = l.position ∧ items = l.produced := by
  cases stage with
  | returned how => cases how <;> simp [closing]
  | _ => simp [closing]

/-- What a producer in this stage has produced, where the results `accepted` were accepted: these,
and one that it still has to deliver or could not deliver. -/
def Stage.Holds (produced accepted : List LexResult) : Stage → Prop
  | .polling => accepted = produced
  | .scanning => accepted = produced
  | .delivering r => accepted ++ [r] = produced
  | .returned .finished => accepted = produced
  | .returned .cancelled => accepted = produced ∨ ∃ r, accepted ++ [r] = produced

namespace Producer

/-- The producer has made `n` requests to the lexer `l`, reported their answers, and had `accepted`
accepted. -/
structure Accounts (l : Lexer Source) (n : Nat) (accepted : List LexResult) (p : Producer) :
    Prop where
  lexer : p.lexer = (l.requests n).2
  produced : p.lexer.produced = (l.requests n).1.countP Except.isOk
  log : ∃ reports, List.Forall₂ Record.Reports (l.requests n).1 reports ∧
    p.log = .scanStarted :: (reports.flatten ++ p.stage.closing p.lexer)
  holds : p.stage.Holds (l.requests n).1 accepted
  ended : p.stage = .returned .finished ↔ ∃ r ∈ accepted, isLast r = true

namespace Accounts

variable {l : Lexer Source} {n : Nat} {accepted : List LexResult} {p : Producer}

theorem start (s : Source) : Accounts (.ofSource s) 0 [] (.ofSource s) where
  lexer := rfl
  produced := rfl
  log := ⟨[], .nil, rfl⟩
  holds := rfl
  ended := iff_of_false nofun (by simp)

theorem not_last (h : p.Accounts l n accepted) (hstage : p.stage ≠ .returned .finished) :
    ¬∃ r ∈ accepted, isLast r = true :=
  fun hlast => hstage (h.ended.2 hlast)

theorem poll (h : p.Accounts l n accepted) (hstage : p.stage = .polling) :
    Accounts l n accepted { p with stage := .scanning } where
  lexer := h.lexer
  produced := h.produced
  log := by
    have hlog := h.log
    rwa [hstage] at hlog
  holds := by
    have hholds := h.holds
    rwa [hstage] at hholds
  ended := iff_of_false nofun (h.not_last (by simp [hstage]))

/-- A scan makes one request more than `n` and reports its answer, which is held then. -/
theorem scan (h : p.Accounts l n accepted) (hl : l.Ordered) (hstage : p.stage = .scanning)
    (hopen : p.lexer.finished = false) (c : Conduit) :
    (p.scan c).1.Accounts l (n + 1) accepted where
  lexer := by
    rw [Lexer.requests_succ, ← h.lexer]
    rfl
  produced := by
    rw [Lexer.answers_succ, ← h.lexer, List.countP_append, ← h.produced]
    exact Lexer.produced_nextItem hopen
  log := by
    obtain ⟨reports, hreports, hlog⟩ := h.log
    have hline : 1 ≤ p.lexer.position.line := by
      have hordered := hl.requests n
      rw [← h.lexer] at hordered
      exact hordered.one_le_line hopen
    rw [Lexer.answers_succ, ← h.lexer]
    refine ⟨reports ++ [Record.ofFinding p.lexer.step.1],
      List.rel_append hreports (.cons (Lexer.reports_step hopen hline) .nil), ?_⟩
    show p.log ++ Record.ofFinding p.lexer.step.1 = _
    rw [hlog, hstage]
    simp [Stage.closing, Producer.scan]
  holds := by
    have hholds := h.holds
    rw [hstage] at hholds
    have haccepted : accepted = (l.requests n).1 := hholds
    rw [Lexer.answers_succ, ← h.lexer, haccepted]
    rfl
  ended := iff_of_false nofun (h.not_last (by simp [hstage]))

/-- With a last result `r` that is accepted a producer finishes, and with no other. -/
theorem delivered {r : LexResult} (h : p.Accounts l n accepted) (hstage : p.stage = .delivering r)
    (c : Conduit) : (p.delivered r c).1.Accounts l n (accepted ++ [r]) := by
  have hholds := h.holds
  rw [hstage] at hholds
  have hproduced : accepted ++ [r] = (l.requests n).1 := hholds
  obtain ⟨reports, hreports, hlog⟩ := h.log
  rw [hstage] at hlog
  have hlog : p.log = .scanStarted :: (reports.flatten ++ []) := hlog
  unfold Producer.delivered
  split_ifs with hlast
  · refine ⟨h.lexer, h.produced, ⟨reports, hreports, ?_⟩, hproduced, iff_of_true rfl ?_⟩
    · show p.log ++ _ = _
      rw [hlog, List.append_nil]
      rfl
    · exact ⟨r, List.mem_append_right accepted List.mem_cons_self, hlast⟩
  · refine ⟨h.lexer, h.produced, ⟨reports, hreports, hlog⟩, hproduced, iff_of_false nofun ?_⟩
    rintro ⟨r', hmem, hlast'⟩
    rcases List.mem_append.1 hmem with hmem | hmem
    · exact h.not_last (by simp [hstage]) ⟨r', hmem, hlast'⟩
    · rw [List.mem_singleton.1 hmem] at hlast'
      exact hlast hlast'

/-- A producer that quits may drop the result that it holds: what was `accepted` stays. -/
theorem quit (h : p.Accounts l n accepted) (hstage : ∀ how, p.stage ≠ .returned how)
    (c : Conduit) : (p.quit c).1.Accounts l n accepted where
  lexer := h.lexer
  produced := h.produced
  log := by
    obtain ⟨reports, hreports, hlog⟩ := h.log
    have hopen : p.stage.closing p.lexer = [] := by
      cases hp : p.stage with
      | returned how => exact absurd hp (hstage how)
      | _ => rfl
    rw [hopen, List.append_nil] at hlog
    refine ⟨reports, hreports, ?_⟩
    show p.log ++ _ = _
    rw [hlog]
    rfl
  holds := by
    have hholds := h.holds
    cases hp : p.stage with
    | polling => rw [hp] at hholds; exact .inl hholds
    | scanning => rw [hp] at hholds; exact .inl hholds
    | delivering r => rw [hp] at hholds; exact .inr ⟨r, hholds⟩
    | returned how => exact absurd hp (hstage how)
  ended := iff_of_false nofun (h.not_last (hstage .finished))

/-- The log says `scanFinished` just where the producer has finished, with the count `items` of its
lexer. -/
theorem finished_mem_iff (h : p.Accounts l n accepted) {pos : Position} {items : Nat} :
    .scanFinished pos items ∈ p.log ↔
      p.stage = .returned .finished ∧ pos = p.lexer.position ∧ items = p.lexer.produced := by
  obtain ⟨reports, hreports, hlog⟩ := h.log
  have hstarted : Record.scanFinished pos items ≠ .scanStarted := nofun
  have hreported : Record.scanFinished pos items ∉ reports.flatten :=
    fun hmem => Record.level_ne_of_mem_flatten hreports hmem rfl
  rw [hlog, List.mem_cons, List.mem_append, or_iff_right hstarted, or_iff_right hreported,
    Stage.finished_mem_closing_iff]

/-- The log traces every item that was `produced`, and nothing else. -/
theorem countP_log (h : p.Accounts l n accepted) :
    p.log.countP Record.isTrace = p.lexer.produced := by
  obtain ⟨reports, hreports, hlog⟩ := h.log
  have hclosing : (p.stage.closing p.lexer).countP Record.isTrace = 0 := by
    cases p.stage with
    | returned how => cases how <;> rfl
    | _ => rfl
  have hstarted : Record.isTrace .scanStarted = false := rfl
  rw [hlog, List.countP_cons_of_neg (by simp [hstarted]), List.countP_append, hclosing,
    Record.countP_isTrace_flatten hreports, h.produced]
  rfl

end Accounts

end Producer

/-! ### Turns -/

namespace Exchange

variable {x x' : Exchange} {t : Turn} {l : Lexer Source} {n : Nat} {accepted : List LexResult}

/-- Every turn `t` keeps the account. -/
theorem Effect.accounts (he : x.Effect t x') (hx : x.InStep) (hl : l.Ordered)
    (h : x.producer.Accounts l n accepted) :
    x'.producer.Accounts l (n + (x.begins t).toNat) (accepted ++ (x.delivers? t).toList) := by
  cases he with
  | @poll preferred hstage =>
    have hbegins : x.begins (.produce preferred) = false := by simp [begins, hstage]
    have hdelivers : x.delivers? (.produce preferred) = none := by simp [delivers?, hstage]
    rw [hbegins, hdelivers, Option.toList_none, List.append_nil]
    exact h.poll hstage
  | @scan preferred hstage =>
    have hbegins : x.begins (.produce preferred) = true := by
      simp [begins, hstage, Turn.isProduce]
    have hdelivers : x.delivers? (.produce preferred) = none := by simp [delivers?, hstage]
    have hopen : x.producer.lexer.finished = false := by
      have hfits := hx.ready.fits
      rwa [hstage] at hfits
    rw [hbegins, hdelivers, Option.toList_none, List.append_nil]
    exact h.scan hl hstage hopen x.conduit
  | deliver hstage _ hdelivers =>
    have hbegins : x.begins t = false := by simp [begins, hstage]
    rw [hbegins, hdelivers]
    exact h.delivered hstage _
  | @quit preferred pending hreturned hstage hwhy hdelivers =>
    have hbegins : x.begins (.produce preferred) = false := by simp [begins, hstage]
    rw [hbegins, hdelivers, Option.toList_none, List.append_nil]
    exact h.quit (fun how hhow => hreturned ⟨how, hhow⟩) { x.conduit with pending, latched := true }
  | hold ht =>
    obtain ⟨hbegins, hdelivers⟩ := x.idle_of_steps_eq_zero (steps_eq_zero_of_hold ht)
    rw [hbegins, hdelivers, Option.toList_none, List.append_nil]
    exact h
  | cancel =>
    rw [show (x.delivers? .cancel).toList = [] from rfl, List.append_nil]
    exact h
  | dropReceiver =>
    rw [show (x.delivers? .dropReceiver).toList = [] from rfl, List.append_nil]
    exact h

theorem accounts_next (hx : x.InStep) (hl : l.Ordered) (h : x.producer.Accounts l n accepted)
    (t : Turn) :
    (x.next t).producer.Accounts l (n + (x.begins t).toNat)
      (accepted ++ (x.delivers? t).toList) := by
  unfold Exchange.next
  cases hstep : x.step? t with
  | none =>
    obtain ⟨hbegins, hdelivers⟩ := idle_of_step?_eq_none hstep
    rw [hbegins, hdelivers, Option.toList_none, List.append_nil]
    exact h
  | some x' => exact (effect_of_step? hx.ready hstep).accounts hx hl h

/-- A row of `turns` keeps the account. -/
theorem accounts_after (hx : x.InStep) (hl : l.Ordered) (h : x.producer.Accounts l n accepted)
    (turns : List Turn) :
    (x.after turns).producer.Accounts l (n + x.begun turns) (accepted ++ x.delivered turns) := by
  induction turns generalizing x n accepted with
  | nil =>
    show x.producer.Accounts l n (accepted ++ [])
    rwa [List.append_nil]
  | cons t turns ih =>
    have hrest := ih (hx.next t) (accounts_next hx hl h t)
    rw [Nat.add_assoc, List.append_assoc] at hrest
    exact hrest

/-- Whatever the reader of the `source` gives, however much the queue holds, and whatever happens at
the other end in the `turns`: the log of a scan says first that it has begun, then reports the
answers to its requests one after the other, and is closed by one record just where the producer has
returned, which says where the cursor stands then.  It says `scanFinished` just where a last result
was accepted, and counts the items then: they are the ones that the log traces, and the ones that
were accepted. -/
theorem log_after (capacity : Option Nat) (source : Source) (turns : List Turn) :
    let start := ofSource capacity source
    let p := (start.after turns).producer
    let asked := (Lexer.ofSource source).requests (start.begun turns)
    let accepted := start.delivered turns
    (∃ reports closing, p.log = .scanStarted :: (reports.flatten ++ closing) ∧
        List.Forall₂ Record.Reports asked.1 reports ∧
        (¬(start.after turns).Returned → closing = []) ∧
        ((start.after turns).Returned → closing = [.scanCancelled p.lexer.position] ∨
          ∃ items, closing = [.scanFinished p.lexer.position items])) ∧
      p.lexer = asked.2 ∧
      ((∃ pos items, .scanFinished pos items ∈ p.log) ↔ ∃ r ∈ accepted, isLast r = true) ∧
      ∀ pos items, .scanFinished pos items ∈ p.log →
        items = p.log.countP (·.level = .trace) ∧ items = accepted.countP Except.isOk := by
  intro start p asked accepted
  have h : p.Accounts (.ofSource source) (0 + start.begun turns) ([] ++ accepted) :=
    accounts_after (inStep_ofSource capacity source) (.ofSource source) (.start source) turns
  rw [Nat.zero_add, List.nil_append] at h
  obtain ⟨reports, hreports, hlog⟩ := h.log
  refine ⟨⟨reports, _, hlog, hreports, fun hopen => ?_, ?_⟩, h.lexer, ?_, fun pos items hmem => ?_⟩
  · cases hstage : p.stage with
    | returned how => exact absurd ⟨how, hstage⟩ hopen
    | _ => rfl
  · rintro ⟨how, hstage⟩
    have hstage : p.stage = .returned how := hstage
    rw [hstage]
    cases how with
    | finished => exact .inr ⟨_, rfl⟩
    | cancelled => exact .inl rfl
  · rw [← h.ended]
    constructor
    · rintro ⟨pos, items, hmem⟩
      exact (h.finished_mem_iff.1 hmem).1
    · intro hstage
      exact ⟨_, _, h.finished_mem_iff.2 ⟨hstage, rfl, rfl⟩⟩
  · obtain ⟨hstage, -, rfl⟩ := h.finished_mem_iff.1 hmem
    have hholds := h.holds
    rw [hstage] at hholds
    have haccepted : accepted = asked.1 := hholds
    refine ⟨h.countP_log.symm, ?_⟩
    rw [haccepted]
    exact h.produced

-- A rune that starts no token, and the end of the input.
example : ((ofSource none (.ofBytes [0x40])).after
    (List.replicate 6 (.produce .send))).producer.log =
    [.scanStarted, .remarked (.strayRune ⟨1, 0⟩ '@'), .found ⟨⟨1, 0⟩, .illegal, "@"⟩,
      .found ⟨⟨1, 1⟩, .eof, ""⟩, .scanFinished ⟨1, 1⟩ 2] := by
  decide +kernel

end Exchange

end LexStream
