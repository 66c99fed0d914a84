import LexStream.Conduit
import LexStream.Lexer
import LexStream.Log

/-!
# Producers

The side of a conduit that scans.  A producer asks whether to stop, scans an item, delivers it, and
begins again, until the end of the input or a fatal error is delivered or the consumer no longer
listens.  Each of these is a step of its own, so what a consumer does in between is part of the
model.

Main fact: every step brings a producer closer to its return (`Producer.measure_step?_lt`), so a
producer that is never made to wait returns (`Producer.run`).
-/

namespace LexStream

/-- How a producer returned, for the stage `returned`. -/
inductive Return where
  /-- The last result was delivered. -/
  | finished
  /-- The consumer no longer listens. -/
  | cancelled
deriving DecidableEq

/-- What a producer does next, by `Producer.step?`. -/
inductive Stage where
  /-- It asks by `Conduit.poll` whether to stop. -/
  | polling
  /-- It scans an item by `Lexer.step`. -/
  | scanning
  /-- It delivers the result `r` it has, by `Conduit.emit`. -/
  | delivering (r : LexResult)
  /-- Nothing; it has returned. -/
  | returned (how : Return)
deriving DecidableEq

/-- Whether nothing follows a result: it is `eof` or a fatal error. -/
def isLast : LexResult → Bool
  | .ok item => item.token = .eof
  | .error _ => true

/-- A scan that delivers its results to a consumer, and the `log` it has written. -/
structure Producer where
  lexer : Lexer Source
  stage : Stage := .polling
  log : List Record := [.scanStarted]

namespace Producer

/-- A producer in front of the source `s`. -/
def ofSource (s : Source) : Producer :=
  { lexer := .ofSource s }

/-- Returns as `cancelled`, since the consumer no longer listens, and gives the delivering end
up. -/
def quit (p : Producer) (c : Conduit) : Producer × Conduit :=
  ({ p with
      stage := .returned .cancelled
      log := p.log ++ [.scanCancelled p.lexer.position] }, c.dropEmitter)

/-- Returns as `finished`, since the last result is delivered, and gives the delivering end up. -/
def finish (p : Producer) (c : Conduit) : Producer × Conduit :=
  ({ p with
      stage := .returned .finished
      log := p.log ++ [.scanFinished p.lexer.position p.lexer.produced] }, c.dropEmitter)

/-- Goes on after the result `r` was delivered. -/
def delivered (p : Producer) (r : LexResult) (c : Conduit) : Producer × Conduit :=
  if isLast r then p.finish c else ({ p with stage := .polling }, c)

/-- Scans an item.  A reader that asks for a stop meanwhile, by a `ReadEvent.cancel`, does so
through a handle of `c`, if there is one. -/
def scan (p : Producer) (c : Conduit) : Producer × Conduit :=
  let (found, lexer) := p.lexer.step
  let asked := p.lexer.cursor.source.cancels < lexer.cursor.source.cancels
  ({ lexer
     stage := .delivering (found.map Finding.item)
     log := p.log ++ Record.ofFinding found }, if asked then c.cancel else c)

/-- Makes a step as its `stage` says.  There is none for a producer that has `returned`, and none
for one that has to wait for a place in the queue. -/
def step? (preferred : Arm) (p : Producer) (c : Conduit) : Option (Producer × Conduit) :=
  match p.stage with
  | .polling =>
    match c.poll with
    | (true, c') => some (p.quit c')
    | (false, c') => some ({ p with stage := .scanning }, c')
  | .scanning => some (p.scan c)
  | .delivering r =>
    match c.emit r preferred with
    | (.accepted, c') => some (p.delivered r c')
    | (.refused, c') => some (p.quit c')
    | (.blocked, _) => none
  | .returned _ => none

/-! ### Every step leads towards the return -/

/-- How far a stage is from the next item, in steps. -/
def Stage.rank : Stage → Nat
  | .returned _ => 0
  | .delivering r => if isLast r then 1 else 4
  | .scanning => 2
  | .polling => 3

/-- How far a producer is from its return: what its `lexer` can still do counts five for each
item. -/
def measure (p : Producer) : Nat :=
  5 * p.lexer.remaining + Stage.rank p.stage

theorem measure_delivered_lt (p : Producer) (r : LexResult) (c : Conduit)
    (h : p.stage = .delivering r) : (p.delivered r c).1.measure < p.measure := by
  unfold delivered
  split
  next hr => simp [finish, measure, Stage.rank, h, hr]
  next hr => simp [measure, Stage.rank, h, hr]

theorem measure_scan_lt (p : Producer) (c : Conduit) (h : p.stage = .scanning) :
    (p.scan c).1.measure < p.measure := by
  by_cases hf : p.lexer.finished = true
  · simp [scan, measure, Stage.rank, h, Lexer.step, hf, Except.map, Finding.ofToken, isLast]
  · -- An item is worth five: the stages around it take at most four.
    have hlt := Lexer.remaining_step_lt (eq_false_of_ne_true hf)
    have hrank : Stage.rank (p.scan c).1.stage ≤ 4 := by
      simp only [scan, Stage.rank]
      split <;> omega
    have hm : p.measure = 5 * p.lexer.remaining + 2 := by simp [measure, h, Stage.rank]
    rw [hm]
    show 5 * p.lexer.step.2.remaining + Stage.rank (p.scan c).1.stage < _
    omega

/-- Every `step?` brings a producer closer to its return. -/
theorem measure_step?_lt {preferred : Arm} {p p' : Producer} {c c' : Conduit}
    (h : p.step? preferred c = some (p', c')) : p'.measure < p.measure := by
  unfold step? at h
  split at h
  next hs =>
    split at h
    next => cases h; simp [measure, Stage.rank, hs]
    next => cases h; simp [measure, Stage.rank, hs]
  next hs =>
    have := p.measure_scan_lt c hs
    rw [Option.some.inj h] at this
    exact this
  next r hs =>
    split at h
    next c₁ _ =>
      have := p.measure_delivered_lt r c₁ hs
      rw [Option.some.inj h] at this
      exact this
    next =>
      cases h
      simp only [measure, hs, Stage.rank]
      split <;> omega
    next => cases h
  next => cases h

/-- Makes steps until there is none, with nobody at the other end of the conduit `c` meanwhile. -/
def run (preferred : Arm) (p : Producer) (c : Conduit) : Producer × Conduit :=
  match _step : p.step? preferred c with
  | some (p', c') => run preferred p' c'
  | none => (p, c)
termination_by p.measure
decreasing_by exact measure_step?_lt _step

end Producer

end LexStream
