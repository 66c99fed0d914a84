import LexStream.Cursor

/-!
# Runs of runes

The one loop of a scan.  A run passes runes one by one while a step function takes them, and
collects what it takes.  The step sees the state it has reached and the next rune, and either takes
the rune, stops at it, or leaves it unread.  Every kind of token that has no fixed length is such a
run with a step of its own.

Main fact: a run never makes its cursor larger (`Run.scan_shrinks`).
-/

namespace LexStream

/-- What a run does with the next rune, when its state is of type `τ`. -/
inductive Verdict (τ : Type) where
  /-- The rune belongs to the run, which goes on in the state `next`. -/
  | take (next : τ)
  /-- The rune ends the run and is passed without belonging to it. -/
  | stop
  /-- The rune ends the run and stays unread. -/
  | leave

/-- How a run ended. -/
inductive Ending where
  /-- It stopped at the rune `r`, which was passed. -/
  | stopped (r : Char)
  /-- The next rune was left unread. -/
  | left
  /-- The input ended. -/
  | exhausted
deriving DecidableEq

/-- A finished run: the runes it has `taken`, the `state` it has reached and how it ended. -/
structure Run (τ : Type) where
  taken : String
  state : τ
  ending : Ending

namespace Run

variable {σ τ : Type} [ByteSource σ]

/-- Goes on with a run that has reached `state` and taken the runes `taken`. -/
def goOn (step : τ → Char → Verdict τ) (state : τ) (taken : String) : Scan σ (Run τ) := fun c =>
  match _h : Cursor.nextRune.run c with
  | (.ok (some r), c') =>
    match step state r with
    | .take next => goOn step next (taken.push r) c'
    | .stop => (.ok ⟨taken, state, .stopped r⟩, c')
    | .leave => (.ok ⟨taken, state, .left⟩, c'.backup r)
  | (.ok none, c') => (.ok ⟨taken, state, .exhausted⟩, c')
  | (.error e, c') => (.error e, c')
termination_by c => c.size
decreasing_by exact Cursor.size_nextRune_lt _h

/-- Runs from the state `init`. -/
def scan (step : τ → Char → Verdict τ) (init : τ) : Scan σ (Run τ) :=
  goOn step init ""

/-- The step that takes the runes of the class `p` and leaves the first other one. -/
def ofClass (p : Char → Bool) (_ : Unit) (r : Char) : Verdict Unit :=
  if p r then .take () else .leave

/-- Takes the longest row of runes of the class `p` that comes next. -/
def scanClass (p : Char → Bool) : Scan σ String := do
  let run ← scan (ofClass p) ()
  return run.taken

/-! ### One rune of a run -/

section OneRune

variable {step : τ → Char → Verdict τ} {state : τ} {taken : String} {c c' : Cursor σ}

/-- Where the rune `r` is passed, `step state r` says how the run goes on. -/
theorem goOn_of_some {r : Char} (h : Cursor.nextRune.run c = (.ok (some r), c')) :
    (goOn step state taken).run c =
      match step state r with
      | .take next => (goOn step next (taken.push r)).run c'
      | .stop => (.ok ⟨taken, state, .stopped r⟩, c')
      | .leave => (.ok ⟨taken, state, .left⟩, c'.backup r) := by
  unfold Scan.run
  rw [goOn]
  split
  next h' => cases h.symm.trans h'; rfl
  next h' => cases h.symm.trans h'
  next h' => cases h.symm.trans h'

theorem goOn_of_none (h : Cursor.nextRune.run c = (.ok none, c')) :
    (goOn step state taken).run c = (.ok ⟨taken, state, .exhausted⟩, c') := by
  unfold Scan.run
  rw [goOn]
  split
  next h' => cases h.symm.trans h'
  next h' => cases h.symm.trans h'; rfl
  next h' => cases h.symm.trans h'

theorem goOn_of_error {e : LexError} (h : Cursor.nextRune.run c = (.error e, c')) :
    (goOn step state taken).run c = (.error e, c') := by
  unfold Scan.run
  rw [goOn]
  split
  next h' => cases h.symm.trans h'
  next h' => cases h.symm.trans h'
  next h' => cases h.symm.trans h'; rfl

end OneRune

/-! ### Runs make their cursors smaller -/

theorem size_goOn_le (step : τ → Char → Verdict τ) (state : τ) (taken : String) (c : Cursor σ) :
    ((goOn step state taken).run c).2.size ≤ c.size := by
  unfold Scan.run
  induction hn : c.size using Nat.strongRecOn generalizing state taken c with
  | ind n ih =>
    subst hn
    have hle := Cursor.size_nextRune_le c
    unfold goOn
    split
    next r c' h =>
      have hlt := Cursor.size_nextRune_lt h
      split
      next next _ => exact Nat.le_trans (ih _ hlt _ _ _ rfl) (Nat.le_of_lt hlt)
      next => exact Nat.le_of_lt hlt
      -- The rune that is left unread is the one that was passed.
      next => rw [Cursor.size_backup]; exact hlt
    next c' h => rw [h] at hle; exact hle
    next e c' h => rw [h] at hle; exact hle

theorem size_goOn_lt {step : τ → Char → Verdict τ} {state : τ} {taken : String} {c c' : Cursor σ}
    {run : Run τ} {r : Char} (h : (goOn step state taken).run c = (.ok run, c'))
    (hr : run.ending = .stopped r) : c'.size < c.size := by
  unfold Scan.run at h
  induction hn : c.size using Nat.strongRecOn generalizing state taken c with
  | ind n ih =>
    subst hn
    unfold goOn at h
    split at h
    next r' c₁ hnext =>
      have hlt := Cursor.size_nextRune_lt hnext
      split at h
      next next _ => exact Nat.lt_trans (ih _ hlt h rfl) hlt
      next => cases h; exact hlt
      next => cases h; cases hr
    next c₁ hnext => cases h; cases hr
    next e c₁ hnext => cases h

/-- A run never makes its cursor larger, whatever its `step`. -/
theorem scan_shrinks (step : τ → Char → Verdict τ) (init : τ) :
    (scan step init : Scan σ (Run τ)).Shrinks :=
  size_goOn_le step init ""

/-- A run that stopped at a rune `r` has made its cursor smaller. -/
theorem size_scan_lt {step : τ → Char → Verdict τ} {init : τ} {c c' : Cursor σ} {run : Run τ}
    {r : Char} (h : (scan step init).run c = (.ok run, c')) (hr : run.ending = .stopped r) :
    c'.size < c.size :=
  size_goOn_lt h hr

theorem scanClass_shrinks (p : Char → Bool) : (scanClass p : Scan σ String).Shrinks :=
  .bind (scan_shrinks _ _) fun _ => .pure _

end Run

end LexStream
