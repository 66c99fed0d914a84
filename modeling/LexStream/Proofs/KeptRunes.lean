import LexStream.Proofs.IndexedCursor
import LexStream.Proofs.Outcomes

/-!
# Runes kept through failures

A decoding that fails takes its own bytes with it and nothing else.  The runes that an operation has
decoded before the failure wait in the lookahead, and the cursor stands where it stood, so that the
operations that follow hand them out in their turn.

`Cursor.Gathers c os c'` says that decodings with the outcomes `os` lead from the cursor `c` to
`c'`, that their runes have joined the lookahead, and that the caret has not moved.

Main facts:

* `Scan.Gathering.peekNth`, `Scan.Gathering.peek2`: a look gathers, up to the first fault;
* `Cursor.gathers_of_nextRune_error`: so does the request for a rune that fails;
* `Cursor.passes_reads`: whatever is answered, the runes that are handed out are the ones passed;
* `Cursor.failures_keep_runes`: no failure loses a rune, and no row of requests does.
-/

namespace LexStream

variable {σ α β : Type} [ByteSource σ]

namespace Utf8

/-- What decodings come to for one who stands at `pos` and stops at the first fault: a value if
there is none, and otherwise the error of that fault. -/
inductive Told (pos : Position) : List (Except Fault (Option Char)) → Except LexError α → Prop
  | value {os : List (Except Fault (Option Char))} (h : Faultless os) (a : α) : Told pos os (.ok a)
  | fault {os : List (Except Fault (Option Char))} (h : Faultless os) (fault : Fault) :
    Told pos (os ++ [.error fault]) (.error (fault.at pos))

namespace Told

variable {pos : Position} {os os' : List (Except Fault (Option Char))} {result : Except LexError α}

theorem faultless {a : α} (h : Told pos os (.ok a)) : Faultless os := by
  cases h with
  | value h => exact h

/-- Outcomes `os` without a fault can stand in front of those that tell the `result`. -/
theorem prepend (hos : Faultless os) (h : Told pos os' result) : Told pos (os ++ os') result := by
  cases h with
  | value h a => exact .value (hos.append h) a
  | fault h fault =>
    rw [← List.append_assoc]
    exact .fault (hos.append h) fault

/-- An error `e` is the same one whatever value was asked for. -/
theorem of_error {e : LexError} (h : Told pos os (.error e : Except LexError α)) :
    Told pos os (.error e : Except LexError β) := by
  cases h with
  | fault h fault => exact .fault h fault

theorem exists_of_error {e : LexError} (h : Told pos os (.error e : Except LexError α)) :
    ∃ before fault, os = before ++ [.error fault] ∧ Faultless before ∧ e = fault.at pos := by
  cases h with
  | fault h fault => exact ⟨_, fault, rfl, h, rfl⟩

end Told

theorem faultless_nil : Faultless [] :=
  fun _ => List.not_mem_nil

theorem faultless_singleton (r : Option Char) : Faultless [.ok r] := by
  intro fault hmem
  cases List.mem_singleton.1 hmem

end Utf8

namespace Cursor

/-! ### Gathering runes -/

/-- Decodings with the outcomes `os` have put their runes behind the ones looked at before, and
nothing else has happened. -/
structure Gathers (c : Cursor σ) (os : List (Except Utf8.Fault (Option Char))) (c' : Cursor σ) :
    Prop where
  trace : Utf8.Trace c.source os c'.source
  caret : c'.caret = c.caret
  lookahead : c'.lookahead = c.lookahead ++ os.flatMap Utf8.given

namespace Gathers

variable {c c₁ c' : Cursor σ} {os os' : List (Except Utf8.Fault (Option Char))}

theorem refl (c : Cursor σ) : c.Gathers [] c :=
  ⟨.refl _, rfl, (List.append_nil _).symm⟩

theorem trans (h : c.Gathers os c₁) (h' : c₁.Gathers os' c') : c.Gathers (os ++ os') c' where
  trace := h.trace.trans h'.trace
  caret := h'.caret.trans h.caret
  lookahead := by rw [h'.lookahead, h.lookahead, List.flatMap_append, List.append_assoc]

/-- A rune `r` that is decoded and kept to be looked at is gathered. -/
theorem of_decode_some {r : Char} (h : decode.run c = (.ok (some r), c')) :
    c.Gathers [.ok (some r)] { c' with lookahead := c'.lookahead ++ [r] } := by
  obtain ⟨s, hd, rfl⟩ := decode_eq_ok h
  exact ⟨.single hd, rfl, rfl⟩

theorem of_decode_none (h : decode.run c = (.ok none, c')) : c.Gathers [.ok none] c' := by
  obtain ⟨s, hd, rfl⟩ := decode_eq_ok h
  exact ⟨.single hd, rfl, (List.append_nil _).symm⟩

theorem of_decode_error {e : LexError} (h : decode.run c = (.error e, c')) :
    ∃ fault, c.Gathers [.error fault] c' ∧ e = fault.at c.position := by
  unfold Scan.run decode at h
  split at h
  next => cases h
  next fault s hs =>
    cases h
    exact ⟨fault, ⟨.single hs, rfl, (List.append_nil _).symm⟩, rfl⟩

/-- Gathering the outcomes `os` passes no rune. -/
theorem passes (h : c.Gathers os c') : c.Passes [] c' where
  stream := ⟨_, h.trace.decodes, h.lookahead.symm⟩
  position := congrArg Caret.toPosition h.caret

end Gathers

end Cursor

/-- The computation `x` gathers the runes that it decodes up to the first fault, and fails with the
error of this one. -/
def Scan.Gathering (x : Scan σ α) : Prop :=
  ∀ c, ∃ os, c.Gathers os (x.run c).2 ∧ Utf8.Told c.position os (x.run c).1

namespace Scan.Gathering

theorem pure (a : α) : Gathering (Pure.pure a : Scan σ α) :=
  fun c => ⟨[], .refl c, .value Utf8.faultless_nil a⟩

/-- What follows a computation gathers on, from where the first one has stopped: `Gathering` goes
over to `x >>= f`. -/
theorem bind {x : Scan σ α} {f : α → Scan σ β} (hx : x.Gathering) (hf : ∀ a, (f a).Gathering) :
    (x >>= f).Gathering := by
  intro c
  obtain ⟨os, hos, htold⟩ := hx c
  match hrun : x.run c with
  | (.error e, c₁) =>
    rw [hrun] at hos htold
    rw [run_bind_error hrun]
    exact ⟨os, hos, htold.of_error⟩
  | (.ok a, c₁) =>
    rw [hrun] at hos htold
    rw [run_bind_ok hrun]
    obtain ⟨os', hos', htold'⟩ := hf a c₁
    have hposition : c₁.position = c.position := congrArg Caret.toPosition hos.caret
    rw [hposition] at htold'
    exact ⟨os ++ os', hos.trans hos', htold'.prepend htold.faultless⟩

theorem lookFurther (k : Nat) : Gathering (Cursor.lookFurther k : Scan σ Unit) := by
  induction k with
  | zero => exact pure ()
  | succ k ih =>
    intro c
    unfold Scan.run Cursor.lookFurther
    split
    next r c₁ hd =>
      have hr := Cursor.Gathers.of_decode_some hd
      obtain ⟨os, hos, htold⟩ := ih { c₁ with lookahead := c₁.lookahead ++ [r] }
      have hposition : c₁.position = c.position := congrArg Caret.toPosition hr.caret
      refine ⟨_, hr.trans hos, Utf8.Told.prepend (Utf8.faultless_singleton (some r)) ?_⟩
      rw [← hposition]
      exact htold
    next c₁ hd =>
      exact ⟨_, .of_decode_none hd, .value (Utf8.faultless_singleton none) ()⟩
    next e c₁ hd =>
      obtain ⟨fault, hgathers, rfl⟩ := Cursor.Gathers.of_decode_error hd
      exact ⟨_, hgathers, .fault Utf8.faultless_nil fault⟩

theorem peekNth (n : Nat) : Gathering (Cursor.peekNth n : Scan σ (Option Char)) := by
  intro c
  obtain ⟨os, hos, htold⟩ := lookFurther (n + 1 - c.lookahead.length) c
  refine ⟨os, ?_⟩
  unfold Scan.run Cursor.peekNth
  split
  next c₁ hl =>
    rw [hl] at hos htold
    exact ⟨hos, .value htold.faultless _⟩
  next e c₁ hl =>
    rw [hl] at hos htold
    exact ⟨hos, htold.of_error⟩

theorem peek2 : Gathering (Cursor.peek2 : Scan σ (Option Char × Option Char)) :=
  bind (peekNth 0) fun _ => bind (peekNth 1) fun _ => pure _

end Scan.Gathering

namespace Cursor

variable {c c' : Cursor σ} {e : LexError}

/-- A `nextRune` that fails has gathered what it decoded, which is none but the `fault`. -/
theorem gathers_of_nextRune_error (h : nextRune.run c = (.error e, c')) :
    ∃ fault, c.Gathers [.error fault] c' ∧ e = fault.at c.position := by
  unfold Scan.run nextRune at h
  split at h
  next => cases h
  next =>
    split at h
    next => cases h
    next => cases h
    next e' c₁ hd =>
      cases h
      exact Gathers.of_decode_error hd

/-! ### Requests for runes -/

namespace Op

/-- Whether an operation asks for runes, to pass one or to look at some; `backup` and `skip` do
not. -/
def reads : Op → Bool
  | .next => true
  | .peek => true
  | .peekNth _ => true
  | .peek2 => true
  | .backup _ => false
  | .skip _ => false

/-- The rune that an operation hands out for good, which only `next` does. -/
def handed : Op → Except LexError Answer → List Char
  | .next, .ok (.rune (some r)) => [r]
  | _, _ => []

end Op

/-- The runes that a row of operations hands out, from the cursor `c` on. -/
def handed (c : Cursor σ) : List Op → List Char
  | [] => []
  | op :: ops => op.handed (op.run.run c).1 ++ (op.run.run c).2.handed ops

/-- The cursor that a row of operations leaves behind, from the cursor `c` on. -/
def afterAll (c : Cursor σ) : List Op → Cursor σ
  | [] => c
  | op :: ops => (op.run.run c).2.afterAll ops

/-- An operation `op` that looks gathers. -/
theorem gathering_of_look {op : Op} (hop : op.reads = true) (hne : op ≠ .next) :
    (op.run : Scan σ Answer).Gathering := by
  cases op with
  | next => exact absurd rfl hne
  | peek => exact .bind (.peekNth 0) fun _ => .pure _
  | peekNth n => exact .bind (.peekNth n) fun _ => .pure _
  | peek2 => exact .bind .peek2 fun _ => .pure _
  | backup r => cases hop
  | skip n => cases hop

/-- An operation `op` that fails has gathered the runes that it decoded before the `fault`. -/
theorem gathers_of_error {op : Op} (hop : op.reads = true) (h : op.run.run c = (.error e, c')) :
    ∃ os fault, c.Gathers (os ++ [.error fault]) c' ∧ Utf8.Faultless os ∧
      e = fault.at c.position := by
  by_cases hne : op = .next
  · subst hne
    obtain ⟨fault, hgathers, he⟩ := gathers_of_nextRune_error (Scan.run_bind_pure_eq_error h)
    exact ⟨[], fault, hgathers, Utf8.faultless_nil, he⟩
  · obtain ⟨os, hgathers, htold⟩ := gathering_of_look hop hne c
    rw [h] at hgathers htold
    obtain ⟨before, fault, rfl, hbefore, he⟩ := htold.exists_of_error
    exact ⟨before, fault, hgathers, hbefore, he⟩

/-- Whatever `next` is answered, it passes what it hands out. -/
theorem passes_next (c : Cursor σ) :
    c.Passes (Op.next.handed (Op.next.run.run c).1) (Op.next.run.run c).2 := by
  match hrun : Op.next.run.run c with
  | (.ok answer, c') =>
    obtain ⟨r?, hnext, rfl⟩ := Scan.run_bind_pure_eq_ok hrun
    cases r? with
    | some r => exact (passes_nextRune hnext).1
    | none => exact (ends_nextRune hnext).1.passes
  | (.error e, c') =>
    obtain ⟨fault, hgathers, -⟩ := gathers_of_nextRune_error (Scan.run_bind_pure_eq_error hrun)
    exact hgathers.passes

/-- Whatever an operation `op` that reads is answered, it passes what it hands out. -/
theorem passes_reads {op : Op} (hop : op.reads = true) (c : Cursor σ) :
    c.Passes (op.handed (op.run.run c).1) (op.run.run c).2 := by
  by_cases hne : op = .next
  · subst hne
    exact passes_next c
  · -- Nothing but `next` hands out a rune.
    have hnone : ∀ answer, op.handed answer = [] := by
      intro answer
      cases op with
      | next => exact absurd rfl hne
      | _ => rfl
    obtain ⟨os, hgathers, -⟩ := gathering_of_look hop hne c
    rw [hnone]
    exact hgathers.passes

/-- A row `ops` of operations that read passes the runes that it hands out. -/
theorem passes_handed {ops : List Op} (hops : ∀ op ∈ ops, op.reads = true) (c : Cursor σ) :
    c.Passes (c.handed ops) (c.afterAll ops) := by
  induction ops generalizing c with
  | nil => exact .refl c
  | cons op ops ih =>
    have hop := passes_reads (hops op List.mem_cons_self) c
    exact hop.trans (ih (fun op' hmem => hops op' (List.mem_cons_of_mem op hmem)) _)

/-- An operation `op` that reads and fails leaves the caret where it is, and in the lookahead,
behind what was there, the runes that it decoded before the `fault`.  Whatever a row `ops` of them
is answered, the runes it hands out and the ones looked at then are the ones looked at before and,
in this order, the runes `ds` decoded meanwhile. -/
theorem failures_keep_runes (c : Cursor σ) :
    (∀ (op : Op) (e : LexError) (c' : Cursor σ), op.reads = true → op.run.run c = (.error e, c') →
      ∃ os fault, Utf8.Trace c.source (os ++ [.error fault]) c'.source ∧ Utf8.Faultless os ∧
        e = fault.at c.position ∧ c'.caret = c.caret ∧
        c'.lookahead = c.lookahead ++ os.flatMap Utf8.given) ∧
    ∀ ops, (∀ op ∈ ops, op.reads = true) →
      (∃ ds, Utf8.Decodes c.source ds (c.afterAll ops).source) ∧
      ∀ ds, Utf8.Decodes c.source ds (c.afterAll ops).source →
        c.handed ops ++ (c.afterAll ops).lookahead = c.lookahead ++ ds := by
  constructor
  · intro op e c' hop h
    obtain ⟨os, fault, hgathers, hos, he⟩ := gathers_of_error hop h
    refine ⟨os, fault, hgathers.trace, hos, he, hgathers.caret, ?_⟩
    rw [hgathers.lookahead, List.flatMap_append]
    -- The fault itself gives no rune.
    show _ ++ (_ ++ []) = _
    rw [List.append_nil]
  · intro ops hops
    obtain ⟨ds, hds, hstream⟩ := (passes_handed hops c).stream
    refine ⟨⟨ds, hds⟩, fun ds' hds' => ?_⟩
    rw [hds'.unique hds, hstream]

-- The look meets a malformed byte behind the first rune, which is handed out all the same.
example : ({ source := [.byte 0x61, .byte 0xFF, .byte 0x62] } : Cursor (List Signal)).handed
    [.peekNth 2, .next, .next] = ['a', 'b'] := by decide

end Cursor

end LexStream
