import LexStream.Finding
import LexStream.Rune
import LexStream.Run

/-!
# Scanning literals

The literals that need an end.  A string ends at the first double quote that no backslash precedes
immediately, a template at the next backtick, and a structured literal, a tag of letters with a
payload between brackets, where its brackets balance.  None of them looks inside: the text is the
spelling, sentinels and brackets included.
-/

namespace LexStream.Scanner

/-- The rune `before` the next one inside a string stops the string at a quote, unless it is a
backslash. -/
def stringStep (before : Option Char) (r : Char) : Verdict (Option Char) :=
  if r = '"' && before != some '\\' then .stop else .take (some r)

/-- A template stops at a backtick, whatever precedes it; the step needs no state. -/
def templateStep (_ : Unit) (r : Char) : Verdict Unit :=
  if r = '\x60' then .stop else .take ()

/-- A tag takes letters, runes with `Rune.isAlphabetic`, and stops at the first other rune. -/
def tagStep (_ : Unit) (r : Char) : Verdict Unit :=
  if Rune.isAlphabetic r then .take () else .stop

/-- A payload counts in `depth` the brackets that are open and stops at the `closer` of the last of
them.  Where `opener` and `closer` are the same rune, it closes. -/
def payloadStep (opener closer : Char) (depth : Nat) (r : Char) : Verdict Nat :=
  if r = closer then if depth = 1 then .stop else .take (depth - 1)
  else if r = opener then .take (depth + 1)
  else .take depth

variable {σ : Type} [ByteSource σ]

/-- Scans a run that needs an end, and gives what it took and the rune that stopped it.  Without a
rune that stops it, the literal that began at `start` is `unterminated`. -/
def untilStopped {τ : Type} (kind : LiteralKind) (start : Position) (step : τ → Char → Verdict τ)
    (init : τ) : Scan σ (String × Char) := do
  let run ← Run.scan step init
  match run.ending with
  | .stopped r => return (run.taken, r)
  | _ => Scan.fail (.unterminated kind start)

/-- Scans the string whose first quote stood at `start` and is passed. -/
def string (start : Position) : Scan σ Finding := do
  let (inside, quote) ← untilStopped .string start stringStep none
  return .ofToken start .string ("\"" ++ inside.push quote)

/-- Scans the template whose first backtick stood at `start` and is passed. -/
def template (start : Position) : Scan σ Finding := do
  let (inside, tick) ← untilStopped .template start templateStep ()
  return .ofToken start .template ("\x60" ++ inside.push tick)

/-- Scans the structured literal whose number sign stood at `start` and is passed: a tag, a rune
with a `Rune.closer?`, and the payload. -/
def structured (start : Position) : Scan σ Finding := do
  let (tag, opener) ← untilStopped .structured start tagStep ()
  match Rune.closer? opener with
  | some closer =>
    let (payload, last) ← untilStopped .structured start (payloadStep opener closer) 1
    return .ofToken start .structured ("#" ++ tag.push opener ++ payload.push last)
  | none => Scan.fail (.missingDelimiter start opener)

theorem untilStopped_shrinks {τ : Type} (kind : LiteralKind) (start : Position)
    (step : τ → Char → Verdict τ) (init : τ) :
    (untilStopped kind start step init : Scan σ (String × Char)).Shrinks := by
  refine .bind (Run.scan_shrinks _ _) fun run => ?_
  split
  · exact .pure _
  · exact .fail _

theorem string_shrinks (start : Position) : (string start : Scan σ Finding).Shrinks :=
  .bind (untilStopped_shrinks _ _ _ _) fun _ => .pure _

theorem template_shrinks (start : Position) : (template start : Scan σ Finding).Shrinks :=
  .bind (untilStopped_shrinks _ _ _ _) fun _ => .pure _

theorem structured_shrinks (start : Position) : (structured start : Scan σ Finding).Shrinks := by
  refine .bind (untilStopped_shrinks _ _ _ _) fun tag => ?_
  dsimp only
  split
  · exact .bind (untilStopped_shrinks _ _ _ _) fun _ => .pure _
  · exact .fail _

end LexStream.Scanner
