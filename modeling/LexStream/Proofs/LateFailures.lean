import LexStream.Proofs.BrokenTexts
import LexStream.Proofs.Restart
import LexStream.Proofs.Tiling

/-!
# Late failures

A reader that delivers a text and then fails, or goes on with bytes that are not UTF-8, spoils
nothing of what came before.  Its results are those of the text up to a fatal error or the end.  A
missing delimiter is reported all the same; instead of a missing end, or of the end of the text,
there is the failure, and in front of it at most the last item is gone.

The two scans go in step, item by item.  One step is `Scan.Robust.item`, and `Lexer.CutShort` says
how the results differ when the scans part.

Main facts:

* `Breach.exists_fault`: what breaks a text off does not decode, and is reported as what it is;
* `Lexer.cutShort_results`: how the results of two scans in step differ;
* `Lexer.results_of_breach`: the results where a text breaks off, by the end of its own results.
-/

namespace LexStream

/-! ### Breaches -/

/-- What breaks a text off. -/
inductive Breach where
  /-- The `bytes`, of which no well-formed sequence comes first, and then the end. -/
  | malformed (bytes : List UInt8) (ne_nil : bytes ≠ []) (noneStarts : Utf8.NoneStarts bytes)
  /-- A read that fails with `failure`. -/
  | failed (failure : ReadFailure)

namespace Breach

/-- The signals `tail` start with what breaks a text off. -/
def Starts : Breach → List Signal → Prop
  | .malformed bytes _ _, tail => ∃ behind, tail = bytes.map .byte ++ behind ∧
      ∀ signal ∈ behind.head?, signal = .ended
  | .failed failure, tail => ∃ behind, tail = .failed failure :: behind

/-- The error `e` reports what breaks a text off, of malformed bytes the first ones. -/
def Reported : Breach → LexError → Prop
  | .malformed bytes _ _, e => ∃ pos bad, e = .invalidUtf8 pos bad ∧ bad ≠ [] ∧ bad <+: bytes
  | .failed failure, e => ∃ pos, e = .readFailed pos failure

/-- Bytes of which no well-formed sequence comes first (`Utf8.NoneStarts`) do not decode. -/
theorem exists_malformed {bytes : List UInt8} (hne : bytes ≠ []) (hnone : Utf8.NoneStarts bytes)
    {behind : List Signal} (hbehind : ∀ signal ∈ behind.head?, signal = .ended) :
    ∃ bad, Utf8.StartsFaulty (bytes.map .byte ++ behind) (.malformed bad) ∧ bad ≠ [] ∧
      bad <+: bytes := by
  obtain ⟨lead, bytes, rfl⟩ := List.exists_cons_of_ne_nil hne
  have hread : ByteSource.read ((lead :: bytes).map Signal.byte ++ behind) =
      (.byte lead, bytes.map Signal.byte ++ behind) := rfl
  unfold Utf8.StartsFaulty
  rw [Utf8.decode, hread]
  dsimp only
  cases hcount : Utf8.tailCount? lead with
  | none => exact ⟨[lead], ⟨_, rfl⟩, by simp, by simp⟩
  | some n =>
    dsimp only
    rcases Nat.lt_or_ge bytes.length n with hshort | hlong
    · obtain ⟨rest, htails⟩ := Utf8.readTails_short hshort [lead] hbehind
      rw [htails]
      exact ⟨lead :: bytes, ⟨rest, rfl⟩, by simp, List.prefix_refl _⟩
    · -- Enough bytes follow, but they make up no rune.
      obtain ⟨tails, rest, rfl, rfl⟩ : ∃ tails rest, bytes = tails ++ rest ∧ n = tails.length :=
        ⟨bytes.take n, bytes.drop n, (List.take_append_drop n bytes).symm, by
          rw [List.length_take, Nat.min_eq_left hlong]⟩
      have hrune : Utf8.rune? (lead :: tails) = none := by
        cases hrune : Utf8.rune? (lead :: tails) with
        | none => rfl
        | some r =>
          have hpre : lead :: tails <+: lead :: (tails ++ rest) :=
            List.prefix_append (lead :: tails) rest
          exact absurd hpre (hnone _ (Utf8.wellFormed_of_rune? hrune))
      rw [List.map_append, List.append_assoc, Utf8.readTails_bytes]
      dsimp only [List.singleton_append, Utf8.checked]
      rw [hrune]
      exact ⟨lead :: tails, ⟨_, rfl⟩, by simp, List.prefix_append (lead :: tails) rest⟩

/-- What breaks a text off does not decode, and its fault is `Reported` as what it is. -/
theorem exists_fault {breach : Breach} {tail : List Signal} (h : breach.Starts tail) :
    ∃ fault, Utf8.StartsFaulty tail fault ∧ ∀ pos, breach.Reported (fault.at pos) := by
  cases breach with
  | malformed bytes hne hnone =>
    obtain ⟨behind, rfl, hbehind⟩ := h
    obtain ⟨bad, hfaulty, hbad, hpre⟩ := exists_malformed hne hnone hbehind
    exact ⟨.malformed bad, hfaulty, fun pos => ⟨pos, bad, rfl, hbad, hpre⟩⟩
  | failed failure =>
    obtain ⟨behind, rfl⟩ := h
    exact ⟨.readFailed failure, ⟨behind, rfl⟩, fun pos => ⟨pos, rfl⟩⟩

end Breach

/-! ### Two scans in step -/

namespace Scanner

variable {tail : List Signal} {fault : Utf8.Fault} {c d : Cursor Source} {p : Position}
  {text : List Char}

/-- Behind blanks `bs` alone the end is no item where the text breaks off. -/
theorem breaksOff_item_of_blanks (htail : Utf8.StartsFaulty tail fault) {bs : List Char}
    (hblank : ∀ r ∈ bs, Rune.isBlank r = true) (p : Position) :
    item.BreaksOff tail fault p bs := by
  have hscan := Run.breaksOff_scan htail (takes_blanks hblank p) p
  exact (Scan.GivesAnyhow.position p bs).breaksOff_bind hscan.bind

/-- Where nothing is left of a text, `eof` is found. -/
theorem exists_eof_of_faces_nil (h : c.Faces p []) :
    ∃ found c', item.run c = (.ok found, c') ∧ found.item.token = .eof := by
  obtain ⟨c', hrun⟩ := item_of_blanks (fun r hr => absurd hr List.not_mem_nil) h.holds
  exact ⟨_, c', hrun, rfl⟩

/-- How the scans of the next item come out in front of a text that ends, from `c`, and of the same
text that breaks off, from `d`. -/
inductive InStep (tail : List Signal) (fault : Utf8.Fault) (c d : Cursor Source) : Prop
  /-- Both find the same, and go on in front of the same text `rest`. -/
  | together {found : Finding} {c' d' : Cursor Source} {p : Position} {rest : List Char}
      (hc : item.run c = (.ok found, c')) (hd : item.run d = (.ok found, d'))
      (hne : found.item.token ≠ .eof) (hc' : c'.Faces p rest) (hd' : d'.Before tail p rest)
  /-- What stands last in the text, or its `eof`, is lost. -/
  | late {found : Finding} {c' d' : Cursor Source} {p pos : Position}
      (hc : item.run c = (.ok found, c')) (hd : item.run d = (.error (fault.at pos), d'))
      (hc' : c'.Faces p [])
  | unterminated {kind : LiteralKind} {start pos : Position} {c' d' : Cursor Source}
      (hc : item.run c = (.error (.unterminated kind start), c'))
      (hd : item.run d = (.error (fault.at pos), d'))
  | missing {start : Position} {r : Char} {c' d' : Cursor Source}
      (hc : item.run c = (.error (.missingDelimiter start r), c'))
      (hd : item.run d = (.error (.missingDelimiter start r), d'))

theorem inStep_item (htail : Utf8.StartsFaulty tail fault) (hc : c.Faces p text)
    (hd : d.Before tail p text) : InStep tail fault c d := by
  cases Scan.Robust.item htail p text hc.one_le_line with
  | anyhow us rest found h =>
    obtain ⟨c', hrun, hc'⟩ := h.gives c hc
    obtain ⟨d', hrun', hd'⟩ := h tail d hd
    refine .together hrun hrun' (fun heof => ?_) hc' hd'
    -- The end is found behind blanks, where the other scan has failed.
    have hline : 1 ≤ c.position.line := hc.position ▸ hc.one_le_line
    obtain ⟨bs, hblank, ⟨htext, -⟩ | ⟨_, _, -, -, -, hfound⟩⟩ :=
      finds_item_of_holds hline hc.holds hrun
    · rw [htext] at hd
      obtain ⟨pos, _, herror⟩ := breaksOff_item_of_blanks htail hblank p d hd
      cases hrun'.symm.trans herror
    · exact hfound.token_ne_eof heof
  | late _ found hgives hbreaks =>
    rw [← List.append_nil text] at hc
    obtain ⟨c', hrun, hc'⟩ := hgives c hc
    obtain ⟨pos, d', herror⟩ := hbreaks d hd
    exact .late hrun herror hc'
  | refuses _ start r hne h =>
    obtain ⟨c', hrun⟩ := h.refuses c hc
    obtain ⟨d', hrun'⟩ := h tail d hd
    exact .missing hrun hrun'
  | unfinished _ kind start hrefuses hbreaks =>
    obtain ⟨c', hrun⟩ := hrefuses c hc
    obtain ⟨pos, d', herror⟩ := hbreaks d hd
    exact .unterminated hrun herror

end Scanner

namespace Lexer

/-! ### The results of both -/

/-- The results of a text, and those of a reader that fails with `fault` behind it. -/
inductive CutShort (fault : Utf8.Fault) : List LexResult → List LexResult → Prop
  | missing (start : Position) (r : Char) :
      CutShort fault [.error (.missingDelimiter start r)] [.error (.missingDelimiter start r)]
  | unterminated (kind : LiteralKind) (start pos : Position) :
      CutShort fault [.error (.unterminated kind start)] [.error (fault.at pos)]
  | ended {eof : Item} (heof : eof.token = .eof) (pos : Position) :
      CutShort fault [.ok eof] [.error (fault.at pos)]
  /-- The `last` item could go on behind the text. -/
  | last (last : Item) {eof : Item} (heof : eof.token = .eof) (pos : Position) :
      CutShort fault [.ok last, .ok eof] [.error (fault.at pos)]
  | item (item : Item) {whole broken : List LexResult} (h : CutShort fault whole broken) :
      CutShort fault (.ok item :: whole) (.ok item :: broken)

variable {tail : List Signal} {fault : Utf8.Fault} {p : Position} {text : List Char}

/-- What is left of the results shows where the scans part: those of `m`, whose text breaks off, are
`CutShort`. -/
theorem cutShort_results (htail : Utf8.StartsFaulty tail fault) {l m : Lexer Source}
    (hl : l.Faces p text) (hopen : m.finished = false) (hm : m.cursor.Before tail p text) :
    CutShort fault l.results m.results := by
  induction hn : l.remaining using Nat.strongRecOn generalizing l m p text with
  | ind n ih =>
    subst hn
    have hless : l.nextItem.2.remaining < l.remaining := remaining_step_lt hl.isOpen
    cases Scanner.inStep_item htail hl.cursor hm with
    | together hc hd hne hc' hd' =>
      rw [nextItem_of_ok hl.isOpen hc] at hless
      rw [results_of_open hl.isOpen, results_of_open hopen, nextItem_of_ok hl.isOpen hc,
        nextItem_of_ok hopen hd]
      have hmore : decide (_ = Token.eof) = false := decide_eq_false hne
      exact .item _ (ih _ hless ⟨hmore, hc'⟩ hmore hd' rfl)
    | @late found _ _ _ _ hc hd hc' =>
      rw [results_of_error hopen hd]
      by_cases heof : found.item.token = .eof
      · rw [results_of_eof hl.isOpen hc heof]
        exact .ended heof _
      · -- The item was the last one.
        obtain ⟨eof, _, heof', hend⟩ := Scanner.exists_eof_of_faces_nil hc'
        rw [results_of_open hl.isOpen, nextItem_of_ok hl.isOpen hc,
          results_of_eof (by simpa using heof) heof' hend]
        exact .last _ hend _
    | unterminated hc hd =>
      rw [results_of_error hl.isOpen hc, results_of_error hopen hd]
      exact .unterminated _ _ _
    | missing hc hd =>
      rw [results_of_error hl.isOpen hc, results_of_error hopen hd]
      exact .missing _ _

/-- The `items`, and one more result `last` behind them. -/
def itemsThen (items : List Item) (last : LexResult) : List LexResult :=
  items.map .ok ++ [last]

/-- If `broken` is `CutShort` from `whole`, all but the last results agree, or all but the last
two. -/
theorem CutShort.cases_end {whole broken : List LexResult} (h : CutShort fault whole broken) :
    (∃ (items : List Item) (start : Position) (r : Char),
      whole = itemsThen items (.error (.missingDelimiter start r)) ∧ broken = whole) ∨
    (∃ (items : List Item) (kind : LiteralKind) (start pos : Position),
      whole = itemsThen items (.error (.unterminated kind start)) ∧
        broken = itemsThen items (.error (fault.at pos))) ∨
    ∃ (items : List Item) (eof : Item) (pos : Position),
      whole = itemsThen items (.ok eof) ∧ eof.token = .eof ∧
        (broken = itemsThen items (.error (fault.at pos)) ∨
          ∃ before last, items = before ++ [last] ∧
            broken = itemsThen before (.error (fault.at pos))) := by
  induction h with
  | missing start r => exact .inl ⟨[], start, r, rfl, rfl⟩
  | unterminated kind start pos => exact .inr (.inl ⟨[], kind, start, pos, rfl, rfl⟩)
  | ended heof pos => exact .inr (.inr ⟨[], _, pos, rfl, heof, .inl rfl⟩)
  | last last heof pos => exact .inr (.inr ⟨[last], _, pos, rfl, heof, .inr ⟨[], last, rfl, rfl⟩⟩)
  | item item _ ih =>
    rcases ih with ⟨items, start, r, rfl, rfl⟩ | ⟨items, kind, start, pos, rfl, rfl⟩ |
      ⟨items, eof, pos, rfl, heof, hbroken⟩
    · exact .inl ⟨item :: items, start, r, rfl, rfl⟩
    · exact .inr (.inl ⟨item :: items, kind, start, pos, rfl, rfl⟩)
    · refine .inr (.inr ⟨item :: items, eof, pos, rfl, heof, ?_⟩)
      rcases hbroken with rfl | ⟨before, last, rfl, rfl⟩
      · exact .inl rfl
      · exact .inr ⟨item :: before, last, rfl, rfl⟩

/-- What comes late spoils nothing before it.  Let a reader deliver a `text`, in whatever pieces,
and then fail or go on with bytes that are no text, the `breach`.  If the results of the text,
`whole`, end with a missing delimiter, the reader has the same.  If they end in a literal without
its end, it has an error for the breach instead.  If they end with `eof`, it has that error instead
of the end, and may lack the last item before it.  The error stands last. -/
theorem results_of_breach (text : String) (breach : Breach) (tail : List Signal)
    (events : List ReadEvent) (capacity : Nat)
    (hevents : events.flatMap ReadEvent.signals = (Utf8.encode text.toList).map .byte ++ tail)
    (htail : breach.Starts tail) :
    let whole := (ofString text).results
    let broken := (ofSource (Source.ofEvents events capacity)).results
    (∃ (items : List Item) (start : Position) (r : Char),
      whole = itemsThen items (.error (.missingDelimiter start r)) ∧ broken = whole) ∨
    (∃ (items : List Item) (kind : LiteralKind) (start : Position) (e : LexError),
      whole = itemsThen items (.error (.unterminated kind start)) ∧ breach.Reported e ∧
        broken = itemsThen items (.error e)) ∨
    ∃ (items : List Item) (eof : Item) (e : LexError),
      whole = itemsThen items (.ok eof) ∧ eof.token = .eof ∧ breach.Reported e ∧
        (broken = itemsThen items (.error e) ∨
          ∃ before last, items = before ++ [last] ∧ broken = itemsThen before (.error e)) := by
  intro whole broken
  obtain ⟨fault, hfault, hreported⟩ := Breach.exists_fault htail
  have hbefore : (ofSource (Source.ofEvents events capacity)).cursor.Before tail .start
      text.toList := ⟨⟨text.toList, hevents, rfl⟩, rfl, Nat.le_refl 1⟩
  have hcut : CutShort fault whole broken :=
    cutShort_results hfault (faces_ofString text) rfl hbefore
  rcases hcut.cases_end with hmissing | ⟨items, kind, start, pos, hwhole, hbroken⟩ |
    ⟨items, eof, pos, hwhole, heof, hbroken⟩
  · exact .inl hmissing
  · exact .inr (.inl ⟨items, kind, start, _, hwhole, hreported pos, hbroken⟩)
  · exact .inr (.inr ⟨items, eof, _, hwhole, heof, hreported pos, hbroken⟩)

/-- The operator behind the name could go on where the byte `0xFF` stands that is no text. -/
theorem results_of_breach_operator :
    let breach := Breach.malformed [0xFF] (by decide)
      (Utf8.noneStarts_of_tailCount?_none (by decide))
    let whole := (ofString "a<").results
    let broken := (ofSource (Source.ofEvents [.chunk [0x61, 0x3C, 0xFF]] 2)).results
    [ReadEvent.chunk [0x61, 0x3C, 0xFF]].flatMap ReadEvent.signals =
        (Utf8.encode "a<".toList).map .byte ++ [.byte 0xFF] ∧
      breach.Starts [.byte 0xFF] ∧
      ((∃ (items : List Item) (start : Position) (r : Char),
        whole = itemsThen items (.error (.missingDelimiter start r)) ∧ broken = whole) ∨
      (∃ (items : List Item) (kind : LiteralKind) (start : Position) (e : LexError),
        whole = itemsThen items (.error (.unterminated kind start)) ∧ breach.Reported e ∧
          broken = itemsThen items (.error e)) ∨
      ∃ (items : List Item) (eof : Item) (e : LexError),
        whole = itemsThen items (.ok eof) ∧ eof.token = .eof ∧ breach.Reported e ∧
          (broken = itemsThen items (.error e) ∨
            ∃ before last, items = before ++ [last] ∧
              broken = itemsThen before (.error e))) := by
  intro breach whole broken
  have hevents : [ReadEvent.chunk [0x61, 0x3C, 0xFF]].flatMap ReadEvent.signals =
      (Utf8.encode "a<".toList).map .byte ++ [.byte 0xFF] := by
    decide +kernel
  have hstarts : breach.Starts [.byte 0xFF] := ⟨[], rfl, by simp⟩
  exact ⟨hevents, hstarts, results_of_breach "a<" breach [.byte 0xFF] _ 2 hevents hstarts⟩

example : (ofSource (Source.ofEvents [.chunk [0x61, 0x3C, 0xFF]] 2)).results =
    [.ok ⟨⟨1, 0⟩, .ident, "a"⟩, .error (.invalidUtf8 ⟨1, 2⟩ [0xFF])] := by
  decide +kernel

end Lexer

end LexStream
