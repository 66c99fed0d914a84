import LexStream.Proofs.ComingRunes
import Mathlib.Data.List.TakeWhile

/-!
# The payload of a structured literal

Behind its number sign a structured literal is the longest row of letters, a bracket, and the
shortest payload that closes this bracket, the shortest row with `EndsPayload opener closer`.  The
scan `Scanner.structured` finds just that.  It fails only where the runes run out before the literal
does (`Scanner.LacksEnd`), and where the rune behind the letters is no bracket.

`Scanner.payloadStep` counts the brackets that are open.  What it counts is `Grammar.depth`, the
brackets opened less those closed, and it is never below one while the scan goes on, since it stops
at the rune that would bring it to zero.

Main facts:

* `Scanner.takes_payloadStep_depth`: the count of a scan is the `depth` of what it has taken, and is
  positive;
* `Scanner.depth_pos_of_shortest`: before the end of a payload the `depth` is positive;
* `Scanner.structured_balanced`: what `Scanner.structured` gives in all cases, whatever source the
  runes come from and whatever follows them.
-/

namespace LexStream

open Grammar

/-- How many brackets are open behind the runes `v` of a payload, the first `opener` included. -/
def Grammar.depth (opener closer : Char) (v : List Char) : Int :=
  1 + v.count opener - v.count closer

/-! ### Brackets -/

namespace Rune

theorem closer?_eq_some_iff {opener closer : Char} :
    closer? opener = some closer ↔
      (opener, closer) ∈ [('{', '}'), ('(', ')'), ('|', '|')] := by
  constructor
  · intro h
    unfold closer? at h
    split_ifs at h with hbrace hparenthesis hbar
    all_goals
      obtain rfl := Option.some.inj h
      subst_vars
      decide
  · intro h
    simp only [List.mem_cons, Prod.mk.injEq, List.not_mem_nil, or_false] at h
    rcases h with ⟨rfl, rfl⟩ | ⟨rfl, rfl⟩ | ⟨rfl, rfl⟩ <;> decide

theorem closer?_eq_none {r : Char} (h : r ∉ ['{', '(', '|']) : closer? r = none := by
  simp only [List.mem_cons, List.not_mem_nil, or_false, not_or] at h
  obtain ⟨hbrace, hparenthesis, hbar⟩ := h
  rw [closer?, if_neg hbrace, if_neg hparenthesis, if_neg hbar]

end Rune

namespace Scanner

/-! ### Depth -/

variable {σ : Type} [ByteSource σ] {start : Position} {c c₁ c' : Cursor σ} {opener closer : Char}
  {tag v : List Char}

/-- The `count` that `payloadStep` reaches is the `depth` of the runes `v` it has taken, and is
positive. -/
theorem takes_payloadStep_depth {count : Nat}
    (h : Run.Takes (payloadStep opener closer) 1 v count) :
    1 ≤ count ∧ (count : Int) = depth opener closer v := by
  unfold depth
  by_cases hsame : opener = closer
  · subst hsame
    obtain rfl := takes_payloadStep_self h
    omega
  · obtain ⟨hpos, hcount⟩ := takes_payloadStep_of_ne hsame h
    omega

/-- If `opener` and `closer` differ, a payload ends where its `depth` is zero. -/
theorem endsPayload_iff_depth (hne : opener ≠ closer) :
    EndsPayload opener closer v ↔ depth opener closer v = 0 := by
  unfold EndsPayload depth
  rw [if_neg hne]
  omega

/-- The `depth` of a shorter first part `q` of a payload `v` is positive. -/
theorem depth_pos_of_shortest (h : Shortest (EndsPayload opener closer) v) {q : List Char}
    (hq : q <+: v) (hne : q ≠ v) : 0 < depth opener closer q := by
  obtain ⟨ts, r, _, rfl, htakes, -⟩ := (decides_payloadStep opener closer).exists_takes_stop h
  -- The scan has taken the row `q` on its way to the last rune.
  obtain ⟨us, rfl⟩ : q <+: ts := by
    rcases List.prefix_concat_iff.1 (by simpa using hq) with heq | hq
    · exact absurd (by simpa using heq) hne
    · exact hq
  obtain ⟨count, hcount, -⟩ := htakes.split
  obtain ⟨hpos, hdepth⟩ := takes_payloadStep_depth hcount
  omega

/-! ### Structured literals -/

/-- The tag is passed with the rune `opener` behind it, which is no letter. -/
theorem run_tag (htag : ∀ r ∈ tag, Rune.isAlphabetic r = true)
    (hopener : Rune.isAlphabetic opener = false) (h : c.Delivers (tag ++ [opener]) c') :
    (untilStopped .structured start tagStep ()).run c = (.ok (String.ofList tag, opener), c') := by
  obtain ⟨u, htakes⟩ := exists_takes_tagStep htag
  have hstop : tagStep u opener = .stop := by rw [tagStep, if_neg (by simp [hopener])]
  exact untilStopped_of_takes htakes hstop h

theorem lacksEnd_structured_tag (htag : ∀ r ∈ tag, Rune.isAlphabetic r = true)
    (h : c.Delivers tag c₁) :
    LacksEnd .structured start (structured start) c tag c₁ := by
  obtain ⟨_, htakes⟩ := exists_takes_tagStep htag
  exact (lacksEnd_of_takes htakes h).bind

/-- Behind its tag, a rune that `Rune.closer?` gives no closer for is the error. -/
theorem structured_of_stray (htag : ∀ r ∈ tag, Rune.isAlphabetic r = true)
    (hopener : Rune.isAlphabetic opener = false) (hcloser : Rune.closer? opener = none)
    (h : c.Delivers (tag ++ [opener]) c') :
    (structured start).run c = (.error (.missingDelimiter start opener), c') := by
  refine (Scan.run_bind_ok (run_tag htag hopener h)).trans ?_
  dsimp only
  rw [hcloser]
  rfl

/-- Behind tag and `opener`, the shortest row `v` that closes it ends the literal. -/
theorem structured_of_shortest (htag : ∀ r ∈ tag, Rune.isAlphabetic r = true)
    (hcloser : Rune.closer? opener = some closer)
    (hv : Shortest (EndsPayload opener closer) v) (h : c.Delivers (tag ++ opener :: v) c') :
    (structured start).run c = (.ok (.ofToken start .structured
      (String.ofList ('#' :: (tag ++ opener :: v)))), c') := by
  rw [List.append_cons] at h
  obtain ⟨d, htagged, hpayload⟩ := h.split
  obtain ⟨inside, last, htext, hrun⟩ :=
    untilStopped_of_shortest (decides_payloadStep opener closer) hv hpayload
  refine (Scan.run_bind_ok (run_tag htag (isAlphabetic_opener hcloser) htagged)).trans ?_
  dsimp only
  rw [hcloser, ← structured_text htext]
  exact Scan.run_bind_ok hrun

/-- Behind tag and `opener`, a row `v` of which no first part closes it leaves the literal without
an end. -/
theorem lacksEnd_structured_payload (htag : ∀ r ∈ tag, Rune.isAlphabetic r = true)
    (hcloser : Rune.closer? opener = some closer) (hnever : Never (EndsPayload opener closer) v)
    (h : c.Delivers (tag ++ opener :: v) c₁) :
    LacksEnd .structured start (structured start) c (tag ++ opener :: v) c₁ := by
  rw [List.append_cons] at h ⊢
  obtain ⟨d, htagged, hpayload⟩ := h.split
  refine .behind (run_tag htag (isAlphabetic_opener hcloser) htagged) htagged ?_
  dsimp only
  rw [hcloser]
  exact (lacksEnd_of_never (decides_payloadStep opener closer) hnever hpayload).bind

/-- What the scan `structured` gives behind the number sign, where the runes `u` come next and `c₁`
is the cursor behind them.  Its `tag` is the longest row of letters that `u` starts with.  If
`u = tag`, the literal lacks its end.  If no bracket follows, that is the error, and the `tag` and
this rune are passed.  If an `opener` follows, the payload is the shortest row `v` with
`EndsPayload opener closer`, before the end of which the `depth` is positive, and `tag`, `opener`
and `v` are passed; and if the rest of `u` starts with no such row, the literal lacks its end. -/
theorem structured_balanced (start : Position) (c c₁ : Cursor σ) (u : List Char)
    (h : c.Delivers u c₁) :
    let tag := u.takeWhile Rune.isAlphabetic
    (u = tag → LacksEnd .structured start (structured start) c u c₁) ∧
    ∀ opener rest, u = tag ++ opener :: rest →
      (opener ∉ ['{', '(', '|'] →
        ∃ c', (structured start).run c = (.error (.missingDelimiter start opener), c') ∧
          c.Delivers (tag ++ [opener]) c' ∧ c'.Delivers rest c₁ ∧
          c'.position = c.position.advanceAll (tag ++ [opener])) ∧
      ∀ closer, (opener, closer) ∈ [('{', '}'), ('(', ')'), ('|', '|')] →
        ((∃ v, v <+: rest ∧ EndsPayload opener closer v) →
          ∃ v behind c', rest = v ++ behind ∧ Shortest (EndsPayload opener closer) v ∧
            (∀ q, q <+: v → q ≠ v → 0 < depth opener closer q) ∧
            (structured start).run c = (.ok (.ofToken start .structured
              (String.ofList ('#' :: (tag ++ opener :: v)))), c') ∧
            c.Delivers (tag ++ opener :: v) c' ∧ c'.Delivers behind c₁ ∧
            c'.position = c.position.advanceAll (tag ++ opener :: v)) ∧
        ((∀ v, v <+: rest → ¬EndsPayload opener closer v) →
          LacksEnd .structured start (structured start) c u c₁) := by
  intro tag
  have htag : ∀ r ∈ tag, Rune.isAlphabetic r = true := fun r hr => List.mem_takeWhile_imp hr
  refine ⟨fun hall => ?_, fun opener rest htext => ⟨fun hopener => ?_, fun closer hbrackets => ?_⟩⟩
  · rw [hall] at h ⊢
    exact lacksEnd_structured_tag htag h
  · have hletter : Rune.isAlphabetic opener = false := by
      have hrest : u.dropWhile Rune.isAlphabetic = opener :: rest := by
        refine List.append_cancel_left (Eq.trans ?_ htext)
        exact List.takeWhile_append_dropWhile
      have hhead := List.head?_dropWhile_not Rune.isAlphabetic u
      rw [hrest] at hhead
      exact hhead
    rw [htext, List.append_cons] at h
    obtain ⟨c', htagged, hrest⟩ := h.split
    exact ⟨c', structured_of_stray htag hletter (Rune.closer?_eq_none hopener) htagged, htagged,
      hrest, htagged.passes.position⟩
  · have hcloser := Rune.closer?_eq_some_iff.2 hbrackets
    refine ⟨fun hends => ?_, fun hnever => ?_⟩
    · obtain ⟨w, hw, hP⟩ := hends
      rcases (decides_payloadStep opener closer).shortest_or_never rest with
        ⟨v, behind, rfl, hv⟩ | hnever
      · rw [htext, ← List.cons_append, ← List.append_assoc] at h
        obtain ⟨c', hliteral, hbehind⟩ := h.split
        exact ⟨v, behind, c', rfl, hv, fun q => depth_pos_of_shortest hv,
          structured_of_shortest htag hcloser hv hliteral, hliteral, hbehind,
          hliteral.passes.position⟩
      · exact absurd hP (hnever w hw)
    · rw [htext] at h ⊢
      exact lacksEnd_structured_payload htag hcloser hnever h

/-- Inside braces, a bar and an opened parenthesis count for nothing, and a byte that does not
decode may stand behind the brace that closes the literal. -/
theorem structured_balanced_nested :
    let c : Cursor (List Signal) :=
      { source := (Utf8.encode "re\x7ba\x7b|(\x7db\x7d+".toList).map .byte ++ [.byte 0xff],
        caret := ⟨⟨1, 1⟩, 0⟩ }
    let c₁ : Cursor (List Signal) := { source := [.byte 0xff], caret := ⟨⟨1, 12⟩, 0⟩ }
    c.Delivers "re\x7ba\x7b|(\x7db\x7d+".toList c₁ ∧
      ∃ v behind c', "a\x7b|(\x7db\x7d+".toList = v ++ behind ∧ Shortest (EndsPayload '{' '}') v ∧
        (∀ q, q <+: v → q ≠ v → 0 < depth '{' '}' q) ∧
        (structured ⟨1, 0⟩).run c = (.ok (.ofToken ⟨1, 0⟩ .structured
          (String.ofList ('#' :: ("re".toList ++ '{' :: v)))), c') ∧
        c.Delivers ("re".toList ++ '{' :: v) c' ∧ c'.Delivers behind c₁ ∧
        c'.position = c.position.advanceAll ("re".toList ++ '{' :: v) := by
  intro c c₁
  have hc : c.Delivers "re\x7ba\x7b|(\x7db\x7d+".toList c₁ :=
    .cons rfl <| .cons rfl <| .cons rfl <| .cons rfl <| .cons rfl <| .cons rfl <| .cons rfl <|
      .cons rfl <| .cons rfl <| .cons rfl <| .cons rfl <| .refl c₁
  have hscan := (structured_balanced ⟨1, 0⟩ c c₁ _ hc).2 '{' "a\x7b|(\x7db\x7d+".toList
    (by decide +kernel)
  have hends : EndsPayload '{' '}' "a\x7b|(\x7db\x7d".toList := by
    rw [endsPayload_iff_depth (by decide)]
    decide
  have htag : "re\x7ba\x7b|(\x7db\x7d+".toList.takeWhile Rune.isAlphabetic = "re".toList := by
    decide +kernel
  have hfound := (hscan.2 '}' (by decide)).1 ⟨_, by decide, hends⟩
  rw [htag] at hfound
  exact ⟨hc, hfound⟩

end Scanner

end LexStream
