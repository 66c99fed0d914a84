import LexStream.Source
import LexStream.Utf8

/-!
# Decoding a text

A source that holds the encoding of a row of runes decodes to these runes and to the end behind
them.

`Utf8.Decodes s ds s'` says that some decodings lead from the source `s` to the source `s'` and give
the runes `ds`; ends and faults may stand between the runes.  `Source.Spells s rs` says that the
bytes to come from `s` are the encoding of `rs`, and that nothing but the end follows.

Main facts:

* `Utf8.rune?_utf8EncodeChar`: the bytes that encode a rune make up that rune;
* `Source.decode_signals`: a source decodes as the list of its signals does;
* `Source.Spells.decodes`: the runes decoded from a source that spells `rs` are a first part of
  `rs`, and the source spells the rest afterwards.
-/

namespace LexStream

namespace Utf8

/-! ### The bytes of a rune -/

theorem scalar?_toNat (r : Char) : Text.scalar? r.toNat = some r := by
  have h : r.toNat.isValidChar := r.valid
  rw [Text.scalar?, if_pos h, Char.ofNat_toNat]

theorem isTail_ofNat (n : Nat) : isTail (UInt8.ofNat (n % 64 + 128)) = true := by
  have h : (UInt8.ofNat (n % 64 + 128)).toNat = n % 64 + 128 :=
    UInt8.toNat_ofNat_of_lt (show n % 64 + 128 < 256 by omega)
  simp only [isTail, UInt8.le_iff_toNat_le, h, Bool.and_eq_true, decide_eq_true_eq]
  constructor
  · show 128 ≤ _
    omega
  · show _ ≤ 191
    omega

/-- The number `k` of bytes that follow a first byte, by the number `n` that it stands for. -/
theorem tailCount?_ofNat {n k : Nat}
    (h : (n ≤ 0x7F ∧ k = 0) ∨ (0xC2 ≤ n ∧ n ≤ 0xDF ∧ k = 1) ∨ (0xE0 ≤ n ∧ n ≤ 0xEF ∧ k = 2) ∨
      (0xF0 ≤ n ∧ n ≤ 0xF4 ∧ k = 3)) :
    tailCount? (UInt8.ofNat n) = some k := by
  have hn : (UInt8.ofNat n).toNat = n := UInt8.toNat_ofNat_of_lt (show n < 256 by omega)
  simp only [tailCount?, UInt8.le_iff_toNat_le, hn, UInt8.toNat_ofNat, Nat.reducePow,
    Nat.reduceMod, Bool.and_eq_true, decide_eq_true_eq]
  grind

theorem rune?_eq_some {lead : UInt8} {tails : List UInt8} {r : Char}
    (hcount : tailCount? lead = some tails.length) (htails : tails.all isTail = true)
    (hleast : leastOf tails.length ≤ r.toNat)
    (hbits : tails.foldl (fun n b => n * 64 + b.toNat % 64) (leadBits lead tails.length) =
      r.toNat) :
    rune? (lead :: tails) = some r := by
  simp [rune?, hcount, htails, hbits, hleast, scalar?_toNat]

/-- The bytes that encode a rune `r` make up `r`. -/
theorem rune?_utf8EncodeChar (r : Char) : rune? (String.utf8EncodeChar r) = some r := by
  have hv : r.val.toNat < 0x110000 := by
    have h : r.toNat.isValidChar := r.valid
    change r.val.toNat < 0xD800 ∨ (0xDFFF < r.val.toNat ∧ r.val.toNat < 0x110000) at h
    omega
  have hr : r.val.toNat = r.toNat := rfl
  -- One case for each number of bytes.
  fun_cases String.utf8EncodeChar r with
  | case1 v h =>
    refine rune?_eq_some (tailCount?_ofNat (.inl ⟨h, rfl⟩)) rfl (Nat.zero_le _) ?_
    simp [leadBits]
    omega
  | case2 v h₁ h₂ =>
    refine rune?_eq_some (tailCount?_ofNat (.inr (.inl ⟨by omega, by omega, rfl⟩))) ?_ ?_ ?_
    · simp only [List.all_cons, List.all_nil, isTail_ofNat, Bool.and_self]
    · simp [leastOf]
      omega
    · simp [leadBits]
      omega
  | case3 v h₁ h₂ h₃ =>
    refine rune?_eq_some (tailCount?_ofNat (.inr (.inr (.inl ⟨by omega, by omega, rfl⟩)))) ?_ ?_ ?_
    · simp only [List.all_cons, List.all_nil, isTail_ofNat, Bool.and_self]
    · simp [leastOf]
      omega
    · simp [leadBits]
      omega
  | case4 v h₁ h₂ h₃ =>
    refine rune?_eq_some (tailCount?_ofNat (.inr (.inr (.inr ⟨by omega, by omega, rfl⟩)))) ?_ ?_ ?_
    · simp only [List.all_cons, List.all_nil, isTail_ofNat, Bool.and_self]
    · simp [leastOf]
      omega
    · simp [leadBits]
      omega

/-! ### Decoding a list of signals -/

theorem readTails_bytes (tails bytes : List UInt8) (rest : List Signal) :
    readTails tails.length bytes (tails.map .byte ++ rest) = (.ok (bytes ++ tails), rest) := by
  induction tails generalizing bytes with
  | nil => simp [readTails]
  | cons b tails ih =>
    show readTails tails.length (bytes ++ [b]) (tails.map .byte ++ rest) = _
    rw [ih, List.append_assoc, List.singleton_append]

/-- The `bytes` that make up a rune `r` are decoded to it, whatever follows them. -/
theorem decode_of_rune? {bytes : List UInt8} {r : Char} (h : rune? bytes = some r)
    (rest : List Signal) : decode (bytes.map Signal.byte ++ rest) = (.ok (some r), rest) := by
  cases bytes with
  | nil => cases h
  | cons lead tails =>
    have hcount : tailCount? lead = some tails.length := by
      unfold rune? at h
      dsimp only at h
      split at h
      next hc => simp only [Bool.and_eq_true, decide_eq_true_eq] at hc; exact hc.1.1
      next => cases h
    have hread : ByteSource.read (Signal.byte lead :: (tails.map .byte ++ rest)) =
        (.byte lead, tails.map .byte ++ rest) := rfl
    rw [List.map_cons, List.cons_append, decode, hread]
    dsimp only
    rw [hcount]
    dsimp only
    rw [readTails_bytes]
    show (checked (lead :: tails), rest) = _
    rw [checked, h]

/-- The encoding of `r :: rs` decodes to `r` and leaves the encoding of `rs`. -/
theorem decode_encode_cons (r : Char) (rs : List Char) (rest : List Signal) :
    decode ((encode (r :: rs)).map Signal.byte ++ rest) =
      (.ok (some r), (encode rs).map Signal.byte ++ rest) := by
  have h : encode (r :: rs) = String.utf8EncodeChar r ++ encode rs := List.flatMap_cons
  rw [h, List.map_append, List.append_assoc]
  exact decode_of_rune? (rune?_utf8EncodeChar r) _

/-! ### Rows of decodings -/

/-- The rune that a decoding with this outcome gives, if it gives one. -/
def given : Except Fault (Option Char) → List Char
  | .ok (some r) => [r]
  | .ok none => []
  | .error _ => []

variable {σ : Type} [ByteSource σ]

/-- Some decodings lead from one source to another and give a row of runes.  Ends and faults among
them give none. -/
inductive Decodes : σ → List Char → σ → Prop
  | refl (s : σ) : Decodes s [] s
  | step {s s' s'' : σ} {outcome : Except Fault (Option Char)} {rs : List Char}
      (hd : decode s = (outcome, s')) (h : Decodes s' rs s'') : Decodes s (given outcome ++ rs) s''

namespace Decodes

theorem single {s s' : σ} {outcome : Except Fault (Option Char)}
    (h : decode s = (outcome, s')) : Decodes s (given outcome) s' := by
  have := step h (refl s')
  rwa [List.append_nil] at this

theorem trans {s s' s'' : σ} {rs rs' : List Char} (h : Decodes s rs s') (h' : Decodes s' rs' s'') :
    Decodes s (rs ++ rs') s'' := by
  induction h with
  | refl s => exact h'
  | step hd _ ih =>
    rw [List.append_assoc]
    exact step hd (ih h')

end Decodes

end Utf8

namespace Source

/-! ### A source decodes as its signals do -/

theorem readTails_signals (n : Nat) (bytes : List UInt8) (s : Source) :
    Utf8.readTails n bytes s.signals =
      ((Utf8.readTails n bytes s).1, (Utf8.readTails n bytes s).2.signals) := by
  induction n generalizing bytes s with
  | zero => rfl
  | succ n ih =>
    have hread : ByteSource.read s.signals = (s.read.1, s.read.2.signals) := s.read_signals
    unfold Utf8.readTails
    rw [hread, show ByteSource.read s = s.read from rfl]
    cases s.read with
    | mk signal s' =>
      cases signal with
      | byte b => exact ih (bytes ++ [b]) s'
      | ended => rfl
      | failed f => rfl

/-- A source `s` decodes as the list of its `signals` does. -/
theorem decode_signals (s : Source) :
    Utf8.decode s.signals = ((Utf8.decode s).1, (Utf8.decode s).2.signals) := by
  have hread : ByteSource.read s.signals = (s.read.1, s.read.2.signals) := s.read_signals
  unfold Utf8.decode
  rw [hread, show ByteSource.read s = s.read from rfl]
  cases s.read with
  | mk signal s' =>
    cases signal with
    | ended => rfl
    | failed f => rfl
    | byte lead =>
      dsimp only
      cases Utf8.tailCount? lead with
      | none => rfl
      | some n =>
        dsimp only
        rw [readTails_signals]
        cases Utf8.readTails n [lead] s' with
        | mk tails s'' => cases tails <;> rfl

/-! ### Sources that spell a text -/

/-- The bytes to come are the encoding of the runes `rs`, and then there is only the end. -/
def Spells (s : Source) (rs : List Char) : Prop :=
  ∃ ends, s.signals = (Utf8.encode rs).map .byte ++ List.replicate ends .ended

namespace Spells

theorem decode_cons {s : Source} {r : Char} {rs : List Char} (h : s.Spells (r :: rs)) :
    ∃ s', Utf8.decode s = (.ok (some r), s') ∧ s'.Spells rs := by
  obtain ⟨ends, hs⟩ := h
  have hd := s.decode_signals
  rw [hs, Utf8.decode_encode_cons] at hd
  obtain ⟨h₁, h₂⟩ := Prod.mk.inj hd
  exact ⟨(Utf8.decode s).2, Prod.ext h₁.symm rfl, ends, h₂.symm⟩

/-- Behind the last rune there is the end, however often one asks: a source that spells `[]` does so
again. -/
theorem decode_nil {s : Source} (h : s.Spells []) :
    ∃ s', Utf8.decode s = (.ok none, s') ∧ s'.Spells [] := by
  obtain ⟨ends, hs⟩ := h
  have hd := s.decode_signals
  rw [hs] at hd
  have hend : Utf8.decode (List.replicate ends Signal.ended) =
      (.ok none, List.replicate (ends - 1) .ended) := by
    cases ends <;> rfl
  rw [show (Utf8.encode []).map Signal.byte ++ List.replicate ends .ended =
    List.replicate ends .ended from rfl, hend] at hd
  obtain ⟨h₁, h₂⟩ := Prod.mk.inj hd
  exact ⟨(Utf8.decode s).2, Prod.ext h₁.symm rfl, ends - 1, h₂.symm⟩

/-- Decoding a text `rs` gives its first rune, or its end, and leaves the rest of `rs`. -/
theorem decode {s s' : Source} {rs : List Char} {outcome : Except Utf8.Fault (Option Char)}
    (h : s.Spells rs) (hd : Utf8.decode s = (outcome, s')) :
    outcome = .ok rs.head? ∧ rs = Utf8.given outcome ++ rs.tail ∧ s'.Spells rs.tail := by
  cases rs with
  | nil =>
    obtain ⟨s₁, hd₁, h₁⟩ := h.decode_nil
    obtain ⟨rfl, rfl⟩ := Prod.mk.inj (hd.symm.trans hd₁)
    exact ⟨rfl, rfl, h₁⟩
  | cons r rs =>
    obtain ⟨s₁, hd₁, h₁⟩ := h.decode_cons
    obtain ⟨rfl, rfl⟩ := Prod.mk.inj (hd.symm.trans hd₁)
    exact ⟨rfl, rfl, h₁⟩

/-- The runes `ds` decoded from a text are a first part of it, and the source spells the rest
afterwards. -/
theorem decodes {s s' : Source} {rs ds : List Char} (h : s.Spells rs)
    (hd : Utf8.Decodes s ds s') : ∃ rest, rs = ds ++ rest ∧ s'.Spells rest := by
  induction hd generalizing rs with
  | refl s => exact ⟨rs, rfl, h⟩
  | step hstep _ ih =>
    obtain ⟨-, hrs, htail⟩ := h.decode hstep
    obtain ⟨rest, hrest, hspells⟩ := ih htail
    refine ⟨rest, ?_, hspells⟩
    rw [List.append_assoc, ← hrest]
    exact hrs

end Spells

/-- The `chunks` of at least one byte, cut anywhere, spell the text `rs` whose encoding they make
up. -/
theorem spells_ofChunks {chunks : List (List UInt8)} {rs : List Char} (hne : ∀ b ∈ chunks, b ≠ [])
    (h : chunks.flatten = Utf8.encode rs) (capacity : Nat) :
    (ofEvents (chunks.map .chunk) capacity).Spells rs := by
  refine ⟨0, ?_⟩
  have hsignals : (chunks.map ReadEvent.chunk).flatMap ReadEvent.signals =
      chunks.flatten.map Signal.byte := by
    clear h
    induction chunks with
    | nil => rfl
    | cons chunk chunks ih =>
      rw [List.map_cons, List.flatMap_cons, List.flatten_cons, List.map_append,
        ih fun b hb => hne b (List.mem_cons_of_mem _ hb)]
      cases chunk with
      | nil => exact absurd rfl (hne [] List.mem_cons_self)
      | cons b bs => rfl
  show [].map Signal.byte ++ _ = _
  rw [← h, ← hsignals]
  simp [ofEvents]

/-- The source of a text `rs` spells it. -/
theorem spells_ofBytes (rs : List Char) : (ofBytes (Utf8.encode rs)).Spells rs := by
  cases h : Utf8.encode rs with
  | nil => exact ⟨1, by rw [h]; rfl⟩
  | cons b bs =>
    have hchunks : (ofEvents ([b :: bs].map .chunk) defaultCapacity).Spells rs := by
      refine spells_ofChunks ?_ ?_ defaultCapacity
      · simp
      · simp [h]
    exact hchunks

end Source

end LexStream
