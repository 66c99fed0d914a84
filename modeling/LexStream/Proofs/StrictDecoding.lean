import LexStream.Proofs.Yields

/-!
# Strict decoding

Which bytes decode, and how far.  `Utf8.WellFormed` lists the sequences that stand for a rune by the
ranges of their bytes alone: none of them is an overlong form, a surrogate or beyond U+10FFFF.  A
cursor passes runes as long as a well-formed sequence comes next (`Cursor.readAll`), and where it
stops, either the bytes are all read or none comes next.

Main facts:

* `Utf8.rune?_eq_some_iff`: the bytes that make up a rune are its encoding, and no others;
* `Utf8.wellFormed_iff_exists`: the well-formed sequences are the encodings of single runes;
* `Utf8.decode_bytes`: what one decoding finds in a row of bytes;
* `Cursor.readAll_ofBytes`: a row of bytes is read to its end exactly if it falls into well-formed
  sequences, and else up to the first place where none comes next.
-/

namespace LexStream

namespace Utf8

/-! ### Well-formed sequences -/

/-- A sequence of bytes that stands for a rune, by the ranges of `a`, `b`, `c` and `d`. -/
inductive WellFormed : List UInt8 → Prop
  | one {a : UInt8} (ha : a ≤ 0x7F) : WellFormed [a]
  /-- A first byte `0xC0` or `0xC1` would make an overlong form. -/
  | two {a b : UInt8} (ha : 0xC2 ≤ a ∧ a ≤ 0xDF) (hb : 0x80 ≤ b ∧ b ≤ 0xBF) : WellFormed [a, b]
  | three {a b c : UInt8} (ha : 0xE0 ≤ a ∧ a ≤ 0xEF) (hb : 0x80 ≤ b ∧ b ≤ 0xBF)
      (hc : 0x80 ≤ c ∧ c ≤ 0xBF) (hoverlong : a = 0xE0 → 0xA0 ≤ b)
      (hsurrogate : a = 0xED → b ≤ 0x9F) : WellFormed [a, b, c]
  | four {a b c d : UInt8} (ha : 0xF0 ≤ a ∧ a ≤ 0xF4) (hb : 0x80 ≤ b ∧ b ≤ 0xBF)
      (hc : 0x80 ≤ c ∧ c ≤ 0xBF) (hd : 0x80 ≤ d ∧ d ≤ 0xBF) (hoverlong : a = 0xF0 → 0x90 ≤ b)
      (hbeyond : a = 0xF4 → b ≤ 0x8F) : WellFormed [a, b, c, d]

/-- No `WellFormed` sequence comes first in the bytes `bs`. -/
def NoneStarts (bs : List UInt8) : Prop :=
  ∀ seq, WellFormed seq → ¬seq <+: bs

/-- The bytes `bs` fall into `WellFormed` sequences. -/
def InSequences (bs : List UInt8) : Prop :=
  ∃ seqs : List (List UInt8), (∀ seq ∈ seqs, WellFormed seq) ∧ seqs.flatten = bs

/-! ### Bytes by number -/

theorem eq_ofNat_of_toNat_eq {b : UInt8} {n : Nat} (h : b.toNat = n) : b = UInt8.ofNat n := by
  rw [← h, UInt8.ofNat_toNat]

theorem range_iff_toNat {low b high : UInt8} :
    low ≤ b ∧ b ≤ high ↔ low.toNat ≤ b.toNat ∧ b.toNat ≤ high.toNat := by
  rw [UInt8.le_iff_toNat_le, UInt8.le_iff_toNat_le]

theorem isTail_iff {b : UInt8} : isTail b = true ↔ 0x80 ≤ b.toNat ∧ b.toNat ≤ 0xBF := by
  rw [isTail, Bool.and_eq_true, decide_eq_true_eq, decide_eq_true_eq]
  exact range_iff_toNat

theorem scalar?_eq_some_iff {n : Nat} {r : Char} : Text.scalar? n = some r ↔ r.toNat = n := by
  constructor
  · intro h
    unfold Text.scalar? at h
    split_ifs at h with hvalid
    rw [← Option.some.inj h, Char.ofNat, dif_pos hvalid]
    rfl
  · rintro rfl
    exact scalar?_toNat r

/-- The number `k` of bytes that follow a first byte, by the range that `lead` lies in. -/
theorem tailCount?_eq_some_iff {lead : UInt8} {k : Nat} :
    tailCount? lead = some k ↔ (lead.toNat ≤ 0x7F ∧ k = 0) ∨
      (0xC2 ≤ lead.toNat ∧ lead.toNat ≤ 0xDF ∧ k = 1) ∨
      (0xE0 ≤ lead.toNat ∧ lead.toNat ≤ 0xEF ∧ k = 2) ∨
      (0xF0 ≤ lead.toNat ∧ lead.toNat ≤ 0xF4 ∧ k = 3) := by
  constructor
  · intro h
    simp only [tailCount?, UInt8.le_iff_toNat_le, UInt8.toNat_ofNat, Nat.reducePow, Nat.reduceMod,
      Bool.and_eq_true, decide_eq_true_eq] at h
    split_ifs at h with h₁ h₂ h₃ h₄
    · obtain rfl := Option.some.inj h
      omega
    · obtain rfl := Option.some.inj h
      omega
    · obtain rfl := Option.some.inj h
      omega
    · obtain rfl := Option.some.inj h
      omega
  · intro h
    have hcount := tailCount?_ofNat h
    rwa [UInt8.ofNat_toNat] at hcount

/-! ### The bytes that make up a rune -/

theorem rune?_cons_eq_some_iff {lead : UInt8} {tails : List UInt8} {r : Char} :
    rune? (lead :: tails) = some r ↔ tailCount? lead = some tails.length ∧
      tails.all isTail = true ∧ leastOf tails.length ≤ r.toNat ∧
      tails.foldl (fun n b => n * 64 + b.toNat % 64) (leadBits lead tails.length) = r.toNat := by
  constructor
  · intro h
    unfold rune? at h
    dsimp only at h
    split_ifs at h with hranges
    simp only [Bool.and_eq_true, decide_eq_true_eq] at hranges
    obtain ⟨⟨hcount, htails⟩, hleast⟩ := hranges
    have hr := scalar?_eq_some_iff.1 h
    rw [hr]
    exact ⟨hcount, htails, hleast, rfl⟩
  · rintro ⟨hcount, htails, hleast, hbits⟩
    exact rune?_eq_some hcount htails hleast hbits

/-- The `bytes` that make up a rune `r` are its encoding. -/
theorem eq_utf8EncodeChar_of_rune? {bytes : List UInt8} {r : Char} (h : rune? bytes = some r) :
    bytes = String.utf8EncodeChar r := by
  cases bytes with
  | nil => cases h
  | cons lead tails =>
    obtain ⟨hcount, htails, hleast, hbits⟩ := rune?_cons_eq_some_iff.1 h
    have hr : r.val.toNat = r.toNat := rfl
    unfold String.utf8EncodeChar
    dsimp only
    rw [hr]
    rcases tailCount?_eq_some_iff.1 hcount with ⟨hlead, hlen⟩ | ⟨hlow, hhigh, hlen⟩ |
      ⟨hlow, hhigh, hlen⟩ | ⟨hlow, hhigh, hlen⟩
    · obtain rfl := List.length_eq_zero_iff.1 hlen
      simp only [List.foldl_nil, List.length_nil, leadBits] at hbits
      rw [if_pos (by omega), eq_ofNat_of_toNat_eq hbits]
    · obtain ⟨b, rfl⟩ := List.length_eq_one_iff.1 hlen
      simp only [List.all_cons, List.all_nil, Bool.and_true, isTail_iff] at htails
      simp only [List.foldl_cons, List.foldl_nil, List.length_singleton, leadBits, leastOf]
        at hbits hleast
      rw [if_neg (by omega), if_pos (by omega)]
      congr 1
      · exact eq_ofNat_of_toNat_eq (by omega)
      · congr 1
        exact eq_ofNat_of_toNat_eq (by omega)
    · obtain ⟨b, c, rfl⟩ := List.length_eq_two.1 hlen
      simp only [List.all_cons, List.all_nil, Bool.and_true, Bool.and_eq_true, isTail_iff] at htails
      simp only [List.foldl_cons, List.foldl_nil, hlen, leadBits, leastOf] at hbits hleast
      rw [if_neg (by omega), if_neg (by omega), if_pos (by omega)]
      congr 1
      · exact eq_ofNat_of_toNat_eq (by omega)
      congr 1
      · exact eq_ofNat_of_toNat_eq (by omega)
      · congr 1
        exact eq_ofNat_of_toNat_eq (by omega)
    · obtain ⟨b, c, d, rfl⟩ := List.length_eq_three.1 hlen
      simp only [List.all_cons, List.all_nil, Bool.and_true, Bool.and_eq_true, isTail_iff] at htails
      simp only [List.foldl_cons, List.foldl_nil, hlen, leadBits, leastOf] at hbits hleast
      rw [if_neg (by omega), if_neg (by omega), if_neg (by omega)]
      congr 1
      · exact eq_ofNat_of_toNat_eq (by omega)
      congr 1
      · exact eq_ofNat_of_toNat_eq (by omega)
      congr 1
      · exact eq_ofNat_of_toNat_eq (by omega)
      · congr 1
        exact eq_ofNat_of_toNat_eq (by omega)

/-- The `bytes` that make up a rune `r` are its encoding, and no others do. -/
theorem rune?_eq_some_iff {bytes : List UInt8} {r : Char} :
    rune? bytes = some r ↔ bytes = String.utf8EncodeChar r := by
  constructor
  · exact eq_utf8EncodeChar_of_rune?
  · rintro rfl
    exact rune?_utf8EncodeChar r

/-- Bytes in the right ranges make up a rune if their bits are the number `n` of one. -/
theorem exists_rune? {lead : UInt8} {tails : List UInt8} {n : Nat}
    (hcount : tailCount? lead = some tails.length) (htails : tails.all isTail = true)
    (hbits : tails.foldl (fun n b => n * 64 + b.toNat % 64) (leadBits lead tails.length) = n)
    (hleast : leastOf tails.length ≤ n) (hvalid : n < 0xD800 ∨ 0xDFFF < n ∧ n < 0x110000) :
    ∃ r, rune? (lead :: tails) = some r := by
  have hr : (Char.ofNat n).toNat = n := scalar?_eq_some_iff.1 (if_pos hvalid)
  refine ⟨Char.ofNat n, rune?_eq_some hcount htails ?_ ?_⟩
  · rwa [hr]
  · rw [hr, hbits]

theorem exists_rune?_of_wellFormed {seq : List UInt8} (h : WellFormed seq) :
    ∃ r, rune? seq = some r := by
  cases h with
  | @one a ha =>
    have hlead : a.toNat ≤ 0x7F := UInt8.le_iff_toNat_le.1 ha
    refine exists_rune? (tailCount?_eq_some_iff.2 (.inl ⟨hlead, rfl⟩)) rfl rfl (Nat.zero_le _) ?_
    show a.toNat < 0xD800 ∨ _
    omega
  | @two a b ha hb =>
    have hlead : 0xC2 ≤ a.toNat ∧ a.toNat ≤ 0xDF := range_iff_toNat.1 ha
    have htail : 0x80 ≤ b.toNat ∧ b.toNat ≤ 0xBF := range_iff_toNat.1 hb
    have hcount := tailCount?_eq_some_iff.2 (.inr (.inl ⟨hlead.1, hlead.2, rfl⟩))
    refine exists_rune? hcount ?_ rfl ?_ ?_
    · simpa [isTail_iff] using htail
    · simp only [List.foldl_cons, List.foldl_nil, List.length_singleton, leadBits, leastOf]
      omega
    · simp only [List.foldl_cons, List.foldl_nil, List.length_singleton, leadBits]
      omega
  | @three a b c ha hb hc hoverlong hsurrogate =>
    have hlead : 0xE0 ≤ a.toNat ∧ a.toNat ≤ 0xEF := range_iff_toNat.1 ha
    have htail₁ : 0x80 ≤ b.toNat ∧ b.toNat ≤ 0xBF := range_iff_toNat.1 hb
    have htail₂ : 0x80 ≤ c.toNat ∧ c.toNat ≤ 0xBF := range_iff_toNat.1 hc
    have hlow : a.toNat = 0xE0 → 0xA0 ≤ b.toNat := fun h =>
      UInt8.le_iff_toNat_le.1 (hoverlong (UInt8.toNat_inj.1 h))
    have hhigh : a.toNat = 0xED → b.toNat ≤ 0x9F := fun h =>
      UInt8.le_iff_toNat_le.1 (hsurrogate (UInt8.toNat_inj.1 h))
    refine exists_rune? (tailCount?_eq_some_iff.2 (.inr (.inr (.inl ⟨hlead.1, hlead.2, rfl⟩))))
      ?_ rfl ?_ ?_
    · simp [isTail_iff, htail₁, htail₂]
    · simp only [List.foldl_cons, List.foldl_nil, List.length_cons, List.length_nil, leadBits,
        leastOf]
      omega
    · simp only [List.foldl_cons, List.foldl_nil, List.length_cons, List.length_nil, leadBits]
      omega
  | @four a b c d ha hb hc hd hoverlong hbeyond =>
    have hlead : 0xF0 ≤ a.toNat ∧ a.toNat ≤ 0xF4 := range_iff_toNat.1 ha
    have htail₁ : 0x80 ≤ b.toNat ∧ b.toNat ≤ 0xBF := range_iff_toNat.1 hb
    have htail₂ : 0x80 ≤ c.toNat ∧ c.toNat ≤ 0xBF := range_iff_toNat.1 hc
    have htail₃ : 0x80 ≤ d.toNat ∧ d.toNat ≤ 0xBF := range_iff_toNat.1 hd
    have hlow : a.toNat = 0xF0 → 0x90 ≤ b.toNat := fun h =>
      UInt8.le_iff_toNat_le.1 (hoverlong (UInt8.toNat_inj.1 h))
    have hhigh : a.toNat = 0xF4 → b.toNat ≤ 0x8F := fun h =>
      UInt8.le_iff_toNat_le.1 (hbeyond (UInt8.toNat_inj.1 h))
    refine exists_rune? (tailCount?_eq_some_iff.2 (.inr (.inr (.inr ⟨hlead.1, hlead.2, rfl⟩))))
      ?_ rfl ?_ ?_
    · simp [isTail_iff, htail₁, htail₂, htail₃]
    · simp only [List.foldl_cons, List.foldl_nil, List.length_cons, List.length_nil, leadBits,
        leastOf]
      omega
    · simp only [List.foldl_cons, List.foldl_nil, List.length_cons, List.length_nil, leadBits]
      omega

theorem wellFormed_of_rune? {seq : List UInt8} {r : Char} (h : rune? seq = some r) :
    WellFormed seq := by
  cases seq with
  | nil => cases h
  | cons lead tails =>
    obtain ⟨hcount, htails, hleast, hbits⟩ := rune?_cons_eq_some_iff.1 h
    -- No rune is a surrogate, and none lies beyond U+10FFFF.
    have hvalid : r.toNat < 0xD800 ∨ 0xDFFF < r.toNat ∧ r.toNat < 0x110000 := r.valid
    rcases tailCount?_eq_some_iff.1 hcount with ⟨hlead, hlen⟩ | ⟨hlow, hhigh, hlen⟩ |
      ⟨hlow, hhigh, hlen⟩ | ⟨hlow, hhigh, hlen⟩
    · obtain rfl := List.length_eq_zero_iff.1 hlen
      exact .one (UInt8.le_iff_toNat_le.2 hlead)
    · obtain ⟨b, rfl⟩ := List.length_eq_one_iff.1 hlen
      simp only [List.all_cons, List.all_nil, Bool.and_true, isTail_iff] at htails
      exact .two (range_iff_toNat.2 ⟨hlow, hhigh⟩) (range_iff_toNat.2 htails)
    · obtain ⟨b, c, rfl⟩ := List.length_eq_two.1 hlen
      simp only [List.all_cons, List.all_nil, Bool.and_true, Bool.and_eq_true, isTail_iff] at htails
      simp only [List.foldl_cons, List.foldl_nil, hlen, leadBits, leastOf] at hbits hleast
      refine .three (range_iff_toNat.2 ⟨hlow, hhigh⟩) (range_iff_toNat.2 htails.1)
        (range_iff_toNat.2 htails.2) ?_ ?_
      · rintro rfl
        refine UInt8.le_iff_toNat_le.2 (show 0xA0 ≤ b.toNat from ?_)
        simp only [UInt8.toNat_ofNat, Nat.reducePow, Nat.reduceMod] at hbits
        omega
      · rintro rfl
        refine UInt8.le_iff_toNat_le.2 (show b.toNat ≤ 0x9F from ?_)
        simp only [UInt8.toNat_ofNat, Nat.reducePow, Nat.reduceMod] at hbits
        omega
    · obtain ⟨b, c, d, rfl⟩ := List.length_eq_three.1 hlen
      simp only [List.all_cons, List.all_nil, Bool.and_true, Bool.and_eq_true, isTail_iff] at htails
      simp only [List.foldl_cons, List.foldl_nil, hlen, leadBits, leastOf] at hbits hleast
      refine .four (range_iff_toNat.2 ⟨hlow, hhigh⟩) (range_iff_toNat.2 htails.1)
        (range_iff_toNat.2 htails.2.1) (range_iff_toNat.2 htails.2.2) ?_ ?_
      · rintro rfl
        refine UInt8.le_iff_toNat_le.2 (show 0x90 ≤ b.toNat from ?_)
        simp only [UInt8.toNat_ofNat, Nat.reducePow, Nat.reduceMod] at hbits
        omega
      · rintro rfl
        refine UInt8.le_iff_toNat_le.2 (show b.toNat ≤ 0x8F from ?_)
        simp only [UInt8.toNat_ofNat, Nat.reducePow, Nat.reduceMod] at hbits
        omega

/-- The sequences that are `WellFormed` are the encodings of single runes. -/
theorem wellFormed_iff_exists {seq : List UInt8} :
    WellFormed seq ↔ ∃ r, seq = String.utf8EncodeChar r := by
  constructor
  · intro h
    obtain ⟨r, hr⟩ := exists_rune?_of_wellFormed h
    exact ⟨r, rune?_eq_some_iff.1 hr⟩
  · rintro ⟨r, rfl⟩
    exact wellFormed_of_rune? (rune?_utf8EncodeChar r)

theorem encode_cons (r : Char) (rs : List Char) :
    encode (r :: rs) = String.utf8EncodeChar r ++ encode rs :=
  List.flatMap_cons

/-- The bytes that are `InSequences` are the encodings of rows of runes. -/
theorem inSequences_iff_exists {bs : List UInt8} : InSequences bs ↔ ∃ rs, bs = encode rs := by
  constructor
  · rintro ⟨seqs, hseqs, rfl⟩
    induction seqs with
    | nil => exact ⟨[], rfl⟩
    | cons seq seqs ih =>
      obtain ⟨r, hr⟩ := wellFormed_iff_exists.1 (hseqs seq List.mem_cons_self)
      obtain ⟨rs, hrs⟩ := ih fun q hq => hseqs q (List.mem_cons_of_mem seq hq)
      refine ⟨r :: rs, ?_⟩
      rw [List.flatten_cons, hr, hrs, encode_cons]
  · rintro ⟨rs, rfl⟩
    refine ⟨rs.map String.utf8EncodeChar, ?_, (List.flatMap_def).symm⟩
    intro seq hseq
    obtain ⟨r, -, rfl⟩ := List.mem_map.1 hseq
    exact wellFormed_iff_exists.2 ⟨r, rfl⟩

/-! ### Where no rune comes next -/

/-- A `WellFormed` sequence starts with a byte `lead` that tells how many bytes follow. -/
theorem exists_tailCount?_of_wellFormed {seq : List UInt8} (h : WellFormed seq) :
    ∃ lead tails, seq = lead :: tails ∧ tailCount? lead = some tails.length := by
  obtain ⟨r, hr⟩ := exists_rune?_of_wellFormed h
  cases seq with
  | nil => cases hr
  | cons lead tails => exact ⟨lead, tails, rfl, (rune?_cons_eq_some_iff.1 hr).1⟩

theorem noneStarts_of_tailCount?_none {lead : UInt8} {bs : List UInt8}
    (h : tailCount? lead = none) : NoneStarts (lead :: bs) := by
  rintro seq hseq hpre
  obtain ⟨lead', tails, rfl, hcount⟩ := exists_tailCount?_of_wellFormed hseq
  obtain ⟨rfl, -⟩ := List.cons_prefix_cons.1 hpre
  rw [h] at hcount
  cases hcount

/-- Too few bytes follow the first one, for which `lead` announces `n`. -/
theorem noneStarts_of_short {lead : UInt8} {bs : List UInt8} {n : Nat}
    (h : tailCount? lead = some n) (hshort : bs.length < n) : NoneStarts (lead :: bs) := by
  rintro seq hseq hpre
  obtain ⟨lead', tails, rfl, hcount⟩ := exists_tailCount?_of_wellFormed hseq
  obtain ⟨rfl, htails⟩ := List.cons_prefix_cons.1 hpre
  have hlen : n = tails.length := Option.some.inj (h.symm.trans hcount)
  have hle := htails.length_le
  omega

/-- The sequence `lead :: tails` that the first byte announces makes up no rune. -/
theorem noneStarts_of_rune?_none {lead : UInt8} {tails rest : List UInt8}
    (h : tailCount? lead = some tails.length) (hnone : rune? (lead :: tails) = none) :
    NoneStarts (lead :: (tails ++ rest)) := by
  rintro seq hseq hpre
  obtain ⟨lead', tails', rfl, hcount⟩ := exists_tailCount?_of_wellFormed hseq
  obtain ⟨rfl, htails⟩ := List.cons_prefix_cons.1 hpre
  have hlen : tails.length = tails'.length := Option.some.inj (h.symm.trans hcount)
  have heq : tails' = tails :=
    (List.prefix_of_prefix_length_le htails (List.prefix_append tails rest) hlen.ge).eq_of_length
      hlen.symm
  subst heq
  obtain ⟨r, hr⟩ := exists_rune?_of_wellFormed hseq
  rw [hnone] at hr
  cases hr

/-! ### Decoding a row of bytes -/

/-- Where the input ends before `n` more bytes, `bytes ++ bs` are the malformed ones. -/
theorem readTails_short {n : Nat} {bs : List UInt8} (h : bs.length < n) (bytes : List UInt8)
    {behind : List Signal} (hbehind : ∀ signal ∈ behind.head?, signal = .ended) :
    ∃ rest, readTails n bytes (bs.map Signal.byte ++ behind) =
      (.error (.malformed (bytes ++ bs)), rest) := by
  obtain ⟨n, rfl⟩ := Nat.exists_eq_add_of_lt h
  induction bs generalizing bytes with
  | nil =>
    rw [List.append_nil]
    cases behind with
    | nil => exact ⟨[], rfl⟩
    | cons signal behind =>
      obtain rfl := hbehind signal rfl
      exact ⟨behind, rfl⟩
  | cons b bs ih =>
    obtain ⟨rest, hrest⟩ := ih (bytes ++ [b]) (by omega)
    refine ⟨rest, ?_⟩
    rw [List.append_assoc, List.singleton_append] at hrest
    rw [List.length_cons, Nat.add_right_comm bs.length 1 n]
    exact hrest

theorem head?_replicate_ended (ends : Nat) :
    ∀ signal ∈ (List.replicate ends Signal.ended).head?, signal = .ended := by
  intro signal hsignal
  exact List.eq_of_mem_replicate (List.mem_of_mem_head? hsignal)

/-- What one decoding finds in a row of bytes: `none` if there are none, a well-formed sequence that
comes first, or bytes `bad` at the front where `NoneStarts`. -/
inductive Decoded (ends : Nat) : List UInt8 → Except Fault (Option Char) × List Signal → Prop
  | ended {rest : List Signal} : Decoded ends [] (.ok none, rest)
  | rune (r : Char) (bs : List UInt8) : Decoded ends (String.utf8EncodeChar r ++ bs)
      (.ok (some r), bs.map .byte ++ List.replicate ends .ended)
  | malformed (bad bs : List UInt8) {rest : List Signal} (hne : bad ≠ []) (hlen : bad.length ≤ 4)
      (hnone : NoneStarts (bad ++ bs)) : Decoded ends (bad ++ bs) (.error (.malformed bad), rest)

theorem decode_bytes (bs : List UInt8) (ends : Nat) :
    Decoded ends bs (decode (bs.map Signal.byte ++ List.replicate ends .ended)) := by
  cases bs with
  | nil =>
    cases ends with
    | zero => exact .ended
    | succ ends => exact .ended
  | cons lead bs =>
    have hread : ByteSource.read ((lead :: bs).map Signal.byte ++ List.replicate ends .ended) =
        (.byte lead, bs.map Signal.byte ++ List.replicate ends .ended) := rfl
    rw [decode, hread]
    dsimp only
    cases hcount : tailCount? lead with
    | none =>
      exact .malformed [lead] bs (by simp) (by simp) (noneStarts_of_tailCount?_none hcount)
    | some n =>
      have hn : n ≤ 3 := by
        have h := tailCount?_eq_some_iff.1 hcount
        omega
      dsimp only
      rcases Nat.lt_or_ge bs.length n with hshort | hlong
      · obtain ⟨rest, htails⟩ := readTails_short hshort [lead] (head?_replicate_ended ends)
        have hnone : NoneStarts (lead :: bs ++ []) := by
          rw [List.append_nil]
          exact noneStarts_of_short hcount hshort
        have h : Decoded ends (lead :: bs ++ []) (.error (.malformed (lead :: bs)), rest) :=
          .malformed (lead :: bs) [] (by simp) (by rw [List.length_cons]; omega) hnone
        rw [List.append_nil] at h
        rw [htails]
        exact h
      · -- Enough bytes follow, and it is they that are checked.
        obtain ⟨tails, rest, rfl, rfl⟩ : ∃ tails rest, bs = tails ++ rest ∧ n = tails.length :=
          ⟨bs.take n, bs.drop n, (List.take_append_drop n bs).symm, by
            rw [List.length_take, Nat.min_eq_left hlong]⟩
        rw [List.map_append, List.append_assoc, readTails_bytes]
        dsimp only [List.singleton_append, checked]
        cases hr : rune? (lead :: tails) with
        | none =>
          exact .malformed (lead :: tails) rest (by simp) (by rw [List.length_cons]; omega)
            (noneStarts_of_rune?_none hcount hr)
        | some r =>
          have h : Decoded ends (String.utf8EncodeChar r ++ rest) _ := .rune r rest
          rwa [← rune?_eq_some_iff.1 hr] at h

end Utf8

namespace Cursor

/-! ### Reading every rune -/

section

variable {σ : Type} [ByteSource σ]

/-- Passes runes by `nextRune` until there is none or an error ends it: the runes passed, and the
error. -/
def readAll (c : Cursor σ) : List Char × Option LexError :=
  match _h : nextRune.run c with
  | (.ok (some r), c') => (r :: (readAll c').1, (readAll c').2)
  | (.ok none, _) => ([], none)
  | (.error e, _) => ([], some e)
termination_by c.size
decreasing_by all_goals exact size_nextRune_lt _h

variable {c c' : Cursor σ}

theorem readAll_of_some {r : Char} (h : nextRune.run c = (.ok (some r), c')) :
    c.readAll = (r :: c'.readAll.1, c'.readAll.2) := by
  rw [readAll]
  split
  next r' c₁ hrun => cases h.symm.trans hrun; rfl
  next c₁ hrun => cases h.symm.trans hrun
  next e c₁ hrun => cases h.symm.trans hrun

theorem readAll_of_none (h : nextRune.run c = (.ok none, c')) : c.readAll = ([], none) := by
  rw [readAll]
  split
  next r' c₁ hrun => cases h.symm.trans hrun
  next c₁ hrun => rfl
  next e c₁ hrun => cases h.symm.trans hrun

theorem readAll_of_error {e : LexError} (h : nextRune.run c = (.error e, c')) :
    c.readAll = ([], some e) := by
  rw [readAll]
  split
  next r' c₁ hrun => cases h.symm.trans hrun
  next c₁ hrun => cases h.symm.trans hrun
  next e' c₁ hrun => cases h.symm.trans hrun; rfl

/-- With no `lookahead`, the next rune is the one that the source decodes to. -/
theorem nextRune_of_nil (s : σ) (caret : Caret) :
    nextRune.run ⟨s, caret, []⟩ =
      match Utf8.decode s with
      | (.ok (some r), s') => (.ok (some r), ⟨s', caret.advance r, []⟩)
      | (.ok none, s') => (.ok none, ⟨s', caret, []⟩)
      | (.error fault, s') => (.error (fault.at caret.toPosition), ⟨s', caret, []⟩) := by
  unfold Scan.run nextRune
  dsimp only
  unfold Scan.run decode
  dsimp only
  match Utf8.decode s with
  | (.ok (some r), s') => rfl
  | (.ok none, s') => rfl
  | (.error fault, s') => rfl

end

/-- A cursor in front of the bytes `bs` reads them to their end, or to where no rune comes next. -/
theorem readAll_bytes {s : Source} {caret : Caret} {bs : List UInt8} {ends : Nat}
    (hsignals : s.signals = bs.map .byte ++ List.replicate ends .ended)
    {read : List Char × Option LexError} (hread : Cursor.readAll ⟨s, caret, []⟩ = read) :
    (read.2 = none ∧ bs = Utf8.encode read.1) ∨
      ∃ bad rest, read.2 = some (.invalidUtf8 (caret.toPosition.advanceAll read.1) bad) ∧
        bad ≠ [] ∧ bad.length ≤ 4 ∧ bs = Utf8.encode read.1 ++ (bad ++ rest) ∧
        Utf8.NoneStarts (bad ++ rest) := by
  induction hsize : Cursor.size ⟨s, caret, []⟩ using Nat.strong_induction_on
    generalizing s caret bs read with
  | h size ih =>
    have hnext := nextRune_of_nil s caret
    have hdec := Utf8.decode_bytes bs ends
    rw [← hsignals, s.decode_signals] at hdec
    match hd : Utf8.decode s with
    | (outcome, s') =>
      rw [hd] at hnext hdec
      dsimp only at hdec
      generalize hsig : s'.signals = signals at hdec
      cases hdec with
      | ended =>
        left
        rw [← hread, readAll_of_none hnext]
        exact ⟨rfl, rfl⟩
      | malformed bad rest hne hlen hnone =>
        right
        rw [← hread, readAll_of_error hnext]
        exact ⟨bad, rest, rfl, hne, hlen, rfl, hnone⟩
      | rune r bs =>
        have hlt : Cursor.size ⟨s', caret.advance r, []⟩ < size := hsize ▸ size_nextRune_lt hnext
        rw [readAll_of_some hnext] at hread
        subst hread
        rcases ih _ hlt hsig rfl rfl with ⟨hnone, hbs⟩ | ⟨bad, rest, herror, hne, hlen, hbs, hnone⟩
        · left
          refine ⟨hnone, ?_⟩
          rw [Utf8.encode_cons, ← hbs]
        · right
          refine ⟨bad, rest, ?_, hne, hlen, ?_, hnone⟩
          · rw [herror, Caret.toPosition_advance, Position.advanceAll_cons]
          · rw [Utf8.encode_cons, List.append_assoc, ← hbs]

/-- A text `rs` is read to its end. -/
theorem Holds.readAll {c : Cursor Source} {rs : List Char} (h : c.Holds rs) :
    c.readAll = (rs, none) := by
  induction rs generalizing c with
  | nil =>
    obtain ⟨c', hnext, -⟩ := Scan.Yields.nextRune_nil c h
    exact readAll_of_none hnext
  | cons r rs ih =>
    obtain ⟨c', hnext, hc'⟩ := Scan.Yields.nextRune_cons r c h
    rw [readAll_of_some hnext, ih hc']

/-- A cursor `Holds` one text only. -/
theorem Holds.unique {c : Cursor Source} {rs rs' : List Char} (h : c.Holds rs) (h' : c.Holds rs') :
    rs = rs' :=
  (Prod.mk.inj (h.readAll.symm.trans h'.readAll)).1

/-- A fresh cursor in front of bytes that arrive through a buffer of `capacity` bytes. -/
def ofBytes (bs : List UInt8) (capacity : Nat) : Cursor Source :=
  { source := .ofEvents [.chunk bs] capacity }

theorem signals_ofBytes (bs : List UInt8) (capacity : Nat) :
    ∃ ends, (ofBytes bs capacity).source.signals = bs.map .byte ++ List.replicate ends .ended := by
  cases bs with
  | nil => exact ⟨1, rfl⟩
  | cons b bs =>
    refine ⟨0, ?_⟩
    show [].map Signal.byte ++ ((b :: bs).map Signal.byte ++ []) = _
    rw [List.replicate_zero]
    rfl

theorem holds_ofBytes_encode (rs : List Char) (capacity : Nat) :
    (ofBytes (Utf8.encode rs) capacity).Holds rs := by
  obtain ⟨ends, h⟩ := signals_ofBytes (Utf8.encode rs) capacity
  exact ⟨rs, ⟨ends, h⟩, rfl⟩

/-- Bytes `bs` are read to their end, of which they are the encoding of the runes read, or to the
first place where no `WellFormed` sequence comes next, at which the error points.  What encodes a
text is read as that text, and nothing is read to its end but what is `InSequences`. -/
theorem readAll_ofBytes (bs : List UInt8) (capacity : Nat) :
    let read := (ofBytes bs capacity).readAll
    ((read.2 = none ∧ Utf8.encode read.1 = bs) ∨
      ∃ bad rest, read.2 = some (.invalidUtf8 (.after read.1) bad) ∧ bad ≠ [] ∧ bad.length ≤ 4 ∧
        bs = Utf8.encode read.1 ++ (bad ++ rest) ∧ Utf8.NoneStarts (bad ++ rest)) ∧
    (∀ rs, bs = Utf8.encode rs → read = (rs, none)) ∧
    (read.2 = none ↔ Utf8.InSequences bs) := by
  intro read
  obtain ⟨ends, hsignals⟩ := signals_ofBytes bs capacity
  have hstrict := readAll_bytes hsignals (rfl : (ofBytes bs capacity).readAll = read)
  have hencoded : ∀ rs, bs = Utf8.encode rs → read = (rs, none) := by
    rintro rs rfl
    exact (holds_ofBytes_encode rs capacity).readAll
  refine ⟨hstrict.imp_left fun h => ⟨h.1, h.2.symm⟩, hencoded, ?_, ?_⟩
  · intro hnone
    rcases hstrict with ⟨-, hbs⟩ | ⟨bad, rest, herror, -⟩
    · exact Utf8.inSequences_iff_exists.2 ⟨read.1, hbs⟩
    · rw [hnone] at herror
      cases herror
  · intro hseqs
    obtain ⟨rs, hrs⟩ := Utf8.inSequences_iff_exists.1 hseqs
    rw [hencoded rs hrs]

/-- The surrogate `[0xED, 0xA0, 0x80]` ends the reading behind the letter before it. -/
example : (ofBytes [0x61, 0xED, 0xA0, 0x80, 0x62] 2).readAll =
    (['a'], some (.invalidUtf8 ⟨1, 1⟩ [0xED, 0xA0, 0x80])) := by
  cbv

end Cursor

end LexStream
