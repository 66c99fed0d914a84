import LexStream.Proofs.Outcomes
import LexStream.Proofs.StrictDecoding

/-!
# The bytes of a source

A source takes bytes from its reader, as many at once as its buffer holds, and hands them on one by
one.  So the bytes that the reader has given are those that were handed on and those that wait in
the buffer.

`Source.Hands s n s'` says that `n` bytes left the buffer between two states of a source.

Main facts:

* `Source.hands_read`, `Source.fits_read`: what a read takes from the buffer, and puts there;
* `Source.hands_trace`: decodings without a fault take the bytes of their runes from the buffer.
-/

namespace LexStream

/-- The number of bytes that a signal brings: one for a `byte`. -/
def Signal.bytes : Signal → Nat
  | .byte _ => 1
  | .ended => 0
  | .failed _ => 0

namespace Source

/-- From one state of a source to another, `n` bytes left the buffer: those that came from the
reader and are not buffered, with those that were buffered before. -/
def Hands (s : Source) (n : Nat) (s' : Source) : Prop :=
  s'.pulled + s.buffered.length = s.pulled + n + s'.buffered.length

/-- The source has a buffer of `capacity` bytes, of which one is free at least: the byte that is
asked for leaves it at once. -/
structure Fits (capacity : Nat) (s : Source) : Prop where
  capacity_eq : s.capacity = capacity
  buffered_lt : s.buffered.length < capacity

variable {s s' s'' : Source} {m n : Nat}

theorem Hands.refl (s : Source) : s.Hands 0 s :=
  rfl

theorem Hands.trans (h : s.Hands m s') (h' : s'.Hands n s'') : s.Hands (m + n) s'' := by
  unfold Hands at *
  omega

/-! ### Reads -/

theorem hands_refill (s : Source) (hs : s.buffered = []) (events : List ReadEvent) :
    s.Hands (s.refill events).1.bytes (s.refill events).2 := by
  fun_induction refill s events with
  | case1 s => exact rfl
  | case2 s events => exact rfl
  | case3 s b bs events room rest kept =>
    show s.pulled + 1 + kept.length + s.buffered.length = s.pulled + 1 + kept.length
    rw [hs, List.length_nil, Nat.add_zero]
  | case4 s f events hf ih => exact ih hs
  | case5 s f events hf => exact rfl
  | case6 s events ih => exact ih hs

/-- A `read` takes the byte that it gives from the buffer, and no other. -/
theorem hands_read (s : Source) : s.Hands s.read.1.bytes s.read.2 := by
  unfold read
  split
  next b bs hb =>
    show s.pulled + s.buffered.length = s.pulled + 1 + bs.length
    rw [hb, List.length_cons]
    omega
  next hb => exact s.hands_refill hb s.events

theorem fits_refill {capacity : Nat} (h : s.Fits capacity) (hs : s.buffered = [])
    (events : List ReadEvent) : (s.refill events).2.Fits capacity := by
  fun_induction refill s events with
  | case1 s => exact ⟨h.capacity_eq, h.buffered_lt⟩
  | case2 s events => exact ⟨h.capacity_eq, h.buffered_lt⟩
  | case3 s b bs events room rest kept =>
    -- The buffer was empty and is filled, and the byte that the read gives is not kept.
    refine ⟨h.capacity_eq, ?_⟩
    have hpos := h.buffered_lt
    have hroom : room = capacity - 1 := congrArg (· - 1) h.capacity_eq
    have hkept : kept.length ≤ room := List.length_take_le _ _
    show kept.length < capacity
    omega
  | case4 s f events hf ih => exact ih h hs
  | case5 s f events hf => exact ⟨h.capacity_eq, h.buffered_lt⟩
  | case6 s events ih => exact ih ⟨h.capacity_eq, h.buffered_lt⟩ hs

/-- A `read` fills the buffer no further than `capacity` allows, and takes a byte from it. -/
theorem fits_read {capacity : Nat} {signal : Signal} (h : s.Fits capacity)
    (hread : ByteSource.read s = (signal, s')) : s'.Fits capacity := by
  change s.read = _ at hread
  unfold read at hread
  split at hread
  next b bs hb =>
    cases hread
    refine ⟨h.capacity_eq, Nat.lt_of_succ_lt ?_⟩
    have hlt := h.buffered_lt
    rwa [hb, List.length_cons] at hlt
  next hb =>
    have hfits := fits_refill h hb s.events
    rwa [hread] at hfits

theorem fits_ofEvents (events : List ReadEvent) (capacity : Nat) :
    (ofEvents events capacity).Fits (max 1 capacity) :=
  ⟨rfl, Nat.le_max_left 1 capacity⟩

/-! ### Decodings -/

theorem hands_readTails {n : Nat} {bytes bytes' : List UInt8}
    (h : Utf8.readTails n bytes s = (.ok bytes', s')) :
    bytes'.length = bytes.length + n ∧ s.Hands n s' := by
  induction n generalizing bytes s with
  | zero => cases h; exact ⟨rfl, .refl _⟩
  | succ n ih =>
    have hhands := s.hands_read
    unfold Utf8.readTails at h
    split at h
    next b s₁ hread =>
      have hs₁ : s.read = (.byte b, s₁) := hread
      rw [hs₁] at hhands
      obtain ⟨hlen, hrest⟩ := ih h
      rw [List.length_append, List.length_singleton] at hlen
      exact ⟨by omega, Nat.add_comm 1 n ▸ hhands.trans hrest⟩
    next => cases h
    next => cases h

/-- A decoding that gives `r?` and comes to no fault takes the bytes of this rune from the buffer,
or none at the end. -/
theorem hands_decode {r? : Option Char} (h : Utf8.decode s = (.ok r?, s')) :
    s.Hands (Utf8.encode r?.toList).length s' := by
  have hhands := s.hands_read
  unfold Utf8.decode at h
  split at h
  next s₁ hread =>
    cases h
    have hs₁ : s.read = (.ended, s') := hread
    rwa [hs₁] at hhands
  next => cases h
  next lead s₁ hread =>
    have hs₁ : s.read = (.byte lead, s₁) := hread
    rw [hs₁] at hhands
    split at h
    next => cases h
    next n hcount =>
      split at h
      next bytes s₂ htails =>
        obtain ⟨hlen, hrest⟩ := hands_readTails htails
        obtain ⟨hchecked, rfl⟩ := Prod.mk.inj h
        unfold Utf8.checked at hchecked
        split at hchecked
        next r hr =>
          cases hchecked
          -- Only the encoding of a rune makes up that rune, so as many bytes were read.
          have hbytes : bytes = Utf8.encode [r] := by
            rw [Utf8.eq_utf8EncodeChar_of_rune? hr, Utf8.encode, List.flatMap_singleton]
          have hcount : (Utf8.encode [r]).length = 1 + n := hbytes ▸ hlen
          exact hcount ▸ hhands.trans hrest
        next => cases hchecked
      next => cases h

/-- Decodings with the outcomes `os`, none of them a fault, take the bytes of their runes from the
buffer. -/
theorem hands_trace {os : List (Except Utf8.Fault (Option Char))} (h : Utf8.Trace s os s')
    (hos : Utf8.Faultless os) : s.Hands (Utf8.encode (os.flatMap Utf8.given)).length s' := by
  induction h with
  | refl s => exact .refl s
  | @step s s₁ s' outcome os hd _ ih =>
    have hrest := ih fun fault hmem => hos fault (List.mem_cons_of_mem _ hmem)
    have hencode : Utf8.encode ((outcome :: os).flatMap Utf8.given) =
        Utf8.encode (Utf8.given outcome) ++ Utf8.encode (os.flatMap Utf8.given) := by
      rw [List.flatMap_cons, Utf8.encode, List.flatMap_append]
      rfl
    rw [hencode, List.length_append]
    match outcome with
    | .error fault => exact absurd List.mem_cons_self (hos fault)
    | .ok none => exact (hands_decode hd).trans hrest
    | .ok (some r) => exact (hands_decode hd).trans hrest

end Source

end LexStream
