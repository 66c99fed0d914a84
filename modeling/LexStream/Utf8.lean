import LexStream.ByteSource
import LexStream.Text.Scalar

/-!
# UTF-8

How a rune is decoded from a byte source.  The first byte tells how many bytes follow it; they are
read one by one and must make up a well-formed sequence: no overlong form, no surrogate, nothing
beyond U+10FFFF.

Main facts: decoding a rune makes the source smaller (`Utf8.size_decode_lt`), and no decoding makes
it larger (`Utf8.size_decode_le`).
-/

namespace LexStream.Utf8

/-! ### Sequences -/

/-- The number of bytes that follow the byte `lead` in a sequence, if it can start one. -/
def tailCount? (lead : UInt8) : Option Nat :=
  if lead ≤ 0x7F then some 0
  else if 0xC2 ≤ lead && lead ≤ 0xDF then some 1
  else if 0xE0 ≤ lead && lead ≤ 0xEF then some 2
  else if 0xF0 ≤ lead && lead ≤ 0xF4 then some 3
  else none

/-- Whether the byte `b` can follow the first one of a sequence, `0x80 ≤ b ≤ 0xBF`. -/
def isTail (b : UInt8) : Bool :=
  0x80 ≤ b && b ≤ 0xBF

/-- The bits of the number that the first byte of a sequence with `tails` more bytes holds. -/
def leadBits (lead : UInt8) (tails : Nat) : Nat :=
  match tails with
  | 0 => lead.toNat
  | 1 => lead.toNat % 0x20
  | 2 => lead.toNat % 0x10
  | _ => lead.toNat % 0x08

/-- The least number that needs `tails` bytes after the first one. -/
def leastOf (tails : Nat) : Nat :=
  match tails with
  | 0 => 0
  | 1 => 0x80
  | 2 => 0x800
  | _ => 0x10000

/-- The rune that the bytes make up, if they are one well-formed sequence: as many tail bytes as
`tailCount?` asks for behind the lead byte, in the shortest form, and a Unicode scalar value. -/
def rune? : List UInt8 → Option Char
  | [] => none
  | lead :: tails =>
    let n := tails.foldl (fun n b => n * 64 + b.toNat % 64) (leadBits lead tails.length)
    if tailCount? lead = some tails.length && tails.all isTail && leastOf tails.length ≤ n then
      Text.scalar? n
    else none

/-- The bytes of a row of runes `rs`. -/
def encode (rs : List Char) : List UInt8 :=
  rs.flatMap String.utf8EncodeChar

/-! ### Decoding from a source -/

/-- What keeps `decode` from giving a rune. -/
inductive Fault where
  /-- The read of a byte failed with `failure`. -/
  | readFailed (failure : ReadFailure)
  /-- The `bytes` start no well-formed sequence, or the input ended after them. -/
  | malformed (bytes : List UInt8)
deriving DecidableEq, Inhabited

variable {σ : Type} [ByteSource σ]

/-- Reads `n` more bytes behind `bytes`. -/
def readTails : Nat → List UInt8 → σ → Except Fault (List UInt8) × σ
  | 0, bytes, s => (.ok bytes, s)
  | n + 1, bytes, s =>
    match ByteSource.read s with
    | (.byte b, s') => readTails n (bytes ++ [b]) s'
    | (.ended, s') => (.error (.malformed bytes), s')
    | (.failed f, s') => (.error (.readFailed f), s')

/-- The rune `rune? bytes` that a complete sequence stands for, or a `malformed` fault. -/
def checked (bytes : List UInt8) : Except Fault (Option Char) :=
  match rune? bytes with
  | some r => .ok (some r)
  | none => .error (.malformed bytes)

/-- Decodes the next rune of the source `s`; `none` at the end of the input.  The bytes of a
sequence that does not decode are gone. -/
def decode (s : σ) : Except Fault (Option Char) × σ :=
  match ByteSource.read s with
  | (.ended, s') => (.ok none, s')
  | (.failed f, s') => (.error (.readFailed f), s')
  | (.byte lead, s') =>
    match tailCount? lead with
    | none => (.error (.malformed [lead]), s')
    | some n =>
      match readTails n [lead] s' with
      | (.ok bytes, s'') => (checked bytes, s'')
      | (.error e, s'') => (.error e, s'')

/-! ### Decoding makes a source smaller -/

theorem size_readTails_le (n : Nat) (bytes : List UInt8) (s : σ) :
    ByteSource.size (readTails n bytes s).2 ≤ ByteSource.size s := by
  induction n generalizing bytes s with
  | zero => exact Nat.le_refl _
  | succ n ih =>
    have h := ByteSource.size_read_le s
    unfold readTails
    split
    next b s' hs => rw [hs] at h; exact Nat.le_trans (ih _ _) h
    next s' hs => rw [hs] at h; exact h
    next f s' hs => rw [hs] at h; exact h

theorem size_decode_le (s : σ) : ByteSource.size (decode s).2 ≤ ByteSource.size s := by
  have h := ByteSource.size_read_le s
  unfold decode
  split
  next s' hs => rw [hs] at h; exact h
  next f s' hs => rw [hs] at h; exact h
  next lead s' hs =>
    rw [hs] at h
    split
    · exact h
    next n _ =>
      have ht := size_readTails_le n [lead] s'
      split
      next bytes s'' hb => rw [hb] at ht; exact Nat.le_trans ht h
      next e s'' hb => rw [hb] at ht; exact Nat.le_trans ht h

theorem size_decode_lt {s s' : σ} {r : Char} (h : decode s = (.ok (some r), s')) :
    ByteSource.size s' < ByteSource.size s := by
  unfold decode at h
  split at h
  · cases h
  · cases h
  next lead s₁ hs =>
    have hlt := ByteSource.size_read_lt hs
    split at h
    · cases h
    next n _ =>
      have ht := size_readTails_le n [lead] s₁
      split at h
      next bytes s₂ hb =>
        rw [hb] at ht
        obtain rfl : s₂ = s' := congrArg Prod.snd h
        exact Nat.lt_of_le_of_lt ht hlt
      next e s₂ hb => cases h

end LexStream.Utf8
