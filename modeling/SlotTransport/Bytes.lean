/-
Byte strings and the fixed-width words stored in them, least significant byte
first. `wordValue_wordBytes` and `wordBytes_wordValue` say that words and their
bytes determine each other.
-/

namespace SlotTransport

/-- A run of bytes. -/
abbrev Bytes := List UInt8

namespace Bytes

/-- The `width` low bytes of `n`, least significant first. -/
def wordBytes : (width : Nat) → (n : Nat) → Bytes
  | 0, _ => []
  | width + 1, n => UInt8.ofNat n :: wordBytes width (n / 256)

/-- The number that `bs` spells, least significant byte first. -/
def wordValue : (bs : Bytes) → Nat
  | [] => 0
  | b :: bs => b.toNat + 256 * wordValue bs

/-- How many numbers `width` bytes can spell. -/
def wordLimit : (width : Nat) → Nat
  | 0 => 1
  | width + 1 => 256 * wordLimit width

@[simp] theorem length_wordBytes (width n : Nat) : (wordBytes width n).length = width := by
  induction width generalizing n with
  | zero => rfl
  | succ width ih => simp [wordBytes, ih]

theorem wordValue_wordBytes (width n : Nat) :
    wordValue (wordBytes width n) = n % wordLimit width := by
  induction width generalizing n with
  | zero => simp [wordBytes, wordValue, wordLimit, Nat.mod_one]
  | succ width ih =>
    rw [wordBytes, wordValue, ih, wordLimit, Nat.mod_mul, UInt8.toNat_ofNat']

theorem wordValue_lt (bs : Bytes) : wordValue bs < wordLimit bs.length := by
  induction bs with
  | nil => simp [wordValue, wordLimit]
  | cons b bs ih =>
    have hb : b.toNat < 256 := b.toNat_lt
    rw [wordValue, List.length_cons, wordLimit]
    omega

theorem wordBytes_wordValue (bs : Bytes) : wordBytes bs.length (wordValue bs) = bs := by
  induction bs with
  | nil => rfl
  | cons b bs ih =>
    have hb : b.toNat < 256 := b.toNat_lt
    have hdiv : (b.toNat + 256 * wordValue bs) / 256 = wordValue bs := by omega
    have hmod : UInt8.ofNat (b.toNat + 256 * wordValue bs) = b := by
      apply UInt8.toNat.inj
      simp only [UInt8.toNat_ofNat']
      omega
    rw [List.length_cons, wordValue, wordBytes, hdiv, hmod, ih]

/-- The `len` bytes from `offset` on, or as many of them as there are. -/
def slice (bs : Bytes) (offset len : Nat) : Bytes :=
  (bs.drop offset).take len

/-- The word of `width` bytes stored at `offset`. -/
def wordAt (bs : Bytes) (offset width : Nat) : Nat :=
  wordValue (bs.slice offset width)

def zeros (len : Nat) : Bytes :=
  List.replicate len 0

/-- The first `len` bytes of `bs` followed by zeros without end. -/
def zeroExtended (bs : Bytes) (len : Nat) : Bytes :=
  bs.take len ++ zeros (len - bs.length)

@[simp] theorem length_zeroExtended (bs : Bytes) (len : Nat) :
    (bs.zeroExtended len).length = len := by
  simp only [zeroExtended, zeros, List.length_append, List.length_take, List.length_replicate]
  omega

end Bytes

end SlotTransport
