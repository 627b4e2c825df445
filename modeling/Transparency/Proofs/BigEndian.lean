import Mathlib.Tactic.Ring
import Transparency.Wire.Decoder
import Transparency.Wire.Encoder

/-! Numbers as bytes, most significant first.

`digits` and `bigEndian` are inverse to each other between the numbers below `256 ^ width` and the
byte strings of length `width`. A word that takes bytes in from the right holds their number as long as
they are no more than eight (`toNat_foldl_pushByte`), and the bytes that an encoder cuts out of a word are
its digits (`wordBytes_drop`). The length of a field is as wide as its maximum needs
(`bytesNeeded_le_iff`). -/
namespace Transparency.Wire

/-- The number that bytes denote. -/
def bigEndian : Bytes → Nat
  | [] => 0
  | byte :: rest => byte.toNat * 256 ^ rest.length + bigEndian rest

/-- The last `width` digits of `n` to the base 256. -/
def digits : (width : Nat) → (n : Nat) → Bytes
  | 0, _ => []
  | width + 1, n => UInt8.ofNat (n / 256 ^ width) :: digits width n

@[simp] theorem length_digits (width n : Nat) : (digits width n).length = width := by
  induction width with
  | zero => rfl
  | succ width ih => rw [digits, List.length_cons, ih]

theorem bigEndian_lt (bytes : Bytes) : bigEndian bytes < 256 ^ bytes.length := by
  induction bytes with
  | nil => simp [bigEndian]
  | cons byte rest ih =>
    have digit : byte.toNat + 1 ≤ 256 := UInt8.toNat_lt byte
    have scaled := Nat.mul_le_mul_right (256 ^ rest.length) digit
    rw [bigEndian, List.length_cons, Nat.pow_succ']
    rw [Nat.add_one_mul] at scaled
    omega

/-! ### Inverses -/

theorem bigEndian_digits_mod (width n : Nat) : bigEndian (digits width n) = n % 256 ^ width := by
  induction width with
  | zero => simp [digits, bigEndian, Nat.mod_one]
  | succ width ih =>
    have top : (UInt8.ofNat (n / 256 ^ width)).toNat = n / 256 ^ width % 256 := UInt8.toNat_ofNat'
    rw [digits, bigEndian, length_digits, ih, top, Nat.mod_pow_succ]
    ring

theorem bigEndian_digits {width n : Nat} (h : n < 256 ^ width) : bigEndian (digits width n) = n := by
  rw [bigEndian_digits_mod, Nat.mod_eq_of_lt h]

/-- What is a multiple of `256 ^ width` is not seen in the last `width` digits. -/
theorem digits_add_mul (width high low : Nat) :
    digits width (high * 256 ^ width + low) = digits width low := by
  induction width generalizing high with
  | zero => rfl
  | succ width ih =>
    have shifted : high * 256 ^ (width + 1) + low = high * 256 * 256 ^ width + low := by ring
    have top : (high * 256 * 256 ^ width + low) / 256 ^ width = high * 256 + low / 256 ^ width := by
      rw [Nat.add_comm, Nat.add_mul_div_right _ _ (Nat.pow_pos (by decide)), Nat.add_comm]
    rw [digits, digits, shifted, ih, top]
    congr 1
    apply UInt8.toNat_inj.mp
    rw [UInt8.toNat_ofNat', UInt8.toNat_ofNat', Nat.add_comm, Nat.add_mul_mod_self_right]

theorem digits_bigEndian (bytes : Bytes) : digits bytes.length (bigEndian bytes) = bytes := by
  induction bytes with
  | nil => rfl
  | cons byte rest ih =>
    have top : (byte.toNat * 256 ^ rest.length + bigEndian rest) / 256 ^ rest.length = byte.toNat := by
      rw [Nat.add_comm, Nat.add_mul_div_right _ _ (Nat.pow_pos (by decide)),
        Nat.div_eq_of_lt (bigEndian_lt rest), Nat.zero_add]
    rw [bigEndian, List.length_cons, digits, top, digits_add_mul, ih, UInt8.ofNat_toNat]

theorem eq_digits_of_bigEndian {bytes : Bytes} {width n : Nat} (length : bytes.length = width)
    (value : bigEndian bytes = n) : bytes = digits width n := by
  rw [← length, ← value, digits_bigEndian]

/-! ### Widths of lengths -/

theorem bitLength_le_iff {n bits : Nat} : bitLength n ≤ bits ↔ n < 2 ^ bits := by
  by_cases zero : n = 0
  · rw [bitLength, if_pos zero, zero]
    exact ⟨fun _ => Nat.two_pow_pos bits, fun _ => Nat.zero_le bits⟩
  · rw [bitLength, if_neg zero]
    exact Nat.log2_lt zero

/-- A width is enough for a maximum as soon as the maximum itself fits it. -/
theorem bytesNeeded_le_iff {max : UInt64} {width : Nat} :
    bytesNeeded max ≤ width ↔ max.toNat < 256 ^ width := by
  have bits : bytesNeeded max ≤ width ↔ bitLength max.toNat ≤ 8 * width := by
    unfold bytesNeeded
    omega
  rw [bits, bitLength_le_iff, Nat.pow_mul]

theorem bytesNeeded_le (max : UInt64) : bytesNeeded max ≤ maxNumberWidth :=
  bytesNeeded_le_iff.2 (UInt64.toNat_lt max)

/-- Every length up to `max` fits the field of its length. -/
theorem lt_pow_bytesNeeded {max : UInt64} {length : Nat} (h : length ≤ max.toNat) :
    length < 256 ^ bytesNeeded max :=
  Nat.lt_of_le_of_lt h (bytesNeeded_le_iff.1 (Nat.le_refl _))

/-! ### In words -/

/-- A word after one more byte. -/
def pushByte (value : UInt64) (byte : UInt8) : UInt64 := (value <<< 8) ||| byte.toUInt64

theorem toNat_pushByte (value : UInt64) (byte : UInt8) (h : value.toNat < 256 ^ 7) :
    (pushByte value byte).toNat = value.toNat * 256 + byte.toNat := by
  have shift : (8 : UInt64).toNat % 64 = 8 := rfl
  have byte_lt : byte.toNat < 2 ^ 8 := UInt8.toNat_lt byte
  rw [pushByte, UInt64.toNat_or, UInt64.toNat_shiftLeft, UInt8.toNat_toUInt64, shift,
    Nat.mod_eq_of_lt (by rw [Nat.shiftLeft_eq]; omega), ← Nat.shiftLeft_add_eq_or_of_lt byte_lt,
    Nat.shiftLeft_eq]

/-- `width` counts the bytes that are in the word already: no bit falls out up to eight. -/
theorem toNat_foldl_pushByte (bytes : Bytes) (value : UInt64) (width : Nat)
    (h : value.toNat < 256 ^ width) (room : width + bytes.length ≤ 8) :
    (bytes.foldl pushByte value).toNat = value.toNat * 256 ^ bytes.length + bigEndian bytes := by
  induction bytes generalizing value width with
  | nil => simp [bigEndian]
  | cons byte rest ih =>
    rw [List.length_cons] at room
    have small : value.toNat < 256 ^ 7 :=
      Nat.lt_of_lt_of_le h (Nat.pow_le_pow_right (by decide) (by omega))
    have pushed := toNat_pushByte value byte small
    have next : (pushByte value byte).toNat < 256 ^ (width + 1) := by
      have digit := UInt8.toNat_lt byte
      rw [pushed, Nat.pow_succ]
      omega
    rw [List.foldl_cons, ih _ (width + 1) next (by omega), pushed, bigEndian, List.length_cons]
    ring

theorem toNat_foldl_pushByte_zero {bytes : Bytes} (h : bytes.length ≤ maxNumberWidth) :
    (bytes.foldl pushByte 0).toNat = bigEndian bytes := by
  have folded := toNat_foldl_pushByte bytes 0 0 (by decide) (by rwa [Nat.zero_add])
  rw [folded, UInt64.toNat_zero, Nat.zero_mul, Nat.zero_add]

theorem toNat_ofNat_bigEndian {bytes : Bytes} (h : bytes.length ≤ maxNumberWidth) :
    (UInt64.ofNat (bigEndian bytes)).toNat = bigEndian bytes := by
  rw [← toNat_foldl_pushByte_zero h, UInt64.ofNat_toNat]

theorem drop_digits (extra width n : Nat) :
    (digits (extra + width) n).drop extra = digits width n := by
  induction extra with
  | zero => rw [Nat.zero_add, List.drop_zero]
  | succ extra ih => rw [Nat.succ_add, digits, List.drop_succ_cons, ih]

theorem wordBytes_eq (value : UInt64) : Encoder.wordBytes value = digits 8 value.toNat := by
  have byte (shift : UInt64) : (value >>> shift).toUInt8 =
      UInt8.ofNat (value.toNat / 2 ^ (shift.toNat % 64)) := by
    apply UInt8.toNat_inj.mp
    rw [UInt64.toNat_toUInt8, UInt64.toNat_shiftRight, Nat.shiftRight_eq_div_pow, UInt8.toNat_ofNat']
  simp only [Encoder.wordBytes, List.map, byte, digits]
  rfl

theorem wordBytes_drop (value : UInt64) {width : Nat} (h : width ≤ maxNumberWidth) :
    (Encoder.wordBytes value).drop (maxNumberWidth - width) = digits width value.toNat := by
  have split : 8 = maxNumberWidth - width + width := (Nat.sub_add_cancel h).symm
  rw [wordBytes_eq, split, drop_digits]

end Transparency.Wire
