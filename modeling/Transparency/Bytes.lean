/-! Byte strings, and byte strings of a known length. -/
namespace Transparency

/-- Bytes in the order they are sent. -/
abbrev Bytes := List UInt8

/-- A byte string of exactly `n` bytes. -/
abbrev Block (n : Nat) := {bytes : Bytes // bytes.length = n}

/-- A number below 256 fits a byte. -/
theorem toNat_ofNat_byte {n : Nat} (small : n < 256) : (UInt8.ofNat n).toNat = n :=
  UInt8.toNat_ofNat_of_lt' small

end Transparency
