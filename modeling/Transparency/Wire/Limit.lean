/-! Widths and length limits of the wire format. -/
namespace Transparency.Wire

/-- The widest number, in bytes. -/
def maxNumberWidth : Nat := 8

def keyIdLength : Nat := 32
def issuerKeyHashLength : Nat := 32
def timestampLength : Nat := 8
def versionLength : Nat := 1
def leafTypeLength : Nat := 1
def entryTypeLength : Nat := 2
def algorithmLength : Nat := 1

def maxExtensionsLength : UInt64 := 65535
def maxSignatureLength : UInt64 := 65535
def maxCertificateLength : UInt64 := 16777215
def maxTbsCertificateLength : UInt64 := 65535
def maxChainLength : UInt64 := 16777215

/-- The tag of the only type of leaf. -/
def timestampedEntryLeafType : Nat := 0

/-! ### Length fields -/

/-- The number of binary digits; none for zero. -/
def bitLength (n : Nat) : Nat := if n = 0 then 0 else n.log2 + 1

/-- The width of the length in front of a field of at most `max` bytes. -/
def bytesNeeded (max : UInt64) : Nat := (bitLength max.toNat + 7) / 8

/-! ### Sizes -/

/-- How many sizes in memory there are: a size has 64 bits. -/
def sizeCount : Nat := UInt64.size

/-- The size in memory that a length comes to, if there is such a size. -/
def size? (length : UInt64) : Option Nat := if length.toNat < sizeCount then some length.toNat else none

/-- A length has as many bits as a size, so there always is one. -/
@[simp] theorem size?_eq (length : UInt64) : size? length = some length.toNat := if_pos length.toNat_lt_size

end Transparency.Wire
