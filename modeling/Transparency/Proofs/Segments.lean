import Transparency.Proofs.Layout
import Transparency.Wire.Encode

/-! Records as the fields that they are written in.

A record is a list of segments, and its encoder writes one after another: fixed bytes, which are written as they
are, and data, of which the length is written first unless there is too much of it. Whatever an encoder does to a
writer follows from what writing does. -/
namespace Transparency
open Wire

inductive Segment where
  | fixed (code : Bytes)
  /-- Data behind its length. -/
  | framed (max : UInt64) (data : Bytes)
deriving DecidableEq, Repr

namespace Segment

def code : Segment → Bytes
  | .fixed code => code
  | .framed max data => Transparency.framed max data

def frames : Segment → List Frame
  | .fixed _ => []
  | .framed max data => [.ofData max data]

/-- There is not too much data. -/
def Fits (s : Segment) : Prop := ∀ f ∈ s.frames, f.Fits

instance : DecidablePred Fits := fun s => inferInstanceAs (Decidable (∀ f ∈ s.frames, f.Fits))

theorem forall_frames_fit_iff {segments : List Segment} :
    (∀ f ∈ segments.flatMap frames, f.Fits) ↔ ∀ s ∈ segments, s.Fits :=
  List.forall_mem_flatMap

/-- The byte strings that are written whole. -/
def writes : Segment → List Bytes
  | .fixed code => [code]
  | .framed max data => [digits (bytesNeeded max) data.length, data]

theorem flatten_writes (s : Segment) : s.writes.flatten = s.code := by
  cases s <;> simp [writes, code, Transparency.framed]

theorem flatten_flatMap_writes (segments : List Segment) :
    (segments.flatMap writes).flatten = segments.flatMap code := by
  induction segments with
  | nil => rfl
  | cons first rest ih => rw [List.flatMap_cons, List.flatMap_cons, List.flatten_append, flatten_writes, ih]

end Segment

/-! ### Records -/

namespace DigitallySigned

def segments (s : DigitallySigned) : List Segment :=
  [.fixed (digits algorithmLength s.hashAlgorithm.tag), .fixed (digits algorithmLength s.signatureAlgorithm.tag),
    .framed maxSignatureLength s.signature]

theorem code_segments (s : DigitallySigned) : s.segments.flatMap Segment.code = s.layout := by
  simp [segments, Segment.code, layout]

end DigitallySigned

namespace Sct

def segments (s : Sct) : List Segment :=
  [.fixed (digits versionLength s.version.tag), .fixed s.id.keyId.bytes,
    .fixed (digits timestampLength s.timestamp.toNat), .framed maxExtensionsLength s.extensions] ++
      s.signature.segments

theorem code_segments (s : Sct) : s.segments.flatMap Segment.code = s.layout := by
  rw [segments, List.flatMap_append, s.signature.code_segments]
  simp [Segment.code, layout]

end Sct

namespace SignedEntry

def segments : SignedEntry → List Segment
  | .x509 certificate => [.framed maxCertificateLength certificate]
  | .precert p => [.fixed p.issuerKeyHash.bytes, .framed maxTbsCertificateLength p.tbsCertificate]

theorem frames_segments (e : SignedEntry) : e.segments.flatMap Segment.frames = e.frames := by
  cases e <;> rfl

theorem code_segments (e : SignedEntry) : e.segments.flatMap Segment.code = e.layout := by
  cases e <;> simp [segments, Segment.code, layout, Precert.layout]

end SignedEntry

namespace TimestampedEntry

def segments (e : TimestampedEntry) : List Segment :=
  [.fixed (digits timestampLength e.timestamp.toNat), .fixed (digits entryTypeLength e.signedEntry.entryType.tag)] ++
    e.signedEntry.segments

theorem code_segments (e : TimestampedEntry) : e.segments.flatMap Segment.code = e.layout := by
  rw [segments, List.flatMap_append, e.signedEntry.code_segments]
  simp [Segment.code, layout]

end TimestampedEntry

namespace Leaf

def segments (l : Leaf) : List Segment :=
  [.fixed (digits versionLength l.version.tag), .fixed (digits leafTypeLength timestampedEntryLeafType)] ++
    l.timestampedEntry.segments

theorem code_segments (l : Leaf) : l.segments.flatMap Segment.code = l.layout := by
  rw [segments, List.flatMap_append, l.timestampedEntry.code_segments]
  simp [Segment.code, layout]

end Leaf

namespace Wire.Encoder

/-! ### Numbers and fields -/

theorem shiftRight_eq_zero_iff {value : UInt64} {width : Nat} (h : width < maxNumberWidth) :
    value >>> UInt64.ofNat (8 * width) = 0 ↔ value.toNat < 256 ^ width := by
  have shift : (UInt64.ofNat (8 * width)).toNat % 64 = 8 * width := by
    unfold maxNumberWidth at h
    rw [UInt64.toNat_ofNat_of_lt' (by show 8 * width < 2 ^ 64; omega)]
    omega
  rw [← UInt64.toNat_inj, UInt64.toNat_shiftRight, shift, Nat.shiftRight_eq_div_pow, Nat.pow_mul]
  exact Nat.div_eq_zero_iff_lt (Nat.pow_pos (by decide))

/-- A number that fits its width is written as its digits. -/
theorem number_eq {value : UInt64} {width : Nat} (h : width ≤ maxNumberWidth) (fits : value.toNat < 256 ^ width) :
    number value width = bytes (digits width value.toNat) := by
  have kept : ¬ (width < maxNumberWidth ∧ value >>> UInt64.ofNat (8 * width) ≠ 0) :=
    fun lost => lost.2 ((shiftRight_eq_zero_iff lost.1).2 fits)
  rw [number, if_neg (Nat.not_lt.2 h), if_neg kept, wordBytes_drop value h]

theorem tag_eq {value width : Nat} (h : width ≤ maxNumberWidth) (fits : value < 256 ^ width) :
    tag value width = bytes (digits width value) := by
  have wide : 256 ^ width ≤ 256 ^ maxNumberWidth := Nat.pow_le_pow_right (by decide) h
  have toNat : (UInt64.ofNat value).toNat = value :=
    UInt64.toNat_ofNat_of_lt' (Nat.lt_of_lt_of_le fits wide)
  rw [tag, number_eq h (by rwa [toNat]), toNat]

/-- The length of data that fits its field is never refused. -/
theorem field_eq {data : Bytes} {max : UInt64} (fits : data.length ≤ max.toNat) :
    field data max = bytes (digits (bytesNeeded max) data.length) >>= fun _ => bytes data := by
  rw [← tag_eq (bytesNeeded_le max) (lt_pow_bytesNeeded fits), field, if_neg (Nat.not_lt.2 fits), tag]

theorem field_of_tooLong {data : Bytes} {max : UInt64} (long : max.toNat < data.length) (w : Writer) :
    field data max w = .error (.fieldTooLong data.length max.toNat) w := by
  rw [field, if_pos long]
  rfl

/-! ### Encoders -/

def segment : Segment → Encoder Unit
  | .fixed code => bytes code
  | .framed max data => field data max

def segments (s : List Segment) : Encoder Unit := s.forM segment

theorem segments_cons (first : Segment) (rest : List Segment) :
    segments (first :: rest) = segment first >>= fun _ => segments rest := rfl

theorem segments_singleton (s : Segment) : segments [s] = segment s := bind_pure_unit

/-- A timestamp fills its eight bytes. -/
theorem number_timestamp (timestamp : UInt64) :
    number timestamp timestampLength = bytes (digits timestampLength timestamp.toNat) :=
  number_eq (by decide) (UInt64.toNat_lt timestamp)

theorem tag_version (v : Version) : tag v.tag versionLength = bytes (digits versionLength v.tag) :=
  tag_eq (by decide) (by cases v; decide)

theorem digitallySigned_eq (s : DigitallySigned) : digitallySigned s = segments s.segments := by
  have hash : s.hashAlgorithm.tag < 256 ^ algorithmLength := by cases s.hashAlgorithm <;> decide
  have signature : s.signatureAlgorithm.tag < 256 ^ algorithmLength := by
    cases s.signatureAlgorithm <;> decide
  rw [digitallySigned, tag_eq (by decide) hash, tag_eq (by decide) signature, DigitallySigned.segments,
    segments_cons, segments_cons, segments_singleton]
  rfl

theorem sct_eq (s : Sct) : sct s = segments s.segments := by
  rw [sct, tag_version, number_timestamp, digitallySigned_eq]
  rfl

theorem signedEntry_eq (e : SignedEntry) : signedEntry e = segments e.segments := by
  cases e with
  | x509 certificate =>
    rw [SignedEntry.segments, segments_singleton]
    rfl
  | precert p =>
    rw [SignedEntry.segments, segments_cons, segments_singleton]
    rfl

theorem timestampedEntry_eq (e : TimestampedEntry) : timestampedEntry e = segments e.segments := by
  have type : e.signedEntry.entryType.tag < 256 ^ entryTypeLength := by
    cases e.signedEntry.entryType <;> decide
  rw [timestampedEntry, number_timestamp, tag_eq (by decide) type, signedEntry_eq]
  rfl

theorem leaf_eq (l : Leaf) : leaf l = segments l.segments := by
  rw [leaf, tag_version, tag_eq (by decide) (by decide), timestampedEntry_eq]
  rfl

end Wire.Encoder

end Transparency
