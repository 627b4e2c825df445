import Mathlib.Algebra.BigOperators.Intervals
import Mathlib.Order.Bounds.Basic
import Transparency.Proofs.Grammar
import Transparency.Proofs.Sending

/-! Numbers of every width.

A number fits a width if it is below that power of 256. Then it is written in just so many bytes, and bytes are read as
the number in which each counts by its place: no bit falls out of the word, and writing and reading undo each other
(`numbers_exact`). The length in front of a field has the least width that the field's maximum fits
(`bytesNeeded_least`). -/
namespace Transparency.Wire

/-! ### Places -/

/-- What the first `width` bytes come to, each by its place. -/
def placeValue (width : Nat) (bytes : Bytes) : Nat :=
  ∑ i ∈ Finset.range width, (bytes.getD i 0).toNat * 256 ^ (width - 1 - i)

theorem placeValue_cons (width : Nat) (byte : UInt8) (rest : Bytes) :
    placeValue (width + 1) (byte :: rest) = byte.toNat * 256 ^ width + placeValue width rest := by
  rw [placeValue, Finset.sum_range_succ', Nat.add_comm]
  simp only [List.getD_cons_succ, List.getD_cons_zero, Nat.add_sub_cancel, Nat.sub_zero]
  congr 1
  apply Finset.sum_congr rfl
  intro i _
  rw [Nat.add_comm i 1, Nat.sub_sub]

theorem placeValue_eq_bigEndian {width : Nat} {bytes : Bytes} (enough : width ≤ bytes.length) :
    placeValue width bytes = bigEndian (bytes.take width) := by
  induction bytes generalizing width with
  | nil =>
    obtain rfl := Nat.le_zero.1 enough
    rfl
  | cons byte rest ih =>
    cases width with
    | zero => rfl
    | succ width =>
      have inside : width ≤ rest.length := Nat.le_of_succ_le_succ enough
      rw [placeValue_cons, ih inside, List.take_succ_cons, bigEndian, List.length_take_of_le inside]

/-! ### Writing -/

namespace Encoder
variable {value : UInt64} {width : Nat}

theorem number_of_tooWide (wide : maxNumberWidth < width) (w : Writer) :
    number value width w = .error (.numberTooWide width) w := by
  rw [number, if_pos wide]
  rfl

theorem number_of_tooLarge (h : width ≤ maxNumberWidth) (large : ¬ value.toNat < 256 ^ width) (w : Writer) :
    number value width w = .error (.numberTooLarge value width) w := by
  -- A word fits eight bytes, so the width is one of those that the shift can tell apart.
  have narrow : width < maxNumberWidth := by
    refine Nat.lt_of_le_of_ne h ?_
    rintro rfl
    exact large (UInt64.toNat_lt value)
  rw [number, if_neg (Nat.not_lt.2 h), if_pos ⟨narrow, mt (shiftRight_eq_zero_iff narrow).1 large⟩]
  rfl

/-- What any sink accepts has a width that there is, and fits it. -/
theorem fits_of_number_ok {w w' : Writer} (run : number value width w = .ok () w') :
    width ≤ maxNumberWidth ∧ value.toNat < 256 ^ width := by
  by_cases h : width ≤ maxNumberWidth
  · by_cases fits : value.toNat < 256 ^ width
    · exact ⟨h, fits⟩
    · rw [number_of_tooLarge h fits] at run
      cases run
  · rw [number_of_tooWide (Nat.lt_of_not_le h)] at run
    cases run

theorem emits_number (h : width ≤ maxNumberWidth) (fits : value.toNat < 256 ^ width) :
    Emits (number value width) (digits width value.toNat) := by
  rw [number_eq h fits]
  exact emits_bytes _

theorem number_toBytes_ok_iff {code : Bytes} : (number value width).toBytes = .ok code ↔
    width ≤ maxNumberWidth ∧ value.toNat < 256 ^ width ∧ code = digits width value.toNat := by
  constructor
  · intro written
    obtain ⟨w', run⟩ := exists_ok_of_toBytes written
    obtain ⟨h, fits⟩ := fits_of_number_ok run
    rw [(emits_number h fits).toBytes] at written
    exact ⟨h, fits, (Except.ok.inj written).symm⟩
  · rintro ⟨h, fits, rfl⟩
    exact (emits_number h fits).toBytes

/-- A byte string that is written stands in the sink whole. -/
theorem bytes_ok {data : Bytes} {w w' : Writer} (run : bytes data w = .ok () w') :
    w'.sink.output = w.sink.output ++ data ∧ w'.position = w.position + data.length := by
  obtain ⟨taken, stop, -, output, ends⟩ := gives_forM_bytes [data] w
  rw [forM_bytes_singleton, run] at output ends
  cases ends with
  | whole taken_eq position =>
    rw [List.flatten_singleton] at taken_eq
    subst taken_eq
    exact ⟨output, position⟩

end Encoder

/-! ### Reading -/

namespace Decoder
variable {width : Nat}

theorem number_of_tooWide (wide : maxNumberWidth < width) (r : Reader) :
    number width r = .error (.numberTooWide width) r := by
  rw [number, if_pos wide]
  rfl

theorem number_ofBytes {bytes : Bytes} {r : Reader} (h : width ≤ maxNumberWidth) (enough : width ≤ bytes.length)
    (source : r.source = .ofBytes bytes) : ∃ value s, number width r = .ok value s ∧
      value.toNat = placeValue width bytes ∧ r.Passes (bytes.take width) (bytes.drop width) s := by
  have full : (bytes.take width).length = width := List.length_take_of_le enough
  have toNat := toNat_ofNat_bigEndian (full.trans_le h)
  obtain ⟨s, run, passes⟩ := (settles_number_iff h).2 ⟨full, toNat⟩ r (bytes.drop width)
    (by rw [List.take_append_drop, source])
  exact ⟨_, s, run, toNat.trans (placeValue_eq_bigEndian enough).symm, passes⟩

end Decoder

/-- Bytes are written for a number exactly if they are as many as its width and are read as it. -/
theorem number_written_iff_read {width : Nat} (h : width ≤ maxNumberWidth) {value : UInt64} {code : Bytes} :
    (Encoder.number value width).toBytes = .ok code ↔
      code.length = width ∧ ∃ s, Decoder.number width (.ofBytes code) = .ok value s := by
  rw [Encoder.number_toBytes_ok_iff]
  constructor
  · rintro ⟨-, fits, rfl⟩
    have full := length_digits width value.toNat
    obtain ⟨s, run, -⟩ := (Decoder.settles_number_iff h).2 ⟨full, (bigEndian_digits fits).symm⟩
      (.ofBytes (digits width value.toNat)) [] (by rw [List.append_nil]; rfl)
    exact ⟨full, s, run⟩
  · rintro ⟨full, s, run⟩
    obtain ⟨value', s', run', toNat, -⟩ := Decoder.number_ofBytes (r := .ofBytes code) h full.ge rfl
    rw [run] at run'
    cases run'
    rw [placeValue_eq_bigEndian full.ge, List.take_of_length_le full.le] at toNat
    refine ⟨h, ?_, eq_digits_of_bigEndian full toNat.symm⟩
    rw [toNat, ← full]
    exact bigEndian_lt code

/-- **Numbers are written and read as they are in every width up to eight**, and in none above. -/
theorem numbers_exact (width : Nat) :
    (∀ (value : UInt64) (w : Writer), w.InMemory →
      ((∃ w', Encoder.number value width w = .ok () w') ↔ width ≤ 8 ∧ value.toNat < 256 ^ width)) ∧
    (∀ value w w', Encoder.number value width w = .ok () w' → ∃ code : Bytes, code.length = width ∧
      w'.sink.output = w.sink.output ++ code ∧ w'.position = w.position + width) ∧
    (width ≤ 8 → ∀ (value : UInt64) (w : Writer), ¬ value.toNat < 256 ^ width →
      Encoder.number value width w = .error (.numberTooLarge value width) w) ∧
    (width ≤ 8 → ∀ (bytes : Bytes) (r : Reader), width ≤ bytes.length → r.source = .ofBytes bytes →
      ∃ value s, Decoder.number width r = .ok value s ∧ value.toNat = placeValue width bytes ∧
        r.Passes (bytes.take width) (bytes.drop width) s) ∧
    (width ≤ 8 → ∀ value code, (Encoder.number value width).toBytes = .ok code ↔
      code.length = width ∧ ∃ s, Decoder.number width (.ofBytes code) = .ok value s) ∧
    (8 < width → (∀ value w, Encoder.number value width w = .error (.numberTooWide width) w) ∧
      ∀ r, Decoder.number width r = .error (.numberTooWide width) r) := by
  refine ⟨fun value w memory => ⟨fun ⟨w', run⟩ => Encoder.fits_of_number_ok run, fun ⟨h, fits⟩ => ?_⟩,
    fun value w w' run => ?_, fun h value w large => Encoder.number_of_tooLarge h large w,
    fun h bytes r enough source => Decoder.number_ofBytes h enough source,
    fun h value code => number_written_iff_read h,
    fun wide => ⟨fun value w => Encoder.number_of_tooWide wide w, Decoder.number_of_tooWide wide⟩⟩
  · obtain ⟨w', run, -⟩ := Encoder.emits_number h fits w memory
    exact ⟨w', run⟩
  · obtain ⟨h, fits⟩ := Encoder.fits_of_number_ok run
    rw [Encoder.number_eq h fits] at run
    obtain ⟨output, position⟩ := Encoder.bytes_ok run
    rw [length_digits] at position
    exact ⟨_, length_digits width value.toNat, output, position⟩

/-- Three bytes of four; a number that needs all four; and a width that there is not. -/
theorem numbers_exact_three_of_four :
    (∃ s, Decoder.number 3 (.ofBytes [1, 0, 255, 7]) = .ok 65791 s ∧ s.position = 3 ∧ s.unread = [7]) ∧
      (Encoder.number 65791 3).toBytes = .ok [1, 0, 255] ∧
      (∀ w, Encoder.number 16777216 3 w = .error (.numberTooLarge 16777216 3) w) ∧
      (∀ w, Encoder.number 0 9 w = .error (.numberTooWide 9) w) := by
  obtain ⟨-, -, refuses, reads, inverse, -⟩ := numbers_exact 3
  obtain ⟨-, -, -, -, -, unknown⟩ := numbers_exact 9
  obtain ⟨value, s, run, toNat, passes⟩ := reads (by decide) [1, 0, 255, 7] (.ofBytes [1, 0, 255, 7]) (by decide) rfl
  have same : value = 65791 := by
    apply UInt64.toNat_inj.1
    rw [toNat]
    decide
  subst same
  refine ⟨⟨s, run, passes.position, ?_⟩, (inverse (by decide) _ _).2 ⟨rfl, _, rfl⟩,
    fun w => refuses (by decide) _ w (by decide), (unknown (by decide)).1 0⟩
  rw [Reader.unread, passes.source, Source.unread_ofBytes]
  rfl

/-! ### Widths of lengths -/

/-- **A field's length is as wide as its maximum needs, and no wider.** -/
theorem bytesNeeded_least (max : UInt64) :
    IsLeast {width | max.toNat < 256 ^ width} (bytesNeeded max) ∧
    bytesNeeded max ≤ 8 ∧
    (bytesNeeded max = 0 ↔ max = 0) ∧
    (∀ other, max ≤ other → bytesNeeded max ≤ bytesNeeded other) ∧
    (∀ length ≤ max,
      (Encoder.number length (bytesNeeded max)).Emits (digits (bytesNeeded max) length.toNat)) ∧
    ∀ width < bytesNeeded max, ∀ w, Encoder.number max width w = .error (.numberTooLarge max width) w := by
  have fits : max.toNat < 256 ^ bytesNeeded max := bytesNeeded_le_iff.1 (Nat.le_refl _)
  have small : bytesNeeded max ≤ 8 := bytesNeeded_le max
  refine ⟨⟨fits, fun width enough => bytesNeeded_le_iff.2 enough⟩, small, ?_, fun other le => ?_,
    fun length le => ?_, fun width less => ?_⟩
  · rw [← Nat.le_zero, bytesNeeded_le_iff, Nat.pow_zero, Nat.lt_one_iff]
    exact UInt64.toNat_inj (b := 0)
  · have wide : other.toNat < 256 ^ bytesNeeded other := bytesNeeded_le_iff.1 (Nat.le_refl _)
    exact bytesNeeded_le_iff.2 (Nat.lt_of_le_of_lt (UInt64.le_iff_toNat_le.1 le) wide)
  · exact Encoder.emits_number small (lt_pow_bytesNeeded (UInt64.le_iff_toNat_le.1 le))
  · have narrow : ¬ max.toNat < 256 ^ width := mt bytesNeeded_le_iff.2 (Nat.not_le.2 less)
    exact Encoder.number_of_tooLarge (Nat.le_trans (Nat.le_of_lt less) small) narrow

example : bytesNeeded 255 = 1 ∧ bytesNeeded 256 = 2 := by decide

/-- One more than a byte holds: lengths take two bytes, also those that would fit one. -/
theorem bytesNeeded_least_above_byte :
    (Encoder.number 255 2).Emits [0, 255] ∧ ∀ w, Encoder.number 256 1 w = .error (.numberTooLarge 256 1) w := by
  obtain ⟨-, -, -, -, accepts, refuses⟩ := bytesNeeded_least 256
  exact ⟨accepts 255 (by decide), refuses 1 (by decide)⟩

end Transparency.Wire
