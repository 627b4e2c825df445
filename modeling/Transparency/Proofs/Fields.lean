import Transparency.Proofs.Canonical
import Transparency.Proofs.Numbers

/-! Fields of every maximum.

Data that is no longer than its maximum is written behind its length, and read back from there. What is read as a field
is in turn what would be written for its data, and a length above the maximum is refused before anything behind it is
read (`fields_exact`). The maximum alone says how wide the length is: where it is zero, a field is nothing at all, and
where it does not fill its width, there are lengths that no data has. -/
namespace Transparency.Wire

namespace Encoder
variable {data : Bytes} {max : UInt64}

theorem emits_field (fits : data.length ≤ max.toNat) : Emits (field data max) (framed max data) := by
  apply (screens_field max data).emits
  rwa [List.forall_mem_singleton]

theorem field_ok_iff {w : Writer} (memory : w.InMemory) :
    (∃ w', field data max w = .ok () w') ↔ data.length ≤ max.toNat := by
  constructor
  · rintro ⟨w', run⟩
    by_contra long
    rw [field_of_tooLong (Nat.lt_of_not_le long)] at run
    cases run
  · intro fits
    obtain ⟨w', run, -⟩ := emits_field fits w memory
    exact ⟨w', run⟩

theorem gains_of_field_ok {w w' : Writer} (memory : w.InMemory) (run : field data max w = .ok () w') :
    data.length ≤ max.toNat ∧ w.Gains (framed max data) w' := by
  have fits := (field_ok_iff memory).1 ⟨w', run⟩
  obtain ⟨w'', run', gains⟩ := emits_field fits w memory
  rw [run] at run'
  cases run'
  exact ⟨fits, gains⟩

end Encoder

namespace Decoder
variable {max : UInt64}

theorem field_canonical {data code : Bytes} (h : Settles (field max) (.ok data) code) :
    (Encoder.field data max).toBytes = .ok code := by
  obtain ⟨fits, rfl⟩ := settles_field_iff.1 h
  exact (Encoder.emits_field fits).toBytes

/-- A length is judged as soon as it is there. -/
theorem settles_field_of_above {declared : Bytes} {length : Nat} (width : declared.length = bytesNeeded max)
    (value : bigEndian declared = length) (above : max.toNat < length) :
    Settles (field max) (.error (.corrupt (.lengthOverMaximum length max.toNat))) declared := by
  have toNat := toNat_ofNat_bigEndian (width.trans_le (bytesNeeded_le max))
  have read := (settles_number_iff (bytesNeeded_le max)).2 ⟨width, toNat⟩
  have large : max < .ofNat (bigEndian declared) := by rwa [UInt64.lt_iff_toNat_lt, toNat, value]
  rw [← List.append_nil declared]
  refine read.bind ?_
  rw [if_pos large, toNat, value]
  exact settles_throw _

end Decoder

/-- **A field holds all data up to its maximum and no other**, and its bytes are those that are written for it. -/
theorem fields_exact (max : UInt64) :
    (∀ (data : Bytes) (w : Writer), w.InMemory →
      ((∃ w', Encoder.field data max w = .ok () w') ↔ data.length ≤ max.toNat)) ∧
    (∀ data w w', w.InMemory → Encoder.field data max w = .ok () w' → ∃ code, w.Gains code w' ∧
      code.length = bytesNeeded max + data.length ∧
        ∀ (r : Reader) (rest : Bytes), r.source = .ofBytes (code ++ rest) →
          ∃ s, Decoder.field max r = .ok data s ∧ r.Passes code rest s) ∧
    (∀ bytes data s, Decoder.field max (.ofBytes bytes) = .ok data s →
      data.length ≤ max.toNat ∧ s.position ≤ bytes.length ∧
        (Encoder.field data max).toBytes = .ok (bytes.take s.position)) ∧
    ∀ declared : Bytes, declared.length = bytesNeeded max → max.toNat < bigEndian declared →
      ∀ (r : Reader) (rest : Bytes), r.source = .ofBytes (declared ++ rest) →
        ∃ s, Decoder.field max r = .error (.corrupt (.lengthOverMaximum (bigEndian declared) max.toNat)) s ∧
          r.Passes declared rest s := by
  refine ⟨fun data w memory => Encoder.field_ok_iff memory, fun data w w' memory run => ?_,
    fun bytes data s run => ?_, fun declared width above => Decoder.settles_field_of_above width rfl above⟩
  · obtain ⟨fits, gains⟩ := Encoder.gains_of_field_ok memory run
    exact ⟨_, gains, length_framed max data, Decoder.settles_field_iff.2 ⟨fits, rfl⟩⟩
  · obtain ⟨code, rest, -, settles, -⟩ := Decoder.Streaming.code_of_ok rfl run
    have canonical : Canonical (Decoder.field max) fun data => (Encoder.field data max).toBytes :=
      canonical_of_codes fun _ _ => Decoder.field_canonical
    obtain ⟨inside, written⟩ := canonical bytes data s run
    exact ⟨(Decoder.settles_field_iff.1 settles).1, inside, written⟩

/-- A maximum that does not fill its two bytes, and one that needs none. -/
theorem fields_exact_three_hundred :
    (∃ s, Decoder.field 300 (.ofBytes [0, 2, 7, 8, 9]) = .ok [7, 8] s ∧ s.position = 4 ∧
      (Encoder.field [7, 8] 300).toBytes = .ok [0, 2, 7, 8]) ∧
    (∃ s, Decoder.field 300 (.ofBytes [1, 45, 9]) = .error (.corrupt (.lengthOverMaximum 301 300)) s ∧
      s.position = 2) ∧
    (∃ w', Encoder.field [] 0 {} = .ok () w') ∧ ¬ ∃ w', Encoder.field [7] 0 {} = .ok () w' := by
  obtain ⟨-, -, canonical, refuses⟩ := fields_exact 300
  obtain ⟨accepts, -⟩ := fields_exact 0
  obtain ⟨s, run, passes⟩ := refuses [1, 45] (by decide) (by decide) (.ofBytes [1, 45, 9]) [9] rfl
  exact ⟨⟨_, rfl, rfl, (canonical [0, 2, 7, 8, 9] _ _ rfl).2.2⟩, ⟨s, run, passes.position⟩,
    (accepts _ _ Writer.inMemory_default).2 (by decide), mt (accepts _ _ Writer.inMemory_default).1 (by decide)⟩

end Transparency.Wire
