import Transparency.Proofs.Grammar
import Transparency.Proofs.Memory

/-! Every record has one encoding.

Whatever bytes a decoder accepts, the encoder of the same name writes them again from the record that they
gave, so nothing of an accepted encoding is lost in its record (`accepted_canonical`). -/
namespace Transparency.Wire
variable {α : Type}

/-- The bytes that `decoder` takes for a value are those that `encode` writes for it. -/
def Canonical (decoder : Decoder α) (encode : α → Except EncodeError Bytes) : Prop :=
  ∀ (bytes : Bytes) (value : α) (r : Reader), decoder (.ofBytes bytes) = .ok value r →
    r.position ≤ bytes.length ∧ encode value = .ok (bytes.take r.position)

/-- No two byte strings are decoded to the same value. -/
def Unambiguous (decode : Bytes → Decoded α) : Prop :=
  ∀ (a b : Bytes) (value : α), (decode a).result = .ok value → (decode b).result = .ok value → a = b

theorem canonical_of_codes {decoder : Decoder α} [Decoder.Streaming decoder]
    {encode : α → Except EncodeError Bytes}
    (codes : ∀ value code, decoder.Settles (.ok value) code → encode value = .ok code) :
    Canonical decoder encode := by
  intro bytes value r run
  obtain ⟨code, rest, rfl, settles, passes⟩ := Decoder.Streaming.code_of_ok rfl run
  have position : r.position = code.length := passes.position.trans (Nat.zero_add _)
  rw [position, List.take_left' rfl, List.length_append]
  exact ⟨Nat.le_add_right _ _, codes value code settles⟩

theorem unambiguous_of_codes {decoder : Decoder α} [Decoder.Streaming decoder]
    {encode : α → Except EncodeError Bytes}
    (codes : ∀ value code, decoder.Settles (.ok value) code → encode value = .ok code) :
    Unambiguous (decoder.decode .refused) := by
  intro a b value decodedA decodedB
  have encodedA := codes value a (Decoder.decode_refused_iff.1 decodedA)
  have encodedB := codes value b (Decoder.decode_refused_iff.1 decodedB)
  rw [encodedA] at encodedB
  cases encodedB
  rfl

theorem encodeSct_of_settles (s : Sct) (code : Bytes) (h : Decoder.sct.Settles (.ok s) code) :
    encodeSct s = .ok code := by
  obtain ⟨fits, rfl⟩ := Decoder.settles_sct_iff.1 h
  exact (Encoder.emits_sct fits).toBytes

theorem encodeDigitallySigned_of_settles (s : DigitallySigned) (code : Bytes)
    (h : Decoder.digitallySigned.Settles (.ok s) code) : encodeDigitallySigned s = .ok code := by
  obtain ⟨fits, rfl⟩ := Decoder.settles_digitallySigned_iff.1 h
  exact (Encoder.emits_digitallySigned fits).toBytes

theorem encodeLeaf_of_settles (l : Leaf) (code : Bytes) (h : Decoder.leaf.Settles (.ok l) code) :
    encodeLeaf l = .ok code := by
  obtain ⟨fits, rfl⟩ := Decoder.settles_leaf_iff.1 h
  exact (Encoder.emits_leaf fits).toBytes

theorem encodeTimestampedEntry_of_settles (e : TimestampedEntry) (code : Bytes)
    (h : Decoder.timestampedEntry.Settles (.ok e) code) : encodeTimestampedEntry e = .ok code := by
  obtain ⟨fits, rfl⟩ := Decoder.settles_timestampedEntry_iff.1 h
  exact (Encoder.emits_timestampedEntry fits).toBytes

/-- **Encoding undoes decoding**, of any bytes at all; so no record has two encodings. -/
theorem accepted_canonical :
    Canonical Decoder.sct encodeSct ∧
      Canonical Decoder.digitallySigned encodeDigitallySigned ∧
      Canonical Decoder.leaf encodeLeaf ∧
      Canonical Decoder.timestampedEntry encodeTimestampedEntry ∧
      Unambiguous (decodeSct .refused) ∧
      Unambiguous (decodeLeaf .refused) :=
  ⟨canonical_of_codes encodeSct_of_settles, canonical_of_codes encodeDigitallySigned_of_settles,
    canonical_of_codes encodeLeaf_of_settles, canonical_of_codes encodeTimestampedEntry_of_settles,
    unambiguous_of_codes encodeSct_of_settles, unambiguous_of_codes encodeLeaf_of_settles⟩

/-- A signature, and a timestamp with such a signature at its end, each with a byte behind it. -/
theorem accepted_canonical_five_of_six :
    let signature : DigitallySigned := ⟨.sha256, .ecdsa, [7]⟩
    let sct : Sct := ⟨.v1, ⟨⟨List.replicate 32 5, rfl⟩⟩, 9, [6], signature⟩
    let code : Bytes := 0 :: List.replicate 32 5 ++ [0, 0, 0, 0, 0, 0, 0, 9, 0, 1, 6, 4, 3, 0, 1, 7]
    (∃ r, Decoder.digitallySigned (.ofBytes [4, 3, 0, 1, 7, 9]) = .ok signature r ∧
      encodeDigitallySigned signature = .ok [4, 3, 0, 1, 7]) ∧
      ∃ r, Decoder.sct (.ofBytes (code ++ [9])) = .ok sct r ∧ encodeSct sct = .ok code := by
  intro signature sct code
  obtain ⟨scts, signatures, -⟩ := accepted_canonical
  have decoded : Decoder.sct.outcome (.ofBytes (code ++ [9])) = .ok sct := by decide +kernel
  obtain ⟨r, run⟩ := Decoder.outcome_ok_iff.1 decoded
  have position : r.position = code.length := by
    rw [← Decoder.after_of_ok run]
    decide +kernel
  obtain ⟨-, encoded⟩ := scts _ _ _ run
  rw [position, List.take_left' rfl] at encoded
  exact ⟨⟨_, rfl, (signatures [4, 3, 0, 1, 7, 9] _ _ rfl).2⟩, r, run, encoded⟩

end Transparency.Wire
