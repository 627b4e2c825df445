import Transparency.Proofs.Base64
import Transparency.Proofs.Hex
import Transparency.Record.KeyHash

/-! Hashes of keys from their bytes and from their texts.

A hash is read from its thirty-two bytes, from its base64 alone, and from its digits in either case. A text of
another number of bytes is refused for that number, and a text of no bytes for what is wrong with it
(`hashes_read`). -/
namespace Transparency.KeyHash
open Text

variable {owner : KeyOwner}

/-! ### Bytes -/

theorem ofBytes_eq_ok_iff {bytes : Bytes} {hash : KeyHash owner} :
    ofBytes bytes = .ok hash ↔ bytes = hash.bytes := by
  constructor
  · intro h
    unfold ofBytes at h
    split at h <;> cases h
    rfl
  · rintro rfl
    exact dif_pos hash.length_eq

theorem ofBytes_eq_error_iff {bytes : Bytes} {error : Error} :
    (ofBytes bytes : Except Error (KeyHash owner)) = .error error ↔
      bytes.length ≠ size ∧ error = .invalidLength bytes.length := by
  unfold ofBytes
  split
  next whole => exact iff_of_false nofun fun parts => parts.1 whole
  next other => exact ⟨fun h => ⟨other, (Except.error.inj h).symm⟩, fun parts => congrArg _ parts.2.symm⟩

/-! ### Texts -/

/-- A reader of hashes that decodes a text first, where `Spells` says which bytes a text is of, and then looks at the
number of bytes. -/
structure ReadsThrough {ε : Type} (decode : String → Except ε Bytes) (Spells : String → Bytes → Prop)
    (read : String → Except Error (KeyHash owner)) (refusal : ε → Error) : Prop where
  spells (text : String) (bytes : Bytes) : decode text = .ok bytes ↔ Spells text bytes
  accepted (text : String) (bytes : Bytes) : decode text = .ok bytes → read text = ofBytes bytes
  refused (text : String) (cause : ε) : decode text = .error cause → read text = .error (refusal cause)
  distinct (cause : ε) (actual : Nat) : refusal cause ≠ .invalidLength actual

/-- How a reader of hashes refuses the texts that spell none, where `refusal` says that a text spells no bytes. -/
structure Refuses {ε : Type} (Spells : String → Bytes → Prop) (read : String → Except Error (KeyHash owner))
    (refusal : ε → Error) : Prop where
  /-- Bytes that are too few or too many are counted. -/
  length (text : String) (actual : Nat) : read text = .error (.invalidLength actual) ↔
    actual ≠ size ∧ ∃ bytes, Spells text bytes ∧ bytes.length = actual
  /-- A text of no bytes is refused as that, however long it is. -/
  foreign (text : String) : (∃ cause, read text = .error (refusal cause)) ↔ ∀ bytes, ¬ Spells text bytes

namespace ReadsThrough

variable {ε : Type} {decode : String → Except ε Bytes} {Spells : String → Bytes → Prop}
  {read : String → Except Error (KeyHash owner)} {refusal : ε → Error}

theorem eq_ok_iff (h : ReadsThrough decode Spells read refusal) {text : String} {hash : KeyHash owner} :
    read text = .ok hash ↔ Spells text hash.bytes := by
  rw [← h.spells]
  cases decoded : decode text with
  | ok bytes =>
    rw [h.accepted text bytes decoded, ofBytes_eq_ok_iff]
    exact ⟨congrArg _, Except.ok.inj⟩
  | error cause =>
    rw [h.refused text cause decoded]
    exact iff_of_false nofun nofun

/-- Bytes of one text are found by decoding it. -/
theorem eq_of_spells (h : ReadsThrough decode Spells read refusal) {text : String} {bytes found : Bytes}
    (decoded : decode text = .ok bytes) (spells : Spells text found) : bytes = found :=
  Except.ok.inj (decoded.symm.trans ((h.spells text found).2 spells))

theorem not_spells (h : ReadsThrough decode Spells read refusal) {text : String} {cause : ε}
    (decoded : decode text = .error cause) (bytes : Bytes) : ¬ Spells text bytes := by
  intro spells
  cases decoded.symm.trans ((h.spells text bytes).2 spells)

theorem refuses (h : ReadsThrough decode Spells read refusal) : Refuses Spells read refusal where
  length text actual := by
    cases decoded : decode text with
    | ok bytes =>
      rw [h.accepted text bytes decoded, ofBytes_eq_error_iff, Error.invalidLength.injEq]
      constructor
      · rintro ⟨other, rfl⟩
        exact ⟨other, bytes, (h.spells text bytes).1 decoded, rfl⟩
      · rintro ⟨other, found, spells, rfl⟩
        obtain rfl := h.eq_of_spells decoded spells
        exact ⟨other, rfl⟩
    | error cause =>
      rw [h.refused text cause decoded]
      refine iff_of_false (fun same => h.distinct cause actual (Except.error.inj same)) ?_
      rintro ⟨-, bytes, spells, -⟩
      exact h.not_spells decoded bytes spells
  foreign text := by
    cases decoded : decode text with
    | ok bytes =>
      refine iff_of_false ?_ fun none => none bytes ((h.spells text bytes).1 decoded)
      rintro ⟨cause, refused⟩
      rw [h.accepted text bytes decoded, ofBytes_eq_error_iff] at refused
      exact h.distinct cause _ refused.2
    | error cause => exact iff_of_true ⟨cause, h.refused text cause decoded⟩ (h.not_spells decoded)

end ReadsThrough

theorem ofBase64_readsThrough : ReadsThrough (fun text => Base64.decode .canonical (Utf8.ofString text))
    (fun text bytes => text = Base64.encode bytes) (@ofBase64 owner) Error.base64 where
  spells _ _ := Base64.decode_canonical_iff
  accepted text bytes decoded := by rw [ofBase64, decoded]
  refused text cause decoded := by rw [ofBase64, decoded]
  distinct := nofun

theorem ofHex_readsThrough : ReadsThrough (fun text => Hex.decode (Utf8.ofString text))
    (fun text bytes => text.toLower = Hex.encode bytes) (@ofHex owner) Error.hex where
  spells _ _ := Hex.decode_ofString_iff
  accepted text bytes decoded := by rw [ofHex, decoded]
  refused text cause decoded := by rw [ofHex, decoded]
  distinct := nofun

theorem ofBase64_eq_ok_iff {text : String} {hash : KeyHash owner} :
    ofBase64 text = .ok hash ↔ text = hash.base64 :=
  ofBase64_readsThrough.eq_ok_iff

theorem ofHex_eq_ok_iff {text : String} {hash : KeyHash owner} :
    ofHex text = .ok hash ↔ text.toLower = hash.hex :=
  ofHex_readsThrough.eq_ok_iff

/-- **A hash is read from its bytes, from its base64 and from its digits in either case, and from nothing else.** What
is refused is refused for its number of bytes if it spells any, and else as no such text. -/
theorem hashes_read (owner : KeyOwner) :
    (∀ (bytes : Bytes) (hash : KeyHash owner), ofBytes bytes = .ok hash ↔ bytes = hash.bytes) ∧
    (∀ (bytes : Bytes) error, (ofBytes bytes : Except Error (KeyHash owner)) = .error error ↔
      bytes.length ≠ 32 ∧ error = .invalidLength bytes.length) ∧
    (∀ (text : String) (hash : KeyHash owner), ofBase64 text = .ok hash ↔ text = hash.base64) ∧
    (∀ (text : String) (hash : KeyHash owner), ofHex text = .ok hash ↔ text.toLower = hash.hex) ∧
    Refuses (fun text bytes => text = Base64.encode bytes) (@ofBase64 owner) Error.base64 ∧
    Refuses (fun text bytes => text.toLower = Hex.encode bytes) (@ofHex owner) Error.hex :=
  ⟨fun _ _ => ofBytes_eq_ok_iff, fun _ _ => ofBytes_eq_error_iff, fun _ _ => ofBase64_eq_ok_iff,
    fun _ _ => ofHex_eq_ok_iff, ofBase64_readsThrough.refuses, ofHex_readsThrough.refuses⟩

/-- Two bytes instead of thirty-two, an odd digit, and base64 without its padding. -/
theorem hashes_read_short :
    (ofHex "0aF0" : Except Error KeyId) = .error (.invalidLength 2) ∧
      (∃ cause, (ofHex "0aF" : Except Error KeyId) = .error (.hex cause)) ∧
        ∀ bytes, "AQI" ≠ Base64.encode bytes := by
  obtain ⟨-, -, -, -, inBase64, inHex⟩ := hashes_read .log
  have unpadded : (ofBase64 "AQI" : Except Error KeyId) = .error (.base64 .invalidPadding) := rfl
  refine ⟨(inHex.length _ 2).2 ⟨by decide, [0x0A, 0xF0], by decide +kernel, rfl⟩, ?_, ?_⟩
  · refine (inHex.foreign _).2 fun bytes spells => ?_
    have odd : Hex.decode (Utf8.ofString "0aF") = .error .oddLength := rfl
    cases odd.symm.trans (Hex.decode_ofString_iff.2 spells)
  · exact (inBase64.foreign _).1 ⟨_, unpadded⟩

end Transparency.KeyHash
