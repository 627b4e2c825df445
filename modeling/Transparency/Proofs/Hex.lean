import Transparency.Proofs.Utf8
import Transparency.Text.Hex

/-! Hexadecimal texts and the bytes that they spell.

A byte string is spelt by two digits to the byte, each in either case. `decode` accepts the texts that spell some
bytes, and gives those bytes (`decode_ok_iff`). -/
namespace Transparency.Text.Hex

/-- Up to the case of its letters, `text` is what is written for `bytes`. -/
def Spells (text : List Char) (bytes : Bytes) : Prop := text.map Char.toLower = digits bytes

/-! ### Digits -/

theorem ascii_of_toLower {c : Char} (ascii : c.toLower.toNat < 128) : c.toNat < 128 := by
  unfold Char.toLower at ascii
  split at ascii
  next capital =>
    have last : c.val.toNat ≤ 90 := UInt32.le_iff_toNat_le.1 capital.2
    show c.val.toNat < 128
    omega
  next => exact ascii

theorem digit_ascii : ∀ v < 16, (digit v).toNat < 128 := by
  decide

theorem value?_of_ascii : ∀ n < 128, ∀ v < 16, (Char.ofNat n).toLower = digit v →
    value? (UInt8.ofNat n) = some v := by
  decide +kernel

theorem ascii_of_value? : ∀ n < 256, ∀ v ∈ value? (UInt8.ofNat n), v < 16 ∧ n < 128 ∧
    (Char.ofNat n).toLower = digit v := by
  decide +kernel

/-- A digit, in either case. -/
theorem value?_of_toLower {c : Char} {v : Nat} (small : v < 16) (same : c.toLower = digit v) :
    c.toNat < 128 ∧ value? (UInt8.ofNat c.toNat) = some v := by
  have ascii : c.toNat < 128 := ascii_of_toLower (same ▸ digit_ascii v small)
  refine ⟨ascii, value?_of_ascii c.toNat ascii v small ?_⟩
  rw [Char.ofNat_toNat, same]

theorem exists_of_value? {byte : UInt8} {v : Nat} (h : value? byte = some v) :
    v < 16 ∧ ∃ c : Char, c.toNat < 128 ∧ UInt8.ofNat c.toNat = byte ∧ c.toLower = digit v := by
  have known := ascii_of_value? byte.toNat (UInt8.toNat_lt byte) v
  rw [UInt8.ofNat_toNat] at known
  obtain ⟨small, ascii, lower⟩ := known h
  have value : (Char.ofNat byte.toNat).toNat = byte.toNat := Utf8.val_ofNat (.inl (by omega))
  refine ⟨small, Char.ofNat byte.toNat, ?_, ?_, lower⟩
  · rwa [value]
  · rw [value, UInt8.ofNat_toNat]

/-! ### Pairs of digits -/

theorem spells_cons_iff {text : List Char} {byte : UInt8} {rest : Bytes} : Spells text (byte :: rest) ↔
    ∃ high low others, text = high :: low :: others ∧ high.toLower = digit (byte.toNat / 16) ∧
      low.toLower = digit (byte.toNat % 16) ∧ Spells others rest := by
  have written : digits (byte :: rest) = digit (byte.toNat / 16) :: digit (byte.toNat % 16) :: digits rest := rfl
  rw [Spells, written]
  constructor
  · intro h
    obtain ⟨high, behind, rfl, highLower, h⟩ := List.map_eq_cons_iff.1 h
    obtain ⟨low, others, rfl, lowLower, h⟩ := List.map_eq_cons_iff.1 h
    exact ⟨high, low, others, rfl, highLower, lowLower, h⟩
  · rintro ⟨high, low, others, rfl, highLower, lowLower, spells⟩
    rw [List.map_cons, List.map_cons, highLower, lowLower, spells]

theorem pairs_of_spells {text : List Char} {bytes : Bytes} (h : Spells text bytes) (index : Nat) (done : Bytes) :
    pairs index done (Utf8.encode text) = .ok (done.reverse ++ bytes) := by
  induction bytes generalizing text index done with
  | nil =>
    rw [List.map_eq_nil_iff.1 h, List.append_nil]
    rfl
  | cons byte rest ih =>
    obtain ⟨high, low, others, rfl, highLower, lowLower, spells⟩ := spells_cons_iff.1 h
    have bound := UInt8.toNat_lt byte
    obtain ⟨highAscii, highValue⟩ := value?_of_toLower (by omega) highLower
    obtain ⟨lowAscii, lowValue⟩ := value?_of_toLower (by omega) lowLower
    rw [Utf8.encode_cons_ascii highAscii, Utf8.encode_cons_ascii lowAscii, pairs, highValue, lowValue]
    simp only
    rw [ih spells, Nat.div_add_mod, UInt8.ofNat_toNat, List.reverse_cons, List.append_assoc,
      List.singleton_append]

theorem length_of_spells {text : List Char} {bytes : Bytes} (h : Spells text bytes) :
    (Utf8.encode text).length = 2 * bytes.length := by
  induction bytes generalizing text with
  | nil =>
    rw [List.map_eq_nil_iff.1 h]
    rfl
  | cons byte rest ih =>
    obtain ⟨high, low, others, rfl, highLower, lowLower, spells⟩ := spells_cons_iff.1 h
    have bound := UInt8.toNat_lt byte
    rw [Utf8.encode_cons_ascii (value?_of_toLower (by omega) highLower).1,
      Utf8.encode_cons_ascii (value?_of_toLower (by omega) lowLower).1]
    simp only [List.length_cons, ih spells]
    omega

theorem spells_of_pairs {index : Nat} {done text out : Bytes} (even : text.length % 2 = 0)
    (h : pairs index done text = .ok out) :
    ∃ chars bytes, out = done.reverse ++ bytes ∧ Spells chars bytes ∧ text = Utf8.encode chars := by
  fun_induction pairs index done text with
  | case1 | case2 => cases h
  | case3 index done high low rest v w lowValue highValue ih =>
    obtain ⟨vSmall, high', highAscii, rfl, highLower⟩ := exists_of_value? highValue
    obtain ⟨wSmall, low', lowAscii, rfl, lowLower⟩ := exists_of_value? lowValue
    have byte : (UInt8.ofNat (16 * v + w)).toNat = 16 * v + w := toNat_ofNat_byte (by omega)
    obtain ⟨chars, bytes, rfl, spells, rfl⟩ := ih (by simp only [List.length_cons] at even; omega) h
    refine ⟨high' :: low' :: chars, UInt8.ofNat (16 * v + w) :: bytes, by simp, spells_cons_iff.2 ?_, ?_⟩
    · refine ⟨high', low', chars, rfl, ?_, ?_, spells⟩
      · rw [byte, highLower]
        congr 1
        omega
      · rw [byte, lowLower]
        congr 1
        omega
    · rw [Utf8.encode_cons_ascii highAscii, Utf8.encode_cons_ascii lowAscii]
  | case4 text index done short =>
    cases h
    cases text with
    | nil => exact ⟨[], [], (List.append_nil _).symm, rfl, rfl⟩
    | cons high rest =>
      cases rest with
      | nil => cases even
      | cons low rest => exact absurd rfl (short high low rest)

/-- **What is decoded from a text are the bytes that it spells**, if it spells any. -/
theorem decode_ok_iff {text bytes : Bytes} :
    decode text = .ok bytes ↔ ∃ chars, Spells chars bytes ∧ text = Utf8.encode chars := by
  constructor
  · intro h
    unfold decode at h
    split at h
    next => cases h
    next even =>
      obtain ⟨chars, bytes, rfl, spells, rfl⟩ := spells_of_pairs (by omega) h
      exact ⟨chars, spells, rfl⟩
  · rintro ⟨chars, spells, rfl⟩
    have length := length_of_spells spells
    rw [decode, if_neg (by omega), pairs_of_spells spells 0 [], List.reverse_nil, List.nil_append]

theorem decode_encode_iff {chars : List Char} {bytes : Bytes} :
    decode (Utf8.encode chars) = .ok bytes ↔ Spells chars bytes := by
  rw [decode_ok_iff]
  constructor
  · rintro ⟨others, spells, same⟩
    rw [Utf8.encode_injective same]
    exact spells
  · intro spells
    exact ⟨chars, spells, rfl⟩

/-- In a string, too, only the case of letters is free. -/
theorem decode_ofString_iff {text : String} {bytes : Bytes} :
    decode (Utf8.ofString text) = .ok bytes ↔ text.toLower = encode bytes := by
  have lowered : text.toLower.toList = text.toList.map Char.toLower := String.toList_map
  rw [Utf8.ofString_eq_encode, decode_encode_iff, Spells, ← String.toList_inj, encode, String.toList_ofList, lowered]

end Transparency.Text.Hex
