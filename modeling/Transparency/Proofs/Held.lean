import Mathlib.Data.List.TakeWhile
import Transparency.Command.Input
import Transparency.Proofs.Base64
import Transparency.Proofs.Hex

/-! The bytes that a file holds.

A file in a text format is the UTF-8 of a spelling of the bytes with white space around it, of any length and
any kind (`Command.InputFormat.trimmed_texts_decoded`). So what is decoded from a file is what it holds
(`decode_ok_iff_holds`), which is one byte string at most. -/
namespace Transparency

/-! ### White space -/

namespace Text.Blank

def IsBlank (text : List Char) : Prop := ∀ c ∈ text, isBlank c = true

instance (text : List Char) : Decidable (IsBlank text) :=
  List.decidableBAll (fun c => isBlank c = true) text

/-- White space around a text makes no difference. -/
theorem trim_surrounded {before after : List Char} (blankBefore : IsBlank before) (blankAfter : IsBlank after)
    (text : List Char) : trim (before ++ text ++ after) = trim text := by
  unfold trim
  rw [List.append_assoc, List.dropWhile_append_of_pos blankBefore, List.dropWhile_append]
  split
  next none => rw [List.isEmpty_iff.1 none, List.dropWhile_eq_nil_iff.2 blankAfter]
  next =>
    have blankEnd : ∀ c ∈ after.reverse, isBlank c = true := fun c member =>
      blankAfter c (List.mem_reverse.1 member)
    rw [List.reverse_append, List.dropWhile_append_of_pos blankEnd]

theorem dropWhile_of_first {text : List Char} (first : ∀ c ∈ text.head?, isBlank c = false) :
    text.dropWhile isBlank = text := by
  cases text with
  | nil => rfl
  | cons c rest => rw [List.dropWhile_cons_of_neg (by simp [first c rfl])]

theorem trim_of_ends {text : List Char} (first : ∀ c ∈ text.head?, isBlank c = false)
    (last : ∀ c ∈ text.getLast?, isBlank c = false) : trim text = text := by
  have backwards : ∀ c ∈ text.reverse.head?, isBlank c = false := fun c member =>
    last c (List.head?_reverse ▸ member)
  rw [trim, dropWhile_of_first first, dropWhile_of_first backwards, List.reverse_reverse]

theorem trim_of_plain {text : List Char} (plain : ∀ c ∈ text, isBlank c = false) : trim text = text :=
  trim_of_ends (fun c first => plain c (List.mem_of_head? first)) fun c last =>
    plain c (List.mem_of_getLast? last)

theorem exists_surrounds (text : List Char) :
    ∃ before after, IsBlank before ∧ IsBlank after ∧ text = before ++ trim text ++ after := by
  let behind := text.dropWhile isBlank
  refine ⟨text.takeWhile isBlank, (behind.reverse.takeWhile isBlank).reverse, fun c => List.mem_takeWhile_imp,
    fun c member => List.mem_takeWhile_imp (List.mem_reverse.1 member), ?_⟩
  have cut : trim text ++ (behind.reverse.takeWhile isBlank).reverse = behind := by
    rw [trim, ← List.reverse_append, List.takeWhile_append_dropWhile, List.reverse_reverse]
  rw [List.append_assoc, cut, List.takeWhile_append_dropWhile]

/-- `core` is what is left of a text when the white space at both its ends is taken away. -/
structure Trims (text core : List Char) : Prop where
  around : ∃ before after, IsBlank before ∧ IsBlank after ∧ text = before ++ core ++ after
  first : ∀ c ∈ core.head?, isBlank c = false
  last : ∀ c ∈ core.getLast?, isBlank c = false

theorem first_dropWhile (text : List Char) : ∀ c ∈ (text.dropWhile isBlank).head?, isBlank c = false := by
  intro c first
  have stops := List.head?_dropWhile_not isBlank text
  rw [first] at stops
  simpa using stops

theorem trims_iff {text core : List Char} : Trims text core ↔ trim text = core := by
  constructor
  · rintro ⟨⟨before, after, blankBefore, blankAfter, rfl⟩, first, last⟩
    rw [trim_surrounded blankBefore blankAfter, trim_of_ends first last]
  · rintro rfl
    have last : ∀ c ∈ (trim text).getLast?, isBlank c = false := by
      rw [trim, List.getLast?_reverse]
      exact first_dropWhile _
    refine ⟨exists_surrounds text, fun c first => ?_, last⟩
    -- What is cut off behind leaves the first character where it is.
    have begins : trim text <+: text.dropWhile isBlank := by
      rw [trim, ← List.reverse_suffix, List.reverse_reverse]
      exact List.dropWhile_suffix isBlank
    obtain ⟨behind, whole⟩ := begins
    refine first_dropWhile text c ?_
    rw [← whole, List.head?_append, first]
    rfl

end Text.Blank

/-! ### Formats -/

namespace Command.InputFormat
open Text

/-- A file with a text between white space. -/
def Surrounds (contents : Bytes) (text : List Char) : Prop :=
  ∃ before after, Blank.IsBlank before ∧ Blank.IsBlank after ∧ contents = Utf8.encode (before ++ text ++ after)

/-- What a file holds in each format: itself, the bytes that its digits spell in either case, or those of which
it is the base64. -/
def Holds : InputFormat → (contents bytes : Bytes) → Prop
  | .binary, contents, bytes => contents = bytes
  | .hex, contents, bytes => ∃ text, Surrounds contents text ∧ Hex.Spells text bytes
  | .base64, contents, bytes => Surrounds contents (Base64.encode bytes).toList

theorem trimmed_ok_iff {contents text : Bytes} :
    trimmed contents = .ok text ↔
      ∃ chars, contents = Utf8.encode chars ∧ Utf8.encode (Blank.trim chars) = text := by
  rw [trimmed, Except.bind_ok_iff]
  refine exists_congr fun chars => ?_
  rw [Except.mapError_ok_iff, Utf8.decode_ok_iff]
  exact and_congr_right fun _ => ⟨Except.ok.inj, congrArg _⟩

/-- A text that has no white space is what is left of the file. -/
theorem surrounds_iff_trim {contents : Bytes} {text : List Char}
    (plain : ∀ c ∈ text, Blank.isBlank c = false) :
    Surrounds contents text ↔ ∃ chars, contents = Utf8.encode chars ∧ Blank.trim chars = text := by
  constructor
  · rintro ⟨before, after, blankBefore, blankAfter, rfl⟩
    refine ⟨_, rfl, ?_⟩
    rw [Blank.trim_surrounded blankBefore blankAfter, Blank.trim_of_plain plain]
  · rintro ⟨chars, rfl, rfl⟩
    obtain ⟨before, after, blankBefore, blankAfter, split⟩ := Blank.exists_surrounds chars
    exact ⟨before, after, blankBefore, blankAfter, congrArg _ split⟩

theorem isBlank_of_value? : ∀ n < 128, ∀ v ∈ Hex.value? (UInt8.ofNat n),
    Blank.isBlank (Char.ofNat n) = false := by
  decide +kernel

theorem isBlank_symbol : ∀ v < 64, Blank.isBlank (Base64.symbol v) = false := by
  decide +kernel

/-- No digit is white space. -/
theorem plain_of_spells {text : List Char} {bytes : Bytes} (h : Hex.Spells text bytes) :
    ∀ c ∈ text, Blank.isBlank c = false := by
  intro c member
  have lower : c.toLower ∈ Hex.digits bytes := h ▸ List.mem_map_of_mem member
  obtain ⟨byte, -, inOctet⟩ := List.mem_flatMap.1 lower
  have bound := UInt8.toNat_lt byte
  have digit : ∃ v < 16, c.toLower = Hex.digit v := by
    rcases List.mem_cons.1 inOctet with high | low
    · exact ⟨_, by omega, high⟩
    · exact ⟨_, by omega, List.mem_singleton.1 low⟩
  obtain ⟨v, small, same⟩ := digit
  obtain ⟨ascii, value⟩ := Hex.value?_of_toLower small same
  have plain := isBlank_of_value? c.toNat ascii v value
  rwa [Char.ofNat_toNat] at plain

/-- No symbol is white space, nor is the padding. -/
theorem plain_encode (bytes : Bytes) : ∀ c ∈ (Base64.encode bytes).toList, Blank.isBlank c = false := by
  intro c member
  rw [Base64.toList_encode] at member
  rcases List.mem_append.1 member with symbol | pad
  · obtain ⟨v, sextet, rfl⟩ := List.mem_map.1 symbol
    exact isBlank_symbol v (Base64.sextetsOf_lt bytes v sextet)
  · rw [List.eq_of_mem_replicate pad]
    decide

/-- A decoder of texts is given a file without the white space at its ends. -/
theorem decode_trimmed_ok_iff {ε : Type} {decoder : Bytes → Except ε Bytes} {refusal : ε → Error}
    {contents bytes : Bytes} :
    (trimmed contents >>= fun text => (decoder text).mapError refusal) = .ok bytes ↔
      ∃ chars, contents = Utf8.encode chars ∧ decoder (Utf8.encode (Blank.trim chars)) = .ok bytes := by
  simp only [Except.bind_ok_iff, Except.mapError_ok_iff, trimmed_ok_iff]
  constructor
  · rintro ⟨_, ⟨chars, rfl, rfl⟩, decoded⟩
    exact ⟨chars, rfl, decoded⟩
  · rintro ⟨chars, rfl, decoded⟩
    exact ⟨_, ⟨chars, rfl, rfl⟩, decoded⟩

theorem decode_hex_ok_iff {contents bytes : Bytes} : decode .hex contents = .ok bytes ↔
    ∃ chars, contents = Utf8.encode chars ∧ Hex.Spells (Blank.trim chars) bytes := by
  simp only [decode, decode_trimmed_ok_iff, Hex.decode_encode_iff]

theorem decode_base64_ok_iff {contents bytes : Bytes} : decode .base64 contents = .ok bytes ↔
    ∃ chars, contents = Utf8.encode chars ∧ Blank.trim chars = (Base64.encode bytes).toList := by
  simp only [decode, decode_trimmed_ok_iff, Base64.decode_encode_iff]

/-- **What is decoded from a file is what it holds.** -/
theorem decode_ok_iff_holds {format : InputFormat} {contents bytes : Bytes} :
    format.decode contents = .ok bytes ↔ format.Holds contents bytes := by
  cases format with
  | binary => exact ⟨Except.ok.inj, congrArg _⟩
  | hex =>
    rw [decode_hex_ok_iff]
    constructor
    · rintro ⟨chars, rfl, spells⟩
      exact ⟨_, (surrounds_iff_trim (plain_of_spells spells)).2 ⟨chars, rfl, rfl⟩, spells⟩
    · rintro ⟨text, surrounds, spells⟩
      obtain ⟨chars, rfl, rfl⟩ := (surrounds_iff_trim (plain_of_spells spells)).1 surrounds
      exact ⟨chars, rfl, spells⟩
  | base64 => rw [decode_base64_ok_iff, Holds, surrounds_iff_trim (plain_encode bytes)]

theorem trimmed_encode (chars : List Char) :
    trimmed (Utf8.encode chars) = .ok (Utf8.encode (Blank.trim chars)) :=
  trimmed_ok_iff.2 ⟨chars, rfl, rfl⟩

/-- In a text format, white space around a text changes neither what is decoded nor how it fails. -/
theorem decode_surrounded {format : InputFormat} (text : format ≠ .binary) {before after : List Char}
    (blankBefore : Blank.IsBlank before) (blankAfter : Blank.IsBlank after) (chars : List Char) :
    format.decode (Utf8.encode (before ++ chars ++ after)) = format.decode (Utf8.encode chars) := by
  have same : trimmed (Utf8.encode (before ++ chars ++ after)) = trimmed (Utf8.encode chars) := by
    rw [trimmed_encode, trimmed_encode, Blank.trim_surrounded blankBefore blankAfter]
  cases format with
  | binary => exact absurd rfl text
  | hex | base64 => simp only [decode, same]

/-- **A text format decodes the files whose text, without the white space at its ends, spells some bytes**: in
hexadecimal two digits to the byte, in base64 as it is written, padding and all. White space around a text never
matters, in an error neither; a binary file is taken as it is. -/
theorem trimmed_texts_decoded :
    (∀ contents bytes, decode .hex contents = .ok bytes ↔ ∃ text core, contents = Utf8.encode text ∧
      Blank.Trims text core ∧ Hex.Spells core bytes) ∧
    (∀ contents bytes, decode .base64 contents = .ok bytes ↔ ∃ text, contents = Utf8.encode text ∧
      Blank.Trims text (Base64.encode bytes).toList) ∧
    (∀ contents, decode .binary contents = .ok contents) ∧
    ∀ format, format ≠ .binary → ∀ before after, Blank.IsBlank before → Blank.IsBlank after → ∀ text,
      decode format (Utf8.encode (before ++ text ++ after)) = decode format (Utf8.encode text) := by
  refine ⟨fun contents bytes => ?_, fun contents bytes => ?_, fun contents => rfl, ?_⟩
  · simp only [decode_hex_ok_iff, Blank.trims_iff, exists_eq_left', exists_and_left]
  · simp only [decode_base64_ok_iff, Blank.trims_iff]
  · intro format text before after blankBefore blankAfter chars
    exact decode_surrounded text blankBefore blankAfter chars

/-- Between an ideographic space and a next-line character: bytes, and an error whose place is counted from the
text. -/
theorem trimmed_texts_decoded_wide :
    let before := "\u3000 ".toList
    let after := "\u0085\n".toList
    decode .hex (Utf8.encode (before ++ "0aF0".toList ++ after)) = .ok [0x0A, 0xF0] ∧
      decode .hex (Utf8.encode (before ++ "0a F".toList ++ after)) = .error (.hex (.badDigit 0x20 2)) := by
  intro before after
  have blankBefore : Blank.IsBlank before := by decide +kernel
  have blankAfter : Blank.IsBlank after := by decide +kernel
  obtain ⟨-, -, -, surrounded⟩ := trimmed_texts_decoded
  constructor
  · rw [surrounded .hex (by decide) before after blankBefore blankAfter]
    decide +kernel
  · rw [surrounded .hex (by decide) before after blankBefore blankAfter]
    decide +kernel

end Command.InputFormat

end Transparency
