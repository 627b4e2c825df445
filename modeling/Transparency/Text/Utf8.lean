import Transparency.Bytes

/-! UTF-8 between bytes and characters.

`decode` reads one sequence at a time and stops at the first that no character has. It reports where
that sequence begins and how many of its bytes could still have begun a character, or that the text
ended inside a sequence that could. -/
namespace Transparency.Text.Utf8

inductive Error where
  | invalid (length index : Nat)
  | incomplete (index : Nat)
deriving DecidableEq, Repr

def Error.message : Error → String
  | .invalid length index => s!"invalid utf-8 sequence of {length} bytes from index {index}"
  | .incomplete index => s!"incomplete utf-8 byte sequence from index {index}"

/-! ### Sequences -/

def isContinuation (byte : UInt8) : Bool := 0x80 ≤ byte && byte ≤ 0xBF

/-- The second byte after the lead byte of a longer sequence. The narrower ranges exclude characters
that a shorter sequence has, surrogates, and what lies above the last code point. -/
def isSecond (lead byte : UInt8) : Bool :=
  let low : UInt8 := if lead = 0xE0 then 0xA0 else if lead = 0xF0 then 0x90 else 0x80
  let high : UInt8 := if lead = 0xED then 0x9F else if lead = 0xF4 then 0x8F else 0xBF
  low ≤ byte && byte ≤ high

/-- The six bits that a continuation byte carries. -/
def payload (byte : UInt8) : Nat := byte.toNat % 64

def char2 (a b : UInt8) : Char := Char.ofNat (a.toNat % 32 * 64 + payload b)

def char3 (a b c : UInt8) : Char := Char.ofNat ((a.toNat % 16 * 64 + payload b) * 64 + payload c)

def char4 (a b c d : UInt8) : Char :=
  Char.ofNat (((a.toNat % 8 * 64 + payload b) * 64 + payload c) * 64 + payload d)

/-! ### Texts -/

/-- Reads on from `index`; `done` holds the characters so far, last first. -/
def scan (index : Nat) (done : List Char) : Bytes → Except Error (List Char)
  | [] => .ok done.reverse
  | a :: rest =>
    if a < 0x80 then
      scan (index + 1) (Char.ofNat a.toNat :: done) rest
    else if 0xC2 ≤ a && a ≤ 0xDF then
      match rest with
      | [] => .error (.incomplete index)
      | b :: rest =>
        if isContinuation b then scan (index + 2) (char2 a b :: done) rest
        else .error (.invalid 1 index)
    else if 0xE0 ≤ a && a ≤ 0xEF then
      match rest with
      | [] => .error (.incomplete index)
      | b :: rest =>
        if isSecond a b then
          match rest with
          | [] => .error (.incomplete index)
          | c :: rest =>
            if isContinuation c then scan (index + 3) (char3 a b c :: done) rest
            else .error (.invalid 2 index)
        else .error (.invalid 1 index)
    else if 0xF0 ≤ a && a ≤ 0xF4 then
      match rest with
      | [] => .error (.incomplete index)
      | b :: rest =>
        if isSecond a b then
          match rest with
          | [] => .error (.incomplete index)
          | c :: rest =>
            if isContinuation c then
              match rest with
              | [] => .error (.incomplete index)
              | d :: rest =>
                if isContinuation d then scan (index + 4) (char4 a b c d :: done) rest
                else .error (.invalid 3 index)
            else .error (.invalid 2 index)
        else .error (.invalid 1 index)
    else .error (.invalid 1 index)

def decode (bytes : Bytes) : Except Error (List Char) := scan 0 [] bytes

def encode (chars : List Char) : Bytes := chars.flatMap String.utf8EncodeChar

/-- The bytes of a string, which is kept in UTF-8. -/
def ofString (text : String) : Bytes := text.toUTF8.data.toList

theorem ofString_eq_encode (text : String) : ofString text = encode text.toList := by
  show text.toByteArray.data.toList = text.toList.flatMap String.utf8EncodeChar
  rw [← String.utf8Encode_toList, List.utf8Encode]
  simp

theorem ofString_inj {a b : String} : ofString a = ofString b ↔ a = b := by
  constructor
  · intro same
    exact String.toByteArray_inj.1 (ByteArray.ext (Array.toList_inj.1 same))
  · intro same
    rw [same]

/-- Characters below 128 are their own bytes. -/
theorem encode_ascii {chars : List Char} (ascii : ∀ c ∈ chars, c.toNat < 128) :
    encode chars = chars.map fun c => UInt8.ofNat c.toNat := by
  induction chars with
  | nil => rfl
  | cons c rest ih =>
    obtain ⟨small, others⟩ := List.forall_mem_cons.1 ascii
    have one : String.utf8EncodeChar c = [UInt8.ofNat c.toNat] := if_pos (Nat.le_of_lt_succ small)
    have split : encode (c :: rest) = String.utf8EncodeChar c ++ encode rest := List.flatMap_cons
    rw [split, one, ih others]
    rfl

end Transparency.Text.Utf8
