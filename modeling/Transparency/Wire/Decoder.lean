import Transparency.Note
import Transparency.Wire.DecodeError
import Transparency.Wire.Source

/-! Readers, and the fields that every record is made of.

A reader is a source with a count of the bytes that were read from it. A decoder takes what it needs
from a reader and leaves the rest there, also when it fails. Bytes that a draw took before its source
failed are in no one's hands: they are `lost`, and the position does not count them. What is told of the
position is a word of 64 bits, and right as long as the position is below 2^64. -/
namespace Transparency.Wire

structure Reader where
  source : Source
  position : Nat := 0
  lost : Nat := 0
  /-- Latest first. -/
  notes : List Note := []

namespace Reader

def ofBytes (bytes : Bytes) : Reader := {source := .ofBytes bytes}

def unread (r : Reader) : Bytes := r.source.unread

/-- The position as it is kept and told. -/
def counter (r : Reader) : UInt64 := .ofNat r.position

theorem toNat_counter {r : Reader} (inWord : r.position < UInt64.size) : r.counter.toNat = r.position :=
  UInt64.toNat_ofNat_of_lt' inWord

end Reader

abbrev Decoder := EStateM DecodeError Reader

namespace Decoder

variable {α : Type}

/-- Makes a note of the place where the reader is. -/
def noteAt (n : (position : Nat) → Note) : Decoder Unit :=
  modify fun r => {r with notes := n r.position :: r.notes}

def note (n : Note) : Decoder Unit := noteAt fun _ => n

/-! ### Drawing -/

/-- Up to `n` bytes, fewer only at the end of the input. -/
def upTo (n : Nat) : Decoder Bytes := fun r =>
  let d := r.source.draw n
  match d.stop with
  | .failed error => .error (.io error) {r with source := d.source, lost := r.lost + d.bytes.length}
  | .filled | .ended => .ok d.bytes {r with source := d.source, position := r.position + d.bytes.length}

/-- All that is left. A draw that asks for more than the events hold is filled only by a source without
an end. -/
def toEnd : Decoder Bytes := fun r =>
  let d := r.source.draw (r.unread.length + 1)
  match d.stop with
  | .failed error => .error (.io error) {r with source := d.source, lost := r.lost + d.bytes.length}
  | .filled => .error .endless {r with source := d.source, lost := r.lost + d.bytes.length}
  | .ended => .ok d.bytes {r with source := d.source, position := r.position + d.bytes.length}

/-- Exactly `n` bytes. -/
def block (n : Nat) : Decoder (Block n) := do
  let bytes ← upTo n
  if h : bytes.length = n then return ⟨bytes, h⟩
  else throw (.truncated n bytes.length)

def bytes (n : Nat) : Decoder Bytes := do
  let b ← block n
  return b.1

/-! ### Numbers and fields -/

/-- The last `left` bytes of a number of `width` bytes, after `value`. -/
def numberOn (width : Nat) : (left : Nat) → (value : UInt64) → Decoder UInt64
  | 0, value => return value
  | left + 1, value => do
    match ← upTo 1 with
    | byte :: _ => numberOn width left ((value <<< 8) ||| byte.toUInt64)
    | [] => throw (.truncated width (width - (left + 1)))

/-- An unsigned number of `width` bytes, most significant first, read byte by byte. -/
def number (width : Nat) : Decoder UInt64 :=
  if maxNumberWidth < width then throw (.numberTooWide width)
  else numberOn width width 0

/-- The value, where there is one. -/
def demand (value? : Option α) (error : DecodeError) : Decoder α :=
  match value? with
  | some value => return value
  | none => throw error

/-- A tag of `width` bytes, which `of?` has a meaning for or which is refused. -/
def tagged (width : Nat) (of? : Nat → Option α) (refuse : UInt64 → DecodeError) : Decoder α := do
  let tag ← number width
  demand (of? tag.toNat) (refuse tag)

/-- A field of at most `max` bytes behind its length, which must be a size in memory. -/
def field (max : UInt64) : Decoder Bytes := do
  let length ← number (bytesNeeded max)
  if max < length then throw (.corrupt (.lengthOverMaximum length.toNat max.toNat))
  else
    let size ← demand (size? length) (.corrupt (.lengthOverMemory length.toNat))
    noteAt (.fieldBegun size)
    bytes size

/-- Every length is a size. -/
theorem field_eq (max : UInt64) : field max = number (bytesNeeded max) >>= fun length =>
    if max < length then throw (.corrupt (.lengthOverMaximum length.toNat max.toNat))
    else noteAt (.fieldBegun length.toNat) >>= fun _ => bytes length.toNat := by
  simp only [field, size?_eq]
  rfl

/-- Fields up to the end of the events; `done` holds those so far, last first. No more than `bound`. -/
def fields (max : UInt64) : (bound : Nat) → (done : List Bytes) → Decoder (List Bytes)
  | 0, done => return done.reverse
  | bound + 1, done => do
    if (← get).source.isSpent then return done.reverse
    else
      let bytes ← field max
      fields max bound (bytes :: done)

/-- Decodes `bytes` on their own, from position zero. Only the notes are shared with the reader. -/
def within (bytes : Bytes) (decoder : Decoder α) : Decoder α := fun r =>
  match decoder {Reader.ofBytes bytes with notes := r.notes} with
  | .ok value inner => .ok value {r with notes := inner.notes}
  | .error error inner => .error error {r with notes := inner.notes}

end Decoder

end Transparency.Wire
