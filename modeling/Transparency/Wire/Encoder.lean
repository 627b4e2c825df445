import Transparency.Wire.EncodeError
import Transparency.Wire.Sink

/-! Writers, and the fields that every record is made of.

A writer is a sink with a count of the bytes that were written to it whole: what a sink takes of a field
before it fails stays in the sink, but the position does not count it. What is told of the position is a word
of 64 bits, and right as long as the position is below 2^64. A value that does not fit its field is refused
before anything of the field is written. -/
namespace Transparency.Wire

structure Writer where
  sink : Sink := {}
  position : Nat := 0

/-- The position as it is kept and told. -/
def Writer.counter (w : Writer) : UInt64 := .ofNat w.position

theorem Writer.toNat_counter {w : Writer} (inWord : w.position < UInt64.size) : w.counter.toNat = w.position :=
  UInt64.toNat_ofNat_of_lt' inWord

abbrev Encoder := EStateM EncodeError Writer

namespace Encoder

/-- All of `data`. -/
def bytes (data : Bytes) : Encoder Unit := fun w =>
  let p := w.sink.push data
  match p.stop with
  | .all => .ok () {w with sink := p.sink, position := w.position + data.length}
  | .nothing => .error (.io .nothingTaken) {w with sink := p.sink}
  | .failed error => .error (.io error) {w with sink := p.sink}

/-- The eight bytes of a word, most significant first. -/
def wordBytes (value : UInt64) : Bytes :=
  ([56, 48, 40, 32, 24, 16, 8, 0] : List UInt64).map fun shift => (value >>> shift).toUInt8

/-- An unsigned number in exactly `width` bytes, most significant first. -/
def number (value : UInt64) (width : Nat) : Encoder Unit :=
  if maxNumberWidth < width then throw (.numberTooWide width)
  else if width < maxNumberWidth ∧ value >>> UInt64.ofNat (8 * width) ≠ 0 then
    throw (.numberTooLarge value width)
  else bytes ((wordBytes value).drop (maxNumberWidth - width))

/-- A field of at most `max` bytes behind its length. -/
def field (data : Bytes) (max : UInt64) : Encoder Unit := do
  if max.toNat < data.length then throw (.fieldTooLong data.length max.toNat)
  else
    number (UInt64.ofNat data.length) (bytesNeeded max)
    bytes data

/-- What an encoder writes to memory, which takes everything. -/
def toBytes (encoder : Encoder Unit) : Except EncodeError Bytes :=
  match encoder {} with
  | .ok _ w => .ok w.sink.output
  | .error error _ => .error error

end Encoder

end Transparency.Wire
