import Transparency.Bytes

/-! Base64 with the standard alphabet: three bytes to four symbols of six bits.

A text is decoded from its UTF-8 bytes, and places in it are counted in bytes. All but its last one to
four bytes must be whole groups of four symbols; the last, the tail, may be padded. Bits of the last
symbol that no byte uses must be zero, so what is accepted differs from the written form in its padding
at most, and under `Padding.canonical` not even there. -/
namespace Transparency.Text.Base64

/-- What a decoder asks of the padding: that it fills the last group, or nothing. -/
inductive Padding where
  | canonical
  | optional
deriving DecidableEq, Repr

inductive Error where
  | invalidSymbol (byte : UInt8) (index : Nat)
  | invalidLength (length : Nat)
  | invalidPadding
  | invalidLastSymbol (byte : UInt8) (index : Nat)
deriving DecidableEq, Repr

def Error.message : Error → String
  | .invalidSymbol byte index => s!"Invalid symbol {byte.toNat}, offset {index}."
  | .invalidLength length => s!"Invalid input length: {length}"
  | .invalidPadding => "Invalid padding"
  | .invalidLastSymbol byte index => s!"Invalid last symbol {byte.toNat}, offset {index}."

/-! ### The alphabet -/

/-- The symbol of a value below sixty-four. -/
def symbol (value : Nat) : Char :=
  Char.ofNat <|
    if value < 26 then 65 + value
    else if value < 52 then 71 + value
    else if value < 62 then value - 4
    else if value = 62 then 43
    else 47

def value? (byte : UInt8) : Option Nat :=
  let n := byte.toNat
  if 65 ≤ n && n ≤ 90 then some (n - 65)
  else if 97 ≤ n && n ≤ 122 then some (n - 71)
  else if 48 ≤ n && n ≤ 57 then some (n + 4)
  else if n = 43 then some 62
  else if n = 47 then some 63
  else none

theorem value?_symbol : ∀ v < 64, value? (UInt8.ofNat (symbol v).toNat) = some v := by
  decide

/-- The padding byte. -/
def pad : UInt8 := 61

/-! ### Writing -/

/-- Writes on from `done`, which holds the text so far, last character first. -/
def groups (done : List Char) : Bytes → List Char
  | [] => done.reverse
  | [a] =>
    let n := a.toNat * 16
    ('=' :: '=' :: symbol (n % 64) :: symbol (n / 64) :: done).reverse
  | [a, b] =>
    let n := (a.toNat * 256 + b.toNat) * 4
    ('=' :: symbol (n % 64) :: symbol (n / 64 % 64) :: symbol (n / 4096) :: done).reverse
  | a :: b :: c :: rest =>
    let n := (a.toNat * 256 + b.toNat) * 256 + c.toNat
    groups (symbol (n % 64) :: symbol (n / 64 % 64) :: symbol (n / 4096 % 64) ::
      symbol (n / 262144) :: done) rest

def encode (bytes : Bytes) : String := String.ofList (groups [] bytes)

/-! ### Reading -/

def sextet (byte : UInt8) (index : Nat) : Except Error Nat :=
  match value? byte with
  | some value => .ok value
  | none => .error (.invalidSymbol byte index)

/-- The values of symbols that begin at `index`. -/
def sextets (index : Nat) : Bytes → Except Error (List Nat)
  | [] => .ok []
  | byte :: rest => do
    let value ← sextet byte index
    let values ← sextets (index + 1) rest
    .ok (value :: values)

/-- The bytes of the tail's symbols, and the bits that are left over. -/
def tailBytes : List Nat → Bytes × Nat
  | [x, y] => ([UInt8.ofNat (x * 4 + y / 16)], y % 16)
  | [x, y, z] =>
    let n := (x * 64 + y) * 64 + z
    ([UInt8.ofNat (n / 1024), UInt8.ofNat (n / 4 % 256)], n % 4)
  | [x, y, z, w] =>
    let n := ((x * 64 + y) * 64 + z) * 64 + w
    ([UInt8.ofNat (n / 65536), UInt8.ofNat (n / 256 % 256), UInt8.ofNat (n % 256)], 0)
  | _ => ([], 0)

/-- Reads the tail, at most four bytes that begin at `start`: symbols, then padding. -/
def tail (padding : Padding) (start : Nat) (text : Bytes) : Except Error Bytes := do
  let symbols := text.takeWhile (· ≠ pad)
  let pads := text.dropWhile (· ≠ pad)
  let values ← sextets start symbols
  if pads ≠ [] ∧ (symbols.length < 2 ∨ pads.any (· ≠ pad)) then
    throw (.invalidSymbol pad (start + symbols.length))
  if text ≠ [] ∧ symbols.length < 2 then
    throw (.invalidLength (start + symbols.length))
  if padding = .canonical ∧ (symbols.length + pads.length) % 4 ≠ 0 then
    throw .invalidPadding
  let (bytes, spare) := tailBytes values
  if spare ≠ 0 then
    throw (.invalidLastSymbol (symbols.getLastD pad) (start + symbols.length - 1))
  return bytes

/-- Reads on from `index`: whole groups as long as more than a group is left, then the tail. `done` holds
the bytes so far, last first. -/
def scan (padding : Padding) (index : Nat) (done : Bytes) : Bytes → Except Error Bytes
  | a :: b :: c :: d :: e :: rest => do
    let x ← sextet a index
    let y ← sextet b (index + 1)
    let z ← sextet c (index + 2)
    let w ← sextet d (index + 3)
    let n := ((x * 64 + y) * 64 + z) * 64 + w
    scan padding (index + 4)
      (UInt8.ofNat (n % 256) :: UInt8.ofNat (n / 256 % 256) :: UInt8.ofNat (n / 65536) :: done)
      (e :: rest)
  | text => do
    let bytes ← tail padding index text
    return done.reverseAux bytes

/-- A foreign byte that stands alone in the tail is reported before anything else. -/
def decode (padding : Padding) (text : Bytes) : Except Error Bytes := do
  if text.length % 4 = 1 then
    let last := text.getLastD pad
    if last ≠ pad then
      discard (sextet last (text.length - 1))
  scan padding 0 [] text

end Transparency.Text.Base64
