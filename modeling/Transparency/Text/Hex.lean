import Transparency.Bytes

/-! Hexadecimal text: two digits to the byte, written in lower case and read in either.

A text is decoded from its UTF-8 bytes, and places in it are counted in bytes. -/
namespace Transparency.Text.Hex

inductive Error where
  | oddLength
  | badDigit (byte : UInt8) (index : Nat)
deriving DecidableEq, Repr

/-! ### Writing -/

/-- The digit of a value below sixteen. -/
def digit (value : Nat) : Char := Char.ofNat (if value < 10 then 48 + value else 87 + value)

/-- Two digits. -/
def octet (byte : UInt8) : List Char := [digit (byte.toNat / 16), digit (byte.toNat % 16)]

def digits (bytes : Bytes) : List Char := bytes.flatMap octet

def encode (bytes : Bytes) : String := String.ofList (digits bytes)

/-! ### Reading -/

def value? (byte : UInt8) : Option Nat :=
  let n := byte.toNat
  if 48 ≤ n && n ≤ 57 then some (n - 48)
  else if 97 ≤ n && n ≤ 102 then some (n - 87)
  else if 65 ≤ n && n ≤ 70 then some (n - 55)
  else none

/-- Reads pairs of digits on from `index`; `done` holds the bytes so far, last first. -/
def pairs (index : Nat) (done : Bytes) : Bytes → Except Error Bytes
  | high :: low :: rest =>
    match value? high, value? low with
    | none, _ => .error (.badDigit high index)
    | some _, none => .error (.badDigit low (index + 1))
    | some h, some l => pairs (index + 2) (UInt8.ofNat (16 * h + l) :: done) rest
  | _ => .ok done.reverse

/-- An odd number of digits is refused before any digit is looked at. -/
def decode (text : Bytes) : Except Error Bytes :=
  if text.length % 2 = 1 then .error .oddLength else pairs 0 [] text

/-! ### Messages -/

/-- Characters that have no glyph of their own in Latin-1. -/
def isHidden (n : Nat) : Bool := n < 0x20 || 0x7F ≤ n && n ≤ 0xA0 || n = 0xAD

/-- A byte as the Latin-1 character it stands for, between quotes, escaped where it would not show. -/
def quoted (byte : UInt8) : String :=
  let n := byte.toNat
  let body : List Char :=
    if n = 0x00 then ['\\', '0']
    else if n = 0x09 then ['\\', 't']
    else if n = 0x0A then ['\\', 'n']
    else if n = 0x0D then ['\\', 'r']
    else if n = 0x27 || n = 0x5C then ['\\', Char.ofNat n]
    else if isHidden n then "\\u\x7b".toList ++ Nat.toDigits 16 n ++ "\x7d".toList
    else [Char.ofNat n]
  String.ofList (Char.ofNat 0x27 :: body ++ [Char.ofNat 0x27])

def Error.message : Error → String
  | .oddLength => "Odd number of digits"
  | .badDigit byte index => "Invalid character " ++ quoted byte ++ s!" at position {index}"

end Transparency.Text.Hex
