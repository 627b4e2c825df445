import Transparency.Text.Base64
import Transparency.Text.Blank
import Transparency.Text.Hex
import Transparency.Text.Utf8

/-! The encodings in which an input file may hold a record. White space around a text is ignored. -/
namespace Transparency.Command

inductive InputFormat where
  | binary
  | hex
  | base64
deriving DecidableEq, Repr

namespace InputFormat

inductive Error where
  | utf8 (error : Text.Utf8.Error)
  | hex (error : Text.Hex.Error)
  | base64 (error : Text.Base64.Error)
deriving DecidableEq, Repr

def Error.message : Error → String
  | .utf8 error => error.message
  | .hex error => error.message
  | .base64 error => error.message

def name : InputFormat → String
  | .binary => "Binary"
  | .hex => "Hex"
  | .base64 => "Base64"

def ofFlag? : String → Option InputFormat
  | "--binary" => some .binary
  | "--hex" => some .hex
  | "--base64" => some .base64
  | _ => none

/-- The text of a file without white space around it, in UTF-8 again. -/
def trimmed (contents : Bytes) : Except Error Bytes := do
  let text ← (Text.Utf8.decode contents).mapError .utf8
  return Text.Utf8.encode (Text.Blank.trim text)

def decode (format : InputFormat) (contents : Bytes) : Except Error Bytes :=
  match format with
  | .binary => .ok contents
  | .hex => do
    let text ← trimmed contents
    (Text.Hex.decode text).mapError .hex
  | .base64 => do
    let text ← trimmed contents
    (Text.Base64.decode .canonical text).mapError .base64

end InputFormat

end Transparency.Command
