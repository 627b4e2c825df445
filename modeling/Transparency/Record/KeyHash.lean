import Transparency.Text.Base64
import Transparency.Text.Hex
import Transparency.Text.Utf8

/-! SHA-256 hashes of public keys, and their text forms. -/
namespace Transparency

/-- Whose key a hash identifies: a log's, or that of a precertificate's issuer. -/
inductive KeyOwner where
  | log
  | issuer
deriving DecidableEq, Repr

structure KeyHash (owner : KeyOwner) where
  bytes : Bytes
  length_eq : bytes.length = 32
deriving DecidableEq

abbrev KeyId := KeyHash .log
abbrev IssuerKeyHash := KeyHash .issuer

namespace KeyHash

/-- The number of bytes of every hash. -/
def size : Nat := 32

inductive Error where
  | invalidLength (actual : Nat)
  | hex (error : Text.Hex.Error)
  | base64 (error : Text.Base64.Error)
deriving DecidableEq, Repr

def Error.message : Error → String
  | .invalidLength actual => s!"invalid length: expected {size}, got {actual}"
  | .hex error => "hex decoding error: " ++ error.message
  | .base64 error => "base64 decoding error: " ++ error.message

variable {owner : KeyOwner}

def ofBlock (block : Block size) : KeyHash owner := ⟨block.1, block.2⟩

def ofBytes (bytes : Bytes) : Except Error (KeyHash owner) :=
  if h : bytes.length = size then .ok ⟨bytes, h⟩ else .error (.invalidLength bytes.length)

/-- A text that is not hexadecimal at all is reported as such, whatever its length. -/
def ofHex (text : String) : Except Error (KeyHash owner) :=
  match Text.Hex.decode (Text.Utf8.ofString text) with
  | .ok bytes => ofBytes bytes
  | .error error => .error (.hex error)

/-- A text that is not base64 at all is reported as such, whatever its length. -/
def ofBase64 (text : String) : Except Error (KeyHash owner) :=
  match Text.Base64.decode .canonical (Text.Utf8.ofString text) with
  | .ok bytes => ofBytes bytes
  | .error error => .error (.base64 error)

def hex (hash : KeyHash owner) : String := Text.Hex.encode hash.bytes

def base64 (hash : KeyHash owner) : String := Text.Base64.encode hash.bytes

/-- The kind of hash and its first eight bytes. -/
def summary (hash : KeyHash owner) : String :=
  let kind := match owner with
    | .log => "KeyId"
    | .issuer => "IssuerKeyHash"
  kind ++ "(" ++ Text.Hex.encode (hash.bytes.take 8) ++ ")"

end KeyHash

end Transparency
