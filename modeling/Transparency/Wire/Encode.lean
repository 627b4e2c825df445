import Transparency.Record.Entry
import Transparency.Record.Sct
import Transparency.Wire.Encoder

/-! Encoding records: each encoder writes what the decoder of the same name reads. -/
namespace Transparency.Wire

namespace Encoder

/-! ### Signed certificate timestamps -/

/-- The tag of an enumeration. -/
def tag (value width : Nat) : Encoder Unit := number (UInt64.ofNat value) width

def digitallySigned (s : DigitallySigned) : Encoder Unit := do
  tag s.hashAlgorithm.tag algorithmLength
  tag s.signatureAlgorithm.tag algorithmLength
  field s.signature maxSignatureLength

def sct (s : Sct) : Encoder Unit := do
  tag s.version.tag versionLength
  bytes s.id.keyId.bytes
  number s.timestamp timestampLength
  field s.extensions maxExtensionsLength
  digitallySigned s.signature

/-! ### Leaves -/

def precert (p : Precert) : Encoder Unit := do
  bytes p.issuerKeyHash.bytes
  field p.tbsCertificate maxTbsCertificateLength

def signedEntry : SignedEntry → Encoder Unit
  | .x509 certificate => field certificate maxCertificateLength
  | .precert p => precert p

def timestampedEntry (e : TimestampedEntry) : Encoder Unit := do
  number e.timestamp timestampLength
  tag e.signedEntry.entryType.tag entryTypeLength
  signedEntry e.signedEntry

def leaf (l : Leaf) : Encoder Unit := do
  tag l.version.tag versionLength
  tag timestampedEntryLeafType leafTypeLength
  timestampedEntry l.timestampedEntry

/-! ### Chains -/

/-- Each of `items` as a field. -/
def fields (max : UInt64) (items : List Bytes) : Encoder Unit :=
  items.forM fun item => field item max

/-- The certificates are put together in memory first, since their number of bytes stands before them. -/
def certificates (chain : List Bytes) : Encoder Unit := fun w =>
  match (fields maxCertificateLength chain).toBytes with
  | .ok body => field body maxChainLength w
  | .error error => .error error w

/-- The leaf certificate is not written: it is in the leaf. -/
def x509Chain (c : X509Chain) : Encoder Unit := certificates c.certificateChain

/-- The precertificate is not written: it is in the leaf. -/
def precertChain (c : PrecertChain) : Encoder Unit := certificates c.precertificateChain

end Encoder

/-! ### To memory -/

def encodeSct (s : Sct) : Except EncodeError Bytes := (Encoder.sct s).toBytes

def encodeDigitallySigned (s : DigitallySigned) : Except EncodeError Bytes :=
  (Encoder.digitallySigned s).toBytes

def encodeLeaf (l : Leaf) : Except EncodeError Bytes := (Encoder.leaf l).toBytes

def encodeTimestampedEntry (e : TimestampedEntry) : Except EncodeError Bytes :=
  (Encoder.timestampedEntry e).toBytes

def encodeX509Chain (c : X509Chain) : Except EncodeError Bytes := (Encoder.x509Chain c).toBytes

def encodePrecertChain (c : PrecertChain) : Except EncodeError Bytes :=
  (Encoder.precertChain c).toBytes

end Transparency.Wire
