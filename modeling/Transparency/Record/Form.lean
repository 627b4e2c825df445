import Transparency.Json.Value
import Transparency.Record.AuditProof
import Transparency.Record.Sct

/-! The JSON form of the records, in both directions.

Byte strings are base64 with its padding, enumerations go by their names, and an alternative that
carries a value is an object with one key. What is read is what is written, with the liberties of
`Json.fields?` and `Json.name?`; everything else is refused. -/
namespace Transparency

/-! ### Byte strings -/

namespace Json

def ofBytes (bytes : Bytes) : Json := .string (Text.Base64.encode bytes)

def bytes? (j : Json) : Option Bytes := do
  let text ← j.string?
  (Text.Base64.decode .canonical (Text.Utf8.ofString text)).toOption

def ofByteStrings (items : List Bytes) : Json := .array (items.map ofBytes)

def byteStrings? (j : Json) : Option (List Bytes) := do
  let items ← j.array?
  items.mapM bytes?

end Json

variable {owner : KeyOwner}

def KeyHash.toJson (hash : KeyHash owner) : Json := .string hash.base64

def KeyHash.ofJson? (j : Json) : Option (KeyHash owner) := do
  let text ← j.string?
  (KeyHash.ofBase64 text).toOption

/-! ### Enumerations -/

def Version.toJson (v : Version) : Json := .string v.name

def Version.ofJson? (j : Json) : Option Version := j.name?.bind Version.ofName?

def HashAlgorithm.toJson (a : HashAlgorithm) : Json := .string a.name

def HashAlgorithm.ofJson? (j : Json) : Option HashAlgorithm := j.name?.bind HashAlgorithm.ofName?

def SignatureAlgorithm.toJson (a : SignatureAlgorithm) : Json := .string a.name

def SignatureAlgorithm.ofJson? (j : Json) : Option SignatureAlgorithm :=
  j.name?.bind SignatureAlgorithm.ofName?

def EntryType.toJson (t : EntryType) : Json := .string t.name

def EntryType.ofJson? (j : Json) : Option EntryType := j.name?.bind EntryType.ofName?

/-! ### Signed certificate timestamps -/

def DigitallySigned.toJson (s : DigitallySigned) : Json :=
  .object [
    ("hashAlgorithm", s.hashAlgorithm.toJson),
    ("signatureAlgorithm", s.signatureAlgorithm.toJson),
    ("signature", .ofBytes s.signature)]

def DigitallySigned.ofJson? (j : Json) : Option DigitallySigned := do
  let [hash, algorithm, signature] ←
    j.fields? ["hashAlgorithm", "signatureAlgorithm", "signature"] | none
  return ⟨← HashAlgorithm.ofJson? hash, ← SignatureAlgorithm.ofJson? algorithm, ← signature.bytes?⟩

def LogId.toJson (id : LogId) : Json := .object [("keyId", id.keyId.toJson)]

def LogId.ofJson? (j : Json) : Option LogId := do
  let [keyId] ← j.fields? ["keyId"] | none
  return ⟨← KeyHash.ofJson? keyId⟩

def Sct.toJson (s : Sct) : Json :=
  .object [
    ("version", s.version.toJson),
    ("id", s.id.toJson),
    ("timestamp", .ofWord s.timestamp),
    ("extensions", .ofBytes s.extensions),
    ("signature", s.signature.toJson)]

def Sct.ofJson? (j : Json) : Option Sct := do
  let [version, id, timestamp, extensions, signature] ←
    j.fields? ["version", "id", "timestamp", "extensions", "signature"] | none
  return ⟨← Version.ofJson? version, ← LogId.ofJson? id, ← timestamp.word?, ← extensions.bytes?,
    ← DigitallySigned.ofJson? signature⟩

/-! ### Leaves -/

def Precert.toJson (p : Precert) : Json :=
  .object [
    ("issuerKeyHash", p.issuerKeyHash.toJson),
    ("tbsCertificate", .ofBytes p.tbsCertificate)]

def Precert.ofJson? (j : Json) : Option Precert := do
  let [issuerKeyHash, tbsCertificate] ← j.fields? ["issuerKeyHash", "tbsCertificate"] | none
  return ⟨← KeyHash.ofJson? issuerKeyHash, ← tbsCertificate.bytes?⟩

def SignedEntry.toJson : SignedEntry → Json
  | .x509 certificate => .object [("x509", .ofBytes certificate)]
  | .precert p => .object [("pre_cert", p.toJson)]

def SignedEntry.ofJson? (j : Json) : Option SignedEntry := do
  match ← j.alternative? with
  | ("x509", value) => .x509 <$> value.bytes?
  | ("pre_cert", value) => .precert <$> Precert.ofJson? value
  | _ => none

def TimestampedEntry.toJson (e : TimestampedEntry) : Json :=
  .object [
    ("timestamp", .ofWord e.timestamp),
    ("signedEntry", e.signedEntry.toJson)]

def TimestampedEntry.ofJson? (j : Json) : Option TimestampedEntry := do
  let [timestamp, signedEntry] ← j.fields? ["timestamp", "signedEntry"] | none
  return ⟨← timestamp.word?, ← SignedEntry.ofJson? signedEntry⟩

def Leaf.toJson (l : Leaf) : Json :=
  .object [
    ("version", l.version.toJson),
    ("timestampedEntry", l.timestampedEntry.toJson)]

def Leaf.ofJson? (j : Json) : Option Leaf := do
  let [version, timestampedEntry] ← j.fields? ["version", "timestampedEntry"] | none
  return ⟨← Version.ofJson? version, ← TimestampedEntry.ofJson? timestampedEntry⟩

/-! ### Chains and entries -/

def X509Chain.toJson (c : X509Chain) : Json :=
  .object [
    ("leafCertificate", .ofBytes c.leafCertificate),
    ("certificateChain", .ofByteStrings c.certificateChain)]

def X509Chain.ofJson? (j : Json) : Option X509Chain := do
  let [leafCertificate, certificateChain] ←
    j.fields? ["leafCertificate", "certificateChain"] | none
  return ⟨← leafCertificate.bytes?, ← certificateChain.byteStrings?⟩

def PrecertChain.toJson (c : PrecertChain) : Json :=
  .object [
    ("preCert", c.precert.toJson),
    ("precertificateChain", .ofByteStrings c.precertificateChain)]

def PrecertChain.ofJson? (j : Json) : Option PrecertChain := do
  let [precert, precertificateChain] ← j.fields? ["preCert", "precertificateChain"] | none
  return ⟨← Precert.ofJson? precert, ← precertificateChain.byteStrings?⟩

def Chain.toJson : Chain → Json
  | .x509 c => .object [("x509", c.toJson)]
  | .precert c => .object [("precert", c.toJson)]

def Chain.ofJson? (j : Json) : Option Chain := do
  match ← j.alternative? with
  | ("x509", value) => .x509 <$> X509Chain.ofJson? value
  | ("precert", value) => .precert <$> PrecertChain.ofJson? value
  | _ => none

def LogEntry.toJson (e : LogEntry) : Json :=
  .object [("merkleTreeLeaf", e.leaf.toJson), ("logEntry", e.chain.toJson)]

/-! ### Audit proofs -/

def AuditProof.toJson (p : AuditProof) : Json :=
  .object [
    ("version", p.version.toJson),
    ("treeSize", .ofWord p.treeSize),
    ("leafIndex", .ofWord p.leafIndex),
    ("pathNode", .ofByteStrings p.pathNodes)]

def AuditProof.ofJson? (j : Json) : Option AuditProof := do
  let [version, treeSize, leafIndex, pathNodes] ←
    j.fields? ["version", "treeSize", "leafIndex", "pathNode"] | none
  return ⟨← Version.ofJson? version, ← treeSize.word?, ← leafIndex.word?, ← pathNodes.byteStrings?⟩

def ProvenEntry.toJson (e : ProvenEntry) : Json :=
  .object [("parsedLogEntry", e.entry.toJson), ("auditProof", e.proof.toJson)]

end Transparency
