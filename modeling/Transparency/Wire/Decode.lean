import Transparency.Wire.Decoder

/-! Decoding records.

Each decoder takes one record from its reader and nothing after it. It fails on the first thing that is
wrong: a tag is judged before anything behind it is read. -/
namespace Transparency.Wire

namespace Decoder

/-! ### Signed certificate timestamps -/

def version : Decoder Version := tagged versionLength Version.ofTag? .unsupportedVersion

def hashAlgorithm : Decoder HashAlgorithm :=
  tagged algorithmLength HashAlgorithm.ofTag? fun tag => .unknownAlgorithm .hash tag.toUInt8

def signatureAlgorithm : Decoder SignatureAlgorithm :=
  tagged algorithmLength SignatureAlgorithm.ofTag? fun tag => .unknownAlgorithm .signature tag.toUInt8

def digitallySigned : Decoder DigitallySigned := do
  let hashAlgorithm ← hashAlgorithm
  let signatureAlgorithm ← signatureAlgorithm
  let signature ← field maxSignatureLength
  return {hashAlgorithm, signatureAlgorithm, signature}

def sct : Decoder Sct := do
  let version ← version
  let keyId ← block keyIdLength
  let timestamp ← number timestampLength
  let extensions ← field maxExtensionsLength
  let signature ← digitallySigned
  note (.sctRead (.ofBlock keyId) timestamp)
  return {version, id := ⟨.ofBlock keyId⟩, timestamp, extensions, signature}

/-! ### Leaves -/

def entryType : Decoder EntryType := tagged entryTypeLength EntryType.ofTag? .unknownEntryType

def precert : Decoder Precert := do
  let issuerKeyHash ← block issuerKeyHashLength
  let tbsCertificate ← field maxTbsCertificateLength
  return {issuerKeyHash := .ofBlock issuerKeyHash, tbsCertificate}

def signedEntry : EntryType → Decoder SignedEntry
  | .x509 => .x509 <$> field maxCertificateLength
  | .precert => .precert <$> precert

def timestampedEntry : Decoder TimestampedEntry := do
  let timestamp ← number timestampLength
  let type ← entryType
  let signedEntry ← signedEntry type
  note (.entryRead type)
  return {timestamp, signedEntry}

def leafType : Decoder Unit :=
  tagged leafTypeLength (fun tag => if tag = timestampedEntryLeafType then some () else none)
    .unsupportedLeafType

def leaf : Decoder Leaf := do
  let version ← version
  leafType
  let timestampedEntry ← timestampedEntry
  return {version, timestampedEntry}

/-! ### Chains -/

/-- A chain's data is the rest of its stream, so a source that fails there has corrupted it. -/
def ofChain {α : Type} (type : EntryType) (decoder : Decoder α) : Decoder α := fun r =>
  match decoder r with
  | .error (.io error) r => .error (.corrupt (.chainUnreadable type error.message)) r
  | result => result

/-- Certificates that fill the rest of the stream, whose number of bytes stands before them. One byte
more than that number is enough to see that there are too many. -/
def certificates (type : EntryType) : Decoder (List Bytes) := do
  let declared ← ofChain type (number (bytesNeeded maxChainLength))
  let body ← ofChain type (upTo (declared.toNat + 1))
  if declared.toNat < body.length then throw (.corrupt (.chainTooLong type declared.toNat))
  else if body.length < declared.toNat then
    throw (.corrupt (.chainTooShort type declared.toNat body.length))
  else
    -- Every certificate takes bytes for its length, so there are no more of them than bytes.
    let chain ← within body (fields maxCertificateLength body.length [])
    note (.chainRead type chain.length)
    return chain

def x509Chain (leafCertificate : Bytes) : Decoder X509Chain := do
  return {leafCertificate, certificateChain := ← certificates .x509}

def precertChain (precert : Precert) : Decoder PrecertChain := do
  return {precert, precertificateChain := ← certificates .precert}

/-- The chain that belongs to a leaf with this entry. -/
def chain : SignedEntry → Decoder Chain
  | .x509 certificate => .x509 <$> x509Chain certificate
  | .precert p => .precert <$> precertChain p

end Decoder

/-! ### Entries -/

/-- The outcome of reading an entry from a stream of leaves and a stream of chains. -/
structure EntryRead where
  result : Except DecodeError LogEntry
  leafReader : Reader
  chainReader : Reader

/-- Reads the leaf first; its entry selects what the other stream must hold. -/
def readEntry (leafReader chainReader : Reader) : EntryRead :=
  match Decoder.leaf leafReader with
  | .error error leafReader => ⟨.error error, leafReader, chainReader⟩
  | .ok leaf leafReader =>
    match Decoder.chain leaf.timestampedEntry.signedEntry chainReader with
    | .error error chainReader => ⟨.error error, leafReader, chainReader⟩
    | .ok chain chainReader =>
      ⟨(LogEntry.pair leaf chain).mapError .typeMismatch, leafReader, chainReader⟩

/-! ### Whole byte strings -/

/-- What to do with bytes after a record. -/
inductive Trailing where
  | refused
  | allowed
deriving DecidableEq, Repr

/-- A result and the notes made on the way to it, in order. -/
structure Decoded (α : Type) where
  result : Except DecodeError α
  notes : List Note

/-- Accepts `value` if `reader` has nothing left, or if that is allowed. `notes` are those so far. -/
def Decoded.finish {α : Type} (trailing : Trailing) (reader : Reader) (notes : List Note)
    (value : α) : Decoded α :=
  let count := reader.unread.length
  if count = 0 then ⟨.ok value, notes⟩
  else match trailing with
    | .allowed => ⟨.ok value, notes ++ [.trailingIgnored count]⟩
    | .refused => ⟨.error (.trailingData count), notes⟩

def Decoder.decode {α : Type} (decoder : Decoder α) (trailing : Trailing) (bytes : Bytes) :
    Decoded α :=
  match decoder (.ofBytes bytes) with
  | .error error r => ⟨.error error, r.notes.reverse⟩
  | .ok value r => .finish trailing r r.notes.reverse value

def decodeSct (trailing : Trailing) (bytes : Bytes) : Decoded Sct :=
  Decoder.sct.decode trailing bytes

def decodeLeaf (trailing : Trailing) (bytes : Bytes) : Decoded Leaf :=
  Decoder.leaf.decode trailing bytes

/-- Trailing bytes are looked for after the leaf only: a chain always ends with its bytes. -/
def decodeEntry (trailing : Trailing) (leafInput extraData : Bytes) : Decoded LogEntry :=
  let read := readEntry (.ofBytes leafInput) (.ofBytes extraData)
  let notes := read.leafReader.notes.reverse ++ read.chainReader.notes.reverse
  match read.result with
  | .error error => ⟨.error error, notes⟩
  | .ok entry => .finish trailing read.leafReader notes entry

end Transparency.Wire
