import Transparency.Record.KeyHash
import Transparency.Record.Tag

/-! Log entries.

What a log keeps of a submission has two parts: the Merkle tree leaf, which the tree hashes, and the
chain of certificates that came with it. Each says by its own shape whether a certificate or a
precertificate was submitted; a `LogEntry` is a pair in which they agree. -/
namespace Transparency

/-! ### Leaves -/

/-- A precertificate: the hash of its issuer's key, and the certificate to be signed. -/
structure Precert where
  issuerKeyHash : IssuerKeyHash
  tbsCertificate : Bytes
deriving DecidableEq

inductive SignedEntry where
  | x509 (certificate : Bytes)
  | precert (precert : Precert)
deriving DecidableEq

def SignedEntry.entryType : SignedEntry → EntryType
  | .x509 _ => .x509
  | .precert _ => .precert

def SignedEntry.x509? : SignedEntry → Option Bytes
  | .x509 certificate => some certificate
  | .precert _ => none

def SignedEntry.precert? : SignedEntry → Option Precert
  | .x509 _ => none
  | .precert p => some p

/-- Its timestamp counts milliseconds since 1970. -/
structure TimestampedEntry where
  timestamp : UInt64
  signedEntry : SignedEntry
deriving DecidableEq

/-- A leaf of the Merkle tree. -/
structure Leaf where
  version : Version
  timestampedEntry : TimestampedEntry
deriving DecidableEq

def Leaf.entryType (leaf : Leaf) : EntryType := leaf.timestampedEntry.signedEntry.entryType

/-! ### Chains -/

/-- A certificate and its issuers, nearest first. -/
structure X509Chain where
  leafCertificate : Bytes
  certificateChain : List Bytes
deriving DecidableEq

/-- A precertificate, and the certificate submitted for it with its issuers, nearest first. -/
structure PrecertChain where
  precert : Precert
  precertificateChain : List Bytes
deriving DecidableEq

inductive Chain where
  | x509 (chain : X509Chain)
  | precert (chain : PrecertChain)
deriving DecidableEq

def Chain.entryType : Chain → EntryType
  | .x509 _ => .x509
  | .precert _ => .precert

def Chain.x509? : Chain → Option X509Chain
  | .x509 c => some c
  | .precert _ => none

def Chain.precert? : Chain → Option PrecertChain
  | .x509 _ => none
  | .precert c => some c

/-! ### Entries -/

structure LogEntry where
  leaf : Leaf
  chain : Chain
  types_agree : leaf.entryType = chain.entryType
deriving DecidableEq

def LogEntry.entryType (entry : LogEntry) : EntryType := entry.chain.entryType

/-- A leaf and a chain of two types. -/
structure TypeMismatch where
  leaf : EntryType
  chain : EntryType
deriving DecidableEq, Repr

def TypeMismatch.message (m : TypeMismatch) : String :=
  s!"entry type mismatch: leaf is {m.leaf.name}, chain entry is {m.chain.name}"

def LogEntry.pair (leaf : Leaf) (chain : Chain) : Except TypeMismatch LogEntry :=
  if h : leaf.entryType = chain.entryType then .ok ⟨leaf, chain, h⟩
  else .error ⟨leaf.entryType, chain.entryType⟩

end Transparency
