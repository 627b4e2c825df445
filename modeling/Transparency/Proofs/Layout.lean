import Transparency.Proofs.BigEndian
import Transparency.Record.Entry
import Transparency.Record.Sct

/-! The wire format as data: the bytes that stand for a record, and which records have such bytes.

A field of variable length is `framed` by its length, in as few bytes as its maximum needs. A record
`Fits` if none of its fields is longer than its maximum. -/
namespace Transparency
open Wire

/-- `data` behind its length. -/
def framed (max : UInt64) (data : Bytes) : Bytes := digits (bytesNeeded max) data.length ++ data

theorem length_framed (max : UInt64) (data : Bytes) :
    (framed max data).length = bytesNeeded max + data.length := by
  rw [framed, List.length_append, length_digits]

/-- The length of framed data, and the most that it may be. -/
structure Frame where
  length : Nat
  max : Nat
deriving DecidableEq, Repr

namespace Frame

def Fits (f : Frame) : Prop := f.length ≤ f.max

instance : DecidablePred Fits := fun f => inferInstanceAs (Decidable (f.length ≤ f.max))

def ofData (max : UInt64) (data : Bytes) : Frame := ⟨data.length, max.toNat⟩

/-- The first that is too long. -/
def unfit? (frames : List Frame) : Option Frame := frames.find? fun f => ¬ f.Fits

theorem unfit?_eq_none_iff {frames : List Frame} : unfit? frames = none ↔ ∀ f ∈ frames, f.Fits := by
  simp [unfit?]

theorem unfit?_append (frames others : List Frame) :
    unfit? (frames ++ others) = (unfit? frames).or (unfit? others) :=
  List.find?_append

end Frame

/-! ### Signed certificate timestamps -/

namespace DigitallySigned

def layout (s : DigitallySigned) : Bytes :=
  digits algorithmLength s.hashAlgorithm.tag ++
    (digits algorithmLength s.signatureAlgorithm.tag ++ framed maxSignatureLength s.signature)

def Fits (s : DigitallySigned) : Prop := s.signature.length ≤ maxSignatureLength.toNat

instance : DecidablePred Fits := fun s => inferInstanceAs (Decidable (s.signature.length ≤ _))

def frames (s : DigitallySigned) : List Frame := [.ofData maxSignatureLength s.signature]

theorem fits_iff (s : DigitallySigned) : s.Fits ↔ ∀ f ∈ s.frames, f.Fits := by
  rw [frames, List.forall_mem_singleton]
  exact Iff.rfl

end DigitallySigned

namespace Sct

def layout (s : Sct) : Bytes :=
  digits versionLength s.version.tag ++
    (s.id.keyId.bytes ++
      (digits timestampLength s.timestamp.toNat ++
        (framed maxExtensionsLength s.extensions ++ s.signature.layout)))

def Fits (s : Sct) : Prop := s.extensions.length ≤ maxExtensionsLength.toNat ∧ s.signature.Fits

instance : DecidablePred Fits :=
  fun s => inferInstanceAs (Decidable (s.extensions.length ≤ _ ∧ s.signature.Fits))

def frames (s : Sct) : List Frame := .ofData maxExtensionsLength s.extensions :: s.signature.frames

theorem fits_iff (s : Sct) : s.Fits ↔ ∀ f ∈ s.frames, f.Fits := by
  rw [frames, List.forall_mem_cons, ← s.signature.fits_iff]
  exact Iff.rfl

end Sct

/-! ### Leaves -/

namespace Precert

def layout (p : Precert) : Bytes :=
  p.issuerKeyHash.bytes ++ framed maxTbsCertificateLength p.tbsCertificate

def Fits (p : Precert) : Prop := p.tbsCertificate.length ≤ maxTbsCertificateLength.toNat

instance : DecidablePred Fits := fun p => inferInstanceAs (Decidable (p.tbsCertificate.length ≤ _))

end Precert

namespace SignedEntry

def layout : SignedEntry → Bytes
  | .x509 certificate => framed maxCertificateLength certificate
  | .precert p => p.layout

def Fits : SignedEntry → Prop
  | .x509 certificate => certificate.length ≤ maxCertificateLength.toNat
  | .precert p => p.Fits

instance : DecidablePred Fits
  | .x509 certificate => inferInstanceAs (Decidable (certificate.length ≤ _))
  | .precert p => inferInstanceAs (Decidable p.Fits)

def frames : SignedEntry → List Frame
  | .x509 certificate => [.ofData maxCertificateLength certificate]
  | .precert p => [.ofData maxTbsCertificateLength p.tbsCertificate]

theorem fits_iff (e : SignedEntry) : e.Fits ↔ ∀ f ∈ e.frames, f.Fits := by
  cases e with
  | x509 certificate =>
    rw [frames, List.forall_mem_singleton]
    exact Iff.rfl
  | precert p =>
    rw [frames, List.forall_mem_singleton]
    exact Iff.rfl

end SignedEntry

namespace TimestampedEntry

def layout (e : TimestampedEntry) : Bytes :=
  digits timestampLength e.timestamp.toNat ++
    (digits entryTypeLength e.signedEntry.entryType.tag ++ e.signedEntry.layout)

def Fits (e : TimestampedEntry) : Prop := e.signedEntry.Fits

instance : DecidablePred Fits := fun e => inferInstanceAs (Decidable e.signedEntry.Fits)

end TimestampedEntry

namespace Leaf

def layout (l : Leaf) : Bytes :=
  digits versionLength l.version.tag ++
    (digits leafTypeLength timestampedEntryLeafType ++ l.timestampedEntry.layout)

def Fits (l : Leaf) : Prop := l.timestampedEntry.Fits

instance : DecidablePred Fits := fun l => inferInstanceAs (Decidable l.timestampedEntry.Fits)

end Leaf

/-! ### Chains -/

/-- Certificates, each behind its length. -/
def chainBody (chain : List Bytes) : Bytes := chain.flatMap (framed maxCertificateLength)

def chainLayout (chain : List Bytes) : Bytes := framed maxChainLength (chainBody chain)

/-- No certificate is too long, and neither are all of them together. -/
structure ChainFits (chain : List Bytes) : Prop where
  certificates : ∀ certificate ∈ chain, certificate.length ≤ maxCertificateLength.toNat
  body : (chainBody chain).length ≤ maxChainLength.toNat

def chainFrames (chain : List Bytes) : List Frame :=
  chain.map (.ofData maxCertificateLength) ++ [.ofData maxChainLength (chainBody chain)]

theorem chainFits_iff (chain : List Bytes) : ChainFits chain ↔ ∀ f ∈ chainFrames chain, f.Fits := by
  rw [chainFrames, List.forall_mem_append, List.forall_mem_map, List.forall_mem_singleton]
  exact ⟨fun fits => ⟨fits.certificates, fits.body⟩, fun fits => ⟨fits.1, fits.2⟩⟩

theorem length_chainBody (chain : List Bytes) :
    (chainBody chain).length = (chain.map fun certificate => 3 + certificate.length).sum := by
  have width : bytesNeeded maxCertificateLength = 3 := rfl
  simp only [chainBody, List.length_flatMap, length_framed, width]

end Transparency
