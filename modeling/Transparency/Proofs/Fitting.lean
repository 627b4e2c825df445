import Transparency.Proofs.Memory

/-! Which records can be encoded.

An encoder refuses a record for a field that is too long, for the first one in the order of the wire, and for
nothing else (`encodes_fitting`). How long a code is follows from the lengths of these fields. In a chain the
certificates are fields, and so are all of them together with their lengths: each may fit and the chain may
still be too long. -/
namespace Transparency
open Wire

/-! ### Lengths of codes -/

theorem DigitallySigned.length_layout (s : DigitallySigned) : s.layout.length = 4 + s.signature.length := by
  simp only [layout, List.length_append, length_digits, length_framed]
  show 1 + (1 + (2 + s.signature.length)) = _
  omega

theorem Sct.length_layout (s : Sct) :
    s.layout.length = 47 + s.extensions.length + s.signature.signature.length := by
  simp only [layout, List.length_append, length_digits, length_framed, s.id.keyId.length_eq,
    s.signature.length_layout]
  show 1 + (32 + (8 + (2 + s.extensions.length + (4 + s.signature.signature.length)))) = _
  omega

namespace SignedEntry

/-- How long the code of an entry is, behind its timestamp and its type. -/
def size : SignedEntry → Nat
  | .x509 certificate => 3 + certificate.length
  | .precert p => 34 + p.tbsCertificate.length

theorem length_layout (e : SignedEntry) : e.layout.length = e.size := by
  cases e with
  | x509 certificate => exact length_framed _ _
  | precert p =>
    simp only [layout, Precert.layout, List.length_append, length_framed, p.issuerKeyHash.length_eq]
    show 32 + (2 + p.tbsCertificate.length) = 34 + p.tbsCertificate.length
    omega

end SignedEntry

theorem TimestampedEntry.length_layout (e : TimestampedEntry) : e.layout.length = 10 + e.signedEntry.size := by
  simp only [layout, List.length_append, length_digits, e.signedEntry.length_layout]
  show 8 + (2 + e.signedEntry.size) = _
  omega

theorem Leaf.length_layout (l : Leaf) : l.layout.length = 12 + l.timestampedEntry.signedEntry.size := by
  simp only [layout, List.length_append, length_digits, l.timestampedEntry.length_layout]
  show 1 + (1 + (10 + l.timestampedEntry.signedEntry.size)) = _
  omega

theorem length_chainLayout (chain : List Bytes) :
    (chainLayout chain).length = 3 + (chain.map fun certificate => 3 + certificate.length).sum := by
  rw [chainLayout, length_framed, length_chainBody]
  rfl

namespace Wire

/-! ### Records that fit -/

/-- What has these frames is encoded in `size` bytes if they all fit. Otherwise the first that does not is
named as too long. -/
structure EncodesFitting (result : Except EncodeError Bytes) (frames : List Frame) (size : Nat) : Prop where
  succeeds_iff : (∃ code, result = .ok code) ↔ ∀ f ∈ frames, f.length ≤ f.max
  length : ∀ code, result = .ok code → code.length = size
  fails_iff : ∀ error, result = .error error ↔
    ∃ f, Frame.unfit? frames = some f ∧ error = .fieldTooLong f.length f.max
  message : ∀ error, result = .error error → ∃ f, Frame.unfit? frames = some f ∧
    error.message = s!"invalid argument: field of {f.length} bytes exceeds maximum {f.max}"

theorem Encoder.Screens.encodesFitting {e : Encoder Unit} {frames : List Frame} {code : Bytes} {size : Nat}
    (h : Screens e frames code) (length : code.length = size) : EncodesFitting e.toBytes frames size where
  succeeds_iff := by
    simp only [h.toBytes_ok_iff, exists_and_left, exists_eq, and_true]
    exact Iff.rfl
  length written encoded := by
    obtain ⟨-, rfl⟩ := h.toBytes_ok_iff.1 encoded
    exact length
  fails_iff _ := h.toBytes_error_iff
  message error failed := by
    obtain ⟨f, unfit, rfl⟩ := h.toBytes_error_iff.1 failed
    exact ⟨f, unfit, rfl⟩

theorem chainFrames_eq (chain : List Bytes) :
    chainFrames chain = chain.map (fun certificate => ⟨certificate.length, 16777215⟩) ++
      [⟨(chain.map fun certificate => 3 + certificate.length).sum, 16777215⟩] := by
  rw [← length_chainBody]
  rfl

theorem certificates_encodesFitting (chain : List Bytes) :
    EncodesFitting (Encoder.certificates chain).toBytes
      (chain.map (fun certificate => ⟨certificate.length, 16777215⟩) ++
        [⟨(chain.map fun certificate => 3 + certificate.length).sum, 16777215⟩])
      (3 + (chain.map fun certificate => 3 + certificate.length).sum) := by
  rw [← chainFrames_eq]
  exact (Encoder.screens_certificates chain).encodesFitting (length_chainLayout chain)

/-- **A record is encoded if its fields fit, and refused for the first that does not.** -/
theorem encodes_fitting :
    (∀ s : Sct, EncodesFitting (encodeSct s)
      [⟨s.extensions.length, 65535⟩, ⟨s.signature.signature.length, 65535⟩]
      (47 + s.extensions.length + s.signature.signature.length)) ∧
    (∀ s : DigitallySigned, EncodesFitting (encodeDigitallySigned s) [⟨s.signature.length, 65535⟩]
      (4 + s.signature.length)) ∧
    (∀ version timestamp certificate,
      EncodesFitting (encodeLeaf ⟨version, timestamp, .x509 certificate⟩) [⟨certificate.length, 16777215⟩]
        (15 + certificate.length) ∧
      EncodesFitting (encodeTimestampedEntry ⟨timestamp, .x509 certificate⟩)
        [⟨certificate.length, 16777215⟩] (13 + certificate.length)) ∧
    (∀ version timestamp p,
      EncodesFitting (encodeLeaf ⟨version, timestamp, .precert p⟩) [⟨p.tbsCertificate.length, 65535⟩]
        (46 + p.tbsCertificate.length) ∧
      EncodesFitting (encodeTimestampedEntry ⟨timestamp, .precert p⟩)
        [⟨p.tbsCertificate.length, 65535⟩] (44 + p.tbsCertificate.length)) ∧
    (∀ c : X509Chain, EncodesFitting (encodeX509Chain c)
      (c.certificateChain.map (fun certificate => ⟨certificate.length, 16777215⟩) ++
        [⟨(c.certificateChain.map fun certificate => 3 + certificate.length).sum, 16777215⟩])
      (3 + (c.certificateChain.map fun certificate => 3 + certificate.length).sum)) ∧
    ∀ c : PrecertChain, EncodesFitting (encodePrecertChain c)
      (c.precertificateChain.map (fun certificate => ⟨certificate.length, 16777215⟩) ++
        [⟨(c.precertificateChain.map fun certificate => 3 + certificate.length).sum, 16777215⟩])
      (3 + (c.precertificateChain.map fun certificate => 3 + certificate.length).sum) := by
  have leaf (l : Leaf) {size : Nat} (same : 12 + l.timestampedEntry.signedEntry.size = size) :=
    (Encoder.screens_leaf l).encodesFitting (l.length_layout.trans same)
  have entry (e : TimestampedEntry) {size : Nat} (same : 10 + e.signedEntry.size = size) :=
    (Encoder.screens_timestampedEntry e).encodesFitting (e.length_layout.trans same)
  exact ⟨fun s => (Encoder.screens_sct s).encodesFitting s.length_layout,
    fun s => (Encoder.screens_digitallySigned s).encodesFitting s.length_layout,
    fun _ _ certificate => ⟨leaf _ (Nat.add_assoc 12 3 certificate.length).symm,
      entry _ (Nat.add_assoc 10 3 certificate.length).symm⟩,
    fun _ _ p => ⟨leaf _ (Nat.add_assoc 12 34 p.tbsCertificate.length).symm,
      entry _ (Nat.add_assoc 10 34 p.tbsCertificate.length).symm⟩,
    fun c => certificates_encodesFitting c.certificateChain,
    fun c => certificates_encodesFitting c.precertificateChain⟩

/-- A certificate that fits, and two of them that do not once their lengths are counted. -/
theorem encodes_fitting_two_halves :
    let half : Bytes := List.replicate 8388607 0
    (∃ code, encodeX509Chain ⟨[], [half]⟩ = .ok code ∧ code.length = 8388613) ∧
      encodeX509Chain ⟨[], [half, half]⟩ = .error (.fieldTooLong 16777220 16777215) := by
  intro half
  have length : half.length = 8388607 := List.length_replicate
  obtain ⟨-, -, -, -, chain, -⟩ := encodes_fitting
  have one := chain ⟨[], [half]⟩
  have two := chain ⟨[], [half, half]⟩
  simp only [List.map_cons, List.map_nil, length] at one two
  obtain ⟨code, encoded⟩ := one.succeeds_iff.2 (by decide)
  exact ⟨⟨code, encoded, one.length code encoded⟩,
    (two.fails_iff _).2 ⟨⟨16777220, 16777215⟩, by decide, rfl⟩⟩

end Wire

end Transparency
