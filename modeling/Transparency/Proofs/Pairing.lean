import Transparency.Proofs.Canonical
import Transparency.Proofs.ChainEnd

/-! Entries from two streams.

A leaf comes from one byte string and its chain from another. The leaf is judged first, then the chain that
the leaf calls for, and last what is left behind the leaf; an entry that comes of it holds the two as they
were decoded, the chain carrying the leaf's own certificate or precertificate
(`entry_pairs_streams`). So the two byte strings of an accepted entry are the encodings of its two parts. -/
namespace Transparency

/-- The chain is of the entry's variant and carries what the entry holds. -/
def Chain.BelongsTo : Chain → SignedEntry → Prop
  | .x509 chain, .x509 certificate => chain.leafCertificate = certificate
  | .precert chain, .precert p => chain.precert = p
  | .x509 _, .precert _ | .precert _, .x509 _ => False

theorem Chain.BelongsTo.entryType_eq {chain : Chain} {entry : SignedEntry} (h : chain.BelongsTo entry) :
    entry.entryType = chain.entryType := by
  cases chain <;> cases entry <;> first | rfl | exact h.elim

namespace Wire

def encodeChain : Chain → Except EncodeError Bytes
  | .x509 chain => encodeX509Chain chain
  | .precert chain => encodePrecertChain chain

/-- What comes of `bytes` as the chain that the entry calls for. -/
def selectedChain (bytes : Bytes) : SignedEntry → Except DecodeError Chain
  | .x509 certificate => ((Decoder.x509Chain certificate).outcome (.ofBytes bytes)).map .x509
  | .precert p => ((Decoder.precertChain p).outcome (.ofBytes bytes)).map .precert

/-! ### Chains -/

theorem Decoder.chain_outcome (entry : SignedEntry) (bytes : Bytes) :
    (Decoder.chain entry).outcome (.ofBytes bytes) = selectedChain bytes entry := by
  cases entry with
  | x509 certificate => exact Decoder.outcome_map _ _ _
  | precert p => exact Decoder.outcome_map _ _ _

theorem x509Chain_outcome_iff {certificate bytes : Bytes} {chain : X509Chain} :
    (Decoder.x509Chain certificate).outcome (.ofBytes bytes) = .ok chain ↔
      chain.leafCertificate = certificate ∧ encodeX509Chain chain = .ok bytes := by
  simp only [Decoder.outcome_ok_iff, Decoder.x509Chain_ok_iff, exists_and_left, Decoder.certificates_iff]
  rfl

theorem precertChain_outcome_iff {p : Precert} {bytes : Bytes} {chain : PrecertChain} :
    (Decoder.precertChain p).outcome (.ofBytes bytes) = .ok chain ↔
      chain.precert = p ∧ encodePrecertChain chain = .ok bytes := by
  simp only [Decoder.outcome_ok_iff, Decoder.precertChain_ok_iff, exists_and_left, Decoder.certificates_iff]
  rfl

theorem selectedChain_ok_iff {bytes : Bytes} {entry : SignedEntry} {chain : Chain} :
    selectedChain bytes entry = .ok chain ↔ chain.BelongsTo entry ∧ encodeChain chain = .ok bytes := by
  cases entry with
  | x509 certificate =>
    rw [selectedChain, Decoder.map_eq_ok_iff]
    simp only [x509Chain_outcome_iff]
    cases chain with
    | x509 chain => simp [Chain.BelongsTo, encodeChain]
    | precert chain => simp [Chain.BelongsTo]
  | precert p =>
    rw [selectedChain, Decoder.map_eq_ok_iff]
    simp only [precertChain_outcome_iff]
    cases chain with
    | x509 chain => simp [Chain.BelongsTo]
    | precert chain => simp [Chain.BelongsTo, encodeChain]

theorem selectedChain_flaw {bytes : Bytes} {entry : SignedEntry} {error : DecodeError}
    (failed : selectedChain bytes entry = .error error) : error.Flaw := by
  cases entry with
  | x509 certificate =>
    rw [selectedChain, Decoder.x509Chain_eq_map, Decoder.outcome_map] at failed
    exact Decoder.certificates_flaw (Decoder.map_eq_error_iff.1 (Decoder.map_eq_error_iff.1 failed))
  | precert p =>
    rw [selectedChain, Decoder.precertChain_eq_map, Decoder.outcome_map] at failed
    exact Decoder.certificates_flaw (Decoder.map_eq_error_iff.1 (Decoder.map_eq_error_iff.1 failed))

/-! ### The two together -/

section
variable (trailing : Trailing) {leafInput extraData : Bytes} {l : Leaf} {chain : Chain} {error : DecodeError}

theorem decodeEntry_of_leaf_error (failed : Decoder.leaf.outcome (.ofBytes leafInput) = .error error) :
    (decodeEntry trailing leafInput extraData).result = .error error := by
  simp only [decodeEntry, readEntry_of_leaf_error failed]

theorem decodeEntry_of_chain_error (decoded : Decoder.leaf.outcome (.ofBytes leafInput) = .ok l)
    (failed : selectedChain extraData l.timestampedEntry.signedEntry = .error error) :
    (decodeEntry trailing leafInput extraData).result = .error error := by
  rw [← Decoder.chain_outcome] at failed
  simp only [decodeEntry, readEntry_of_chain_error decoded failed]

/-- A leaf and its chain make an entry, unless there is more behind the leaf than may be. -/
theorem decodeEntry_of_ok (decoded : Decoder.leaf.outcome (.ofBytes leafInput) = .ok l)
    (selected : selectedChain extraData l.timestampedEntry.signedEntry = .ok chain)
    (agree : l.entryType = chain.entryType) :
    (decodeEntry trailing leafInput extraData).result =
      trailing.accept (Decoder.leaf.after (.ofBytes leafInput)).unread.length ⟨l, chain, agree⟩ := by
  rw [← Decoder.chain_outcome] at selected
  simp only [decodeEntry, readEntry_of_ok decoded selected, finish_result]

end

theorem encodeLeaf_iff_settles {l : Leaf} {bytes : Bytes} :
    encodeLeaf l = .ok bytes ↔ Decoder.leaf.Settles (.ok l) bytes := by
  rw [Decoder.settles_leaf_iff]
  exact Encoder.leaf_toBytes_iff

/-- What comes of the two byte strings of an entry. -/
structure EntryOutcome (trailing : Trailing) (leafInput extraData : Bytes)
    (result : Except DecodeError LogEntry) : Prop where
  leaf_fails : ∀ error, Decoder.leaf.outcome (.ofBytes leafInput) = .error error → result = .error error
  chain_fails : ∀ l error, Decoder.leaf.outcome (.ofBytes leafInput) = .ok l →
    selectedChain extraData l.timestampedEntry.signedEntry = .error error → result = .error error
  leaf_goes_on : ∀ l chain, Decoder.leaf.outcome (.ofBytes leafInput) = .ok l →
    selectedChain extraData l.timestampedEntry.signedEntry = .ok chain → trailing = .refused →
      (Decoder.leaf.after (.ofBytes leafInput)).position < leafInput.length →
        result = .error (.trailingData
          (leafInput.length - (Decoder.leaf.after (.ofBytes leafInput)).position))
  paired : ∀ l chain, Decoder.leaf.outcome (.ofBytes leafInput) = .ok l →
    selectedChain extraData l.timestampedEntry.signedEntry = .ok chain →
      (trailing = .allowed ∨ leafInput.length ≤ (Decoder.leaf.after (.ofBytes leafInput)).position) →
        ∃ entry, result = .ok entry ∧ entry.leaf = l ∧ entry.chain = chain ∧
          entry.entryType = l.entryType ∧ chain.BelongsTo l.timestampedEntry.signedEntry
  no_mismatch : ∀ types, result ≠ .error (.typeMismatch types)

/-- Something is wrong with the bytes, or there are a leaf and a chain that go together; then it is only what
is left behind the leaf that can spoil the entry. -/
theorem decodeEntry_cases (trailing : Trailing) (leafInput extraData : Bytes) :
    (∃ error, (decodeEntry trailing leafInput extraData).result = .error error ∧ error.Flaw) ∨
      (∃ count, (decodeEntry trailing leafInput extraData).result = .error (.trailingData count)) ∨
        ∃ entry, (decodeEntry trailing leafInput extraData).result = .ok entry ∧
          Decoder.leaf.outcome (.ofBytes leafInput) = .ok entry.leaf ∧
          selectedChain extraData entry.leaf.timestampedEntry.signedEntry = .ok entry.chain ∧
          (trailing = .allowed ∨ (Decoder.leaf.after (.ofBytes leafInput)).unread.length = 0) := by
  cases decoded : Decoder.leaf.outcome (.ofBytes leafInput) with
  | error error =>
    have flaw := Decoder.Measured.flaw rfl (Decoder.run_of_outcome decoded)
    exact .inl ⟨error, decodeEntry_of_leaf_error trailing decoded, flaw⟩
  | ok l =>
    cases selected : selectedChain extraData l.timestampedEntry.signedEntry with
    | error error =>
      exact .inl ⟨error, decodeEntry_of_chain_error trailing decoded selected, selectedChain_flaw selected⟩
    | ok chain =>
      have agree := (selectedChain_ok_iff.1 selected).1.entryType_eq
      rw [decodeEntry_of_ok trailing decoded selected agree]
      by_cases fine : trailing = .allowed ∨ (Decoder.leaf.after (.ofBytes leafInput)).unread.length = 0
      · exact .inr (.inr ⟨⟨l, chain, agree⟩, if_pos fine, rfl, selected, fine⟩)
      · exact .inr (.inl ⟨_, if_neg fine⟩)

theorem EntryOutcome.of_decodeEntry (trailing : Trailing) (leafInput extraData : Bytes) :
    EntryOutcome trailing leafInput extraData (decodeEntry trailing leafInput extraData).result where
  leaf_fails error failed := decodeEntry_of_leaf_error trailing failed
  chain_fails l error decoded failed := decodeEntry_of_chain_error trailing decoded failed
  leaf_goes_on l chain decoded selected refused more := by
    subst refused
    have agree := (selectedChain_ok_iff.1 selected).1.entryType_eq
    have unread := Decoder.length_unread_after decoded
    rw [decodeEntry_of_ok .refused decoded selected agree, Trailing.accept_eq_error_iff, ← unread]
    exact ⟨rfl, by omega, rfl⟩
  paired l chain decoded selected fine := by
    have belongs := (selectedChain_ok_iff.1 selected).1
    have unread := Decoder.length_unread_after decoded
    rw [decodeEntry_of_ok trailing decoded selected belongs.entryType_eq]
    exact ⟨_, if_pos (fine.imp_right (by omega)), rfl, rfl, belongs.entryType_eq.symm, belongs⟩
  no_mismatch types mismatch := by
    rcases decodeEntry_cases trailing leafInput extraData with
      ⟨error, failed, flaw⟩ | ⟨count, failed⟩ | ⟨entry, accepted, -⟩
    · rw [failed] at mismatch
      cases mismatch
      exact flaw
    · rw [failed] at mismatch
      cases mismatch
    · rw [accepted] at mismatch
      cases mismatch

theorem decodeEntry_refused_iff {leafInput extraData : Bytes} {entry : LogEntry} :
    (decodeEntry .refused leafInput extraData).result = .ok entry ↔
      encodeLeaf entry.leaf = .ok leafInput ∧ encodeChain entry.chain = .ok extraData ∧
        entry.chain.BelongsTo entry.leaf.timestampedEntry.signedEntry := by
  constructor
  · intro accepted
    rcases decodeEntry_cases .refused leafInput extraData with
      ⟨error, failed, -⟩ | ⟨count, failed⟩ | ⟨entry', accepted', decoded, selected, fine⟩
    · rw [accepted] at failed
      cases failed
    · rw [accepted] at failed
      cases failed
    · rw [accepted] at accepted'
      cases accepted'
      obtain ⟨belongs, encoded⟩ := selectedChain_ok_iff.1 selected
      have none := fine.resolve_left (fun allowed => nomatch allowed)
      exact ⟨encodeLeaf_iff_settles.2 (Decoder.settles_iff_all_read.2 ⟨decoded, none⟩), encoded, belongs⟩
  · intro parts
    obtain ⟨leaf, chain, belongs⟩ := parts
    obtain ⟨decoded, none⟩ := Decoder.settles_iff_all_read.1 (encodeLeaf_iff_settles.1 leaf)
    have selected := selectedChain_ok_iff.2 ⟨belongs, chain⟩
    rw [decodeEntry_of_ok .refused decoded selected entry.types_agree]
    exact if_pos (.inr none)

/-- **An entry is a leaf and the chain that goes with it**, each from its own byte string. -/
theorem entry_pairs_streams (leafInput extraData : Bytes) :
    (∀ trailing, EntryOutcome trailing leafInput extraData
        (decodeEntry trailing leafInput extraData).result) ∧
      ∀ entry, (decodeEntry .refused leafInput extraData).result = .ok entry ↔
        encodeLeaf entry.leaf = .ok leafInput ∧ encodeChain entry.chain = .ok extraData ∧
          entry.chain.BelongsTo entry.leaf.timestampedEntry.signedEntry :=
  ⟨fun trailing => .of_decodeEntry trailing leafInput extraData, fun _ => decodeEntry_refused_iff⟩

/-- A leaf with one byte behind it, and an empty chain. -/
theorem entry_pairs_streams_one_left :
    let leafInput : Bytes := [0, 0, 0, 0, 0, 0, 0, 0, 0, 5, 0, 0, 0, 0, 1, 7, 9]
    (decodeEntry .refused leafInput [0, 0, 0]).result = .error (.trailingData 1) ∧
      ∃ entry, (decodeEntry .allowed leafInput [0, 0, 0]).result = .ok entry ∧
        entry.leaf = ⟨.v1, ⟨5, .x509 [7]⟩⟩ ∧ entry.chain = .x509 ⟨[7], []⟩ := by
  intro leafInput
  have decoded : Decoder.leaf.outcome (.ofBytes leafInput) = .ok ⟨.v1, ⟨5, .x509 [7]⟩⟩ := by decide +kernel
  have selected : selectedChain [0, 0, 0] (.x509 [7]) = .ok (.x509 ⟨[7], []⟩) := by decide +kernel
  obtain ⟨outcome, -⟩ := entry_pairs_streams leafInput [0, 0, 0]
  obtain ⟨entry, accepted, leaf, chain, -⟩ := (outcome .allowed).paired _ _ decoded selected (.inl rfl)
  have position : (Decoder.leaf.after (.ofBytes leafInput)).position = 16 := by decide +kernel
  have refused := (outcome .refused).leaf_goes_on _ _ decoded selected rfl
  rw [position] at refused
  exact ⟨refused (by decide), entry, accepted, leaf, chain⟩

end Wire

end Transparency
