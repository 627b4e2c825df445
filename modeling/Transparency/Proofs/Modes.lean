import Transparency.Proofs.FailFast
import Transparency.Proofs.Pairing

/-! Surplus bytes, refused or allowed.

A byte string is decoded by reading a record at its beginning and by looking at what is left. Whether a surplus
is allowed matters only for that last look, so the two modes differ in nothing but the surplus: what is
accepted with one is what is accepted without it, at the one beginning that is a record
(`modes_agree`). There is no second such beginning, since no record begins another. -/
namespace Transparency.Wire
variable {α β : Type}

/-- The same decoding in its two modes. -/
structure ModesAgree (decode : Trailing → Bytes → Except DecodeError α) : Prop where
  /-- Just one beginning is accepted as a whole, and it is what counts. -/
  accepts_iff : ∀ bytes value, decode .allowed bytes = .ok value ↔
    ∃ p, p <+: bytes ∧ decode .refused p = .ok value ∧
      ∀ q other, q <+: bytes → decode .refused q = .ok other → q = p
  surplus : ∀ bytes p value, p <+: bytes → decode .refused p = .ok value → p.length < bytes.length →
    decode .refused bytes = .error (.trailingData (bytes.length - p.length))
  fails : ∀ bytes error, decode .allowed bytes = .error error → decode .refused bytes = .error error

/-- Decoding that runs `d` and makes `judge` of its value, before it looks at what is left. -/
structure Examines (d : Decoder α) (judge : α → Except DecodeError β)
    (decode : Trailing → Bytes → Except DecodeError β) : Prop where
  fails : ∀ trailing {bytes error}, d.outcome (.ofBytes bytes) = .error error →
    decode trailing bytes = .error error
  rejects : ∀ trailing {bytes a error}, d.outcome (.ofBytes bytes) = .ok a → judge a = .error error →
    decode trailing bytes = .error error
  accepts : ∀ trailing {bytes a value}, d.outcome (.ofBytes bytes) = .ok a → judge a = .ok value →
    decode trailing bytes = trailing.accept (d.after (.ofBytes bytes)).unread.length value

namespace Examines
variable {d : Decoder α} {judge : α → Except DecodeError β} {decode : Trailing → Bytes → Except DecodeError β}

/-- What is accepted has been read and judged, and nothing is left of it unless that is allowed. -/
theorem accepted_iff (h : Examines d judge decode) {trailing : Trailing} {bytes : Bytes} {value : β} :
    decode trailing bytes = .ok value ↔ ∃ a, d.outcome (.ofBytes bytes) = .ok a ∧ judge a = .ok value ∧
      (trailing = .allowed ∨ (d.after (.ofBytes bytes)).unread.length = 0) := by
  constructor
  · intro accepted
    cases decoded : d.outcome (.ofBytes bytes) with
    | error error => cases (h.fails trailing decoded).symm.trans accepted
    | ok a =>
      cases judged : judge a with
      | error error => cases (h.rejects trailing decoded judged).symm.trans accepted
      | ok value' =>
        rw [h.accepts trailing decoded judged, Trailing.accept_eq_ok_iff] at accepted
        obtain ⟨fine, rfl⟩ := accepted
        exact ⟨a, rfl, judged, fine⟩
  · intro parts
    obtain ⟨a, decoded, judged, fine⟩ := parts
    rw [h.accepts trailing decoded judged, Trailing.accept_eq_ok_iff]
    exact ⟨fine, rfl⟩

/-- It fails in the reading, in the judgement, or for what is left. -/
theorem failed_iff (h : Examines d judge decode) {trailing : Trailing} {bytes : Bytes} {error : DecodeError} :
    decode trailing bytes = .error error ↔ d.outcome (.ofBytes bytes) = .error error ∨
      ∃ a, d.outcome (.ofBytes bytes) = .ok a ∧ (judge a = .error error ∨
        (∃ value, judge a = .ok value) ∧ trailing = .refused ∧
          (d.after (.ofBytes bytes)).unread.length ≠ 0 ∧
            error = .trailingData (d.after (.ofBytes bytes)).unread.length) := by
  cases decoded : d.outcome (.ofBytes bytes) with
  | error error' =>
    rw [h.fails trailing decoded, Except.error.injEq, Except.error.injEq]
    exact ⟨.inl, fun parts => parts.resolve_right fun read => nomatch read⟩
  | ok a =>
    have read : decode trailing bytes = .error error ↔ judge a = .error error ∨
        (∃ value, judge a = .ok value) ∧ trailing = .refused ∧
          (d.after (.ofBytes bytes)).unread.length ≠ 0 ∧
            error = .trailingData (d.after (.ofBytes bytes)).unread.length := by
      cases judged : judge a with
      | error error' =>
        rw [h.rejects trailing decoded judged, Except.error.injEq]
        exact ⟨.inl, fun parts => parts.resolve_right fun accepted => nomatch accepted⟩
      | ok value =>
        rw [h.accepts trailing decoded judged, Trailing.accept_eq_error_iff]
        exact ⟨fun parts => .inr ⟨⟨value, rfl⟩, parts⟩, fun parts => (parts.resolve_left nofun).2⟩
    rw [read]
    constructor
    · exact fun parts => .inr ⟨a, rfl, parts⟩
    · intro parts
      obtain ⟨_, same, parts⟩ := parts.resolve_left nofun
      cases same
      exact parts

variable [Decoder.Streaming d]

theorem accepted_refused_iff (h : Examines d judge decode) {bytes : Bytes} {value : β} :
    decode .refused bytes = .ok value ↔ ∃ a, d.Settles (.ok a) bytes ∧ judge a = .ok value := by
  simp only [h.accepted_iff, Decoder.settles_iff_all_read]
  constructor
  · intro parts
    obtain ⟨a, decoded, judged, fine⟩ := parts
    exact ⟨a, ⟨decoded, fine.resolve_left nofun⟩, judged⟩
  · intro parts
    obtain ⟨a, ⟨decoded, none⟩, judged⟩ := parts
    exact ⟨a, decoded, judged, .inr none⟩

theorem accepted_allowed_iff (h : Examines d judge decode) {bytes : Bytes} {value : β} :
    decode .allowed bytes = .ok value ↔
      ∃ a p, p <+: bytes ∧ d.Settles (.ok a) p ∧ judge a = .ok value := by
  rw [h.accepted_iff]
  constructor
  · intro parts
    obtain ⟨a, decoded, judged, -⟩ := parts
    obtain ⟨code, rest, rfl, settles, -⟩ := Decoder.Streaming.code_of_ok rfl (Decoder.run_of_outcome decoded)
    exact ⟨a, code, List.prefix_append code rest, settles, judged⟩
  · intro parts
    obtain ⟨a, p, ⟨rest, rfl⟩, settles, judged⟩ := parts
    exact ⟨a, settles.outcome rest, judged, .inl rfl⟩

/-- No accepted byte string begins another. -/
theorem prefix_unique (h : Examines d judge decode) {bytes p q : Bytes} {value other : β} (begins : p <+: bytes)
    (begins' : q <+: bytes) (accepted : decode .refused p = .ok value)
    (accepted' : decode .refused q = .ok other) : q = p := by
  obtain ⟨a, settles, -⟩ := h.accepted_refused_iff.1 accepted
  obtain ⟨a', settles', -⟩ := h.accepted_refused_iff.1 accepted'
  obtain ⟨rest, rfl⟩ := begins
  obtain ⟨rest', same⟩ := begins'
  exact (settles'.unique settles same).2

theorem modesAgree (h : Examines d judge decode) : ModesAgree decode where
  accepts_iff bytes value := by
    rw [h.accepted_allowed_iff]
    constructor
    · intro parts
      obtain ⟨a, p, begins, settles, judged⟩ := parts
      have accepted := h.accepted_refused_iff.2 ⟨a, settles, judged⟩
      exact ⟨p, begins, accepted, fun q other begins' accepted' =>
        h.prefix_unique begins begins' accepted accepted'⟩
    · intro parts
      obtain ⟨p, begins, accepted, -⟩ := parts
      obtain ⟨a, settles, judged⟩ := h.accepted_refused_iff.1 accepted
      exact ⟨a, p, begins, settles, judged⟩
  surplus bytes p value begins accepted shorter := by
    obtain ⟨a, settles, judged⟩ := h.accepted_refused_iff.1 accepted
    obtain ⟨rest, rfl⟩ := begins
    have decoded := settles.outcome rest
    have unread := Decoder.length_unread_after decoded
    rw [settles.position] at unread
    rw [h.failed_iff, ← unread]
    exact .inr ⟨a, decoded, .inr ⟨⟨value, judged⟩, rfl, by omega, rfl⟩⟩
  fails bytes error failed := by
    rcases h.failed_iff.1 failed with unread | ⟨a, decoded, rejected | ⟨-, refused, -⟩⟩
    · exact h.failed_iff.2 (.inl unread)
    · exact h.failed_iff.2 (.inr ⟨a, decoded, .inl rejected⟩)
    · cases refused

end Examines

/-! ### Records and entries -/

theorem examines_decode (d : Decoder α) :
    Examines d .ok fun trailing bytes => (d.decode trailing bytes).result where
  fails trailing _ _ failed := decode_of_error d trailing failed
  rejects _ _ _ _ _ judged := nomatch judged
  accepts trailing _ _ _ decoded judged := by
    cases judged
    exact decode_of_ok d trailing decoded

/-- What a leaf makes with its chain. -/
def entryOf (extraData : Bytes) (l : Leaf) : Except DecodeError LogEntry := do
  let chain ← selectedChain extraData l.timestampedEntry.signedEntry
  (LogEntry.pair l chain).mapError .typeMismatch

theorem entryOf_cases (extraData : Bytes) (l : Leaf) :
    (∃ error, selectedChain extraData l.timestampedEntry.signedEntry = .error error ∧
        entryOf extraData l = .error error) ∨
      ∃ chain agree, selectedChain extraData l.timestampedEntry.signedEntry = .ok chain ∧
        entryOf extraData l = .ok ⟨l, chain, agree⟩ := by
  cases selected : selectedChain extraData l.timestampedEntry.signedEntry with
  | error error =>
    refine .inl ⟨error, rfl, ?_⟩
    rw [entryOf, selected]
    rfl
  | ok chain =>
    have agree : l.entryType = chain.entryType := (selectedChain_ok_iff.1 selected).1.entryType_eq
    refine .inr ⟨chain, agree, rfl, ?_⟩
    rw [entryOf, selected]
    show (LogEntry.pair l chain).mapError DecodeError.typeMismatch = _
    rw [LogEntry.pair, dif_pos agree]
    rfl

/-- With its extra data given, an entry is decoded from the bytes of its leaf. -/
theorem examines_decodeEntry (extraData : Bytes) :
    Examines Decoder.leaf (entryOf extraData) fun trailing leafInput =>
      (decodeEntry trailing leafInput extraData).result where
  fails trailing _ _ failed := decodeEntry_of_leaf_error trailing failed
  rejects trailing leafInput l error decoded judged := by
    rcases entryOf_cases extraData l with ⟨error', selected, failed⟩ | ⟨chain, agree, -, paired⟩
    · cases failed.symm.trans judged
      exact decodeEntry_of_chain_error trailing decoded selected
    · cases paired.symm.trans judged
  accepts trailing leafInput l entry decoded judged := by
    rcases entryOf_cases extraData l with ⟨error, -, failed⟩ | ⟨chain, agree, selected, paired⟩
    · cases failed.symm.trans judged
    · cases paired.symm.trans judged
      exact decodeEntry_of_ok trailing decoded selected agree

/-! ### A surplus in the chain -/

theorem selectedChain_surplus {extraData : Bytes} (entry : SignedEntry)
    (more : 3 + numberAt extraData 0 3 < extraData.length) :
    selectedChain extraData entry =
      .error (.corrupt (.chainTooLong entry.entryType (numberAt extraData 0 3))) := by
  have full : (extraData.take 3).length = 3 := List.length_take_of_le (by omega)
  have small := bigEndian_lt (extraData.take 3)
  rw [full] at small
  have offers : (Source.ofBytes extraData).Offers
      (digits 3 (bigEndian (extraData.take 3)) ++ extraData.drop 3) (.ofBytes []) := by
    rw [← eq_digits_of_bigEndian full rfl, List.take_append_drop]
    exact Source.offers_all extraData
  have long : bigEndian (extraData.take 3) < (extraData.drop 3).length := by
    rw [List.length_drop]
    exact Nat.lt_sub_of_add_lt ((Nat.add_comm ..).trans_lt more)
  have surplus (type : EntryType) : (Decoder.certificates type).outcome (.ofBytes extraData) =
      .error (.corrupt (.chainTooLong type (numberAt extraData 0 3))) :=
    (EndsItsStream.of_surplus small offers long).1
  cases entry with
  | x509 certificate =>
    rw [selectedChain, Decoder.x509Chain_eq_map, Decoder.outcome_map, surplus]
    rfl
  | precert p =>
    rw [selectedChain, Decoder.precertChain_eq_map, Decoder.outcome_map, surplus]
    rfl

/-- **Allowing a surplus changes nothing but what becomes of the surplus.** A chain has none in either mode. -/
theorem modes_agree :
    ModesAgree (fun trailing bytes => (decodeSct trailing bytes).result) ∧
    ModesAgree (fun trailing bytes => (decodeLeaf trailing bytes).result) ∧
    (∀ extraData, ModesAgree fun trailing leafInput => (decodeEntry trailing leafInput extraData).result) ∧
    ∀ trailing leafInput extraData l, (decodeLeaf .allowed leafInput).result = .ok l →
      3 + numberAt extraData 0 3 < extraData.length →
        (decodeEntry trailing leafInput extraData).result =
          .error (.corrupt (.chainTooLong l.entryType (numberAt extraData 0 3))) := by
  refine ⟨(examines_decode _).modesAgree, (examines_decode _).modesAgree,
    fun extraData => (examines_decodeEntry extraData).modesAgree,
    fun trailing leafInput extraData l parses more => ?_⟩
  obtain ⟨_, decoded, same, -⟩ := (examines_decode Decoder.leaf).accepted_iff.1 parses
  cases same
  exact decodeEntry_of_chain_error trailing decoded (selectedChain_surplus l.timestampedEntry.signedEntry more)

/-- One byte behind a leaf, and one behind a chain. -/
theorem modes_agree_one_left :
    let leafInput : Bytes := [0, 0, 0, 0, 0, 0, 0, 0, 0, 5, 0, 0, 0, 0, 1, 7, 9]
    (decodeLeaf .refused leafInput).result = .error (.trailingData 1) ∧
      (decodeLeaf .allowed leafInput).result = .ok ⟨.v1, ⟨5, .x509 [7]⟩⟩ ∧
        (decodeEntry .allowed leafInput [0, 0, 0, 4]).result = .error (.corrupt (.chainTooLong .x509 0)) := by
  intro leafInput
  obtain ⟨-, leaf, -, chain⟩ := modes_agree
  have accepted : (decodeLeaf .refused leafInput.dropLast).result = .ok ⟨.v1, ⟨5, .x509 [7]⟩⟩ := by
    decide +kernel
  have parses : (decodeLeaf .allowed leafInput).result = .ok ⟨.v1, ⟨5, .x509 [7]⟩⟩ := by decide +kernel
  exact ⟨leaf.surplus _ _ _ (List.dropLast_prefix leafInput) accepted (by decide), parses,
    chain .allowed leafInput [0, 0, 0, 4] _ parses (by decide)⟩

end Transparency.Wire
