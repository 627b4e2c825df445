import Transparency.Proofs.Grammar
import Transparency.Proofs.Measured

/-! How much is missing.

Where a byte string ends too early for a record, the decoder says how long the field is that it was at, and
how much of it was there. Those two numbers are exact (`truncation_exact`): less than the difference leaves
the same field short by so much less, and just the difference completes it. And a record that is cut off
anywhere is reported as truncated, never as anything else. -/
namespace Transparency.Wire
variable {α : Type}

/-- `d` has read all of `bytes` and is `missing` bytes short of the `expected` ones of its field. -/
structure ShortBy (d : Decoder α) (bytes : Bytes) (expected actual missing : Nat) : Prop where
  missing_pos : 0 < missing
  expected_eq : expected = actual + missing
  short : ∀ more : Bytes, more.length < missing →
    d.outcome (.ofBytes (bytes ++ more)) = .error (.truncated expected (actual + more.length))
  /-- The field is complete, and what is missing then is all of the next one. -/
  full : ∀ more : Bytes, more.length = missing → ∀ expected' actual',
    d.outcome (.ofBytes (bytes ++ more)) = .error (.truncated expected' actual') → actual' = 0

/-- What `d` reports as missing from a byte string is what is missing from it. -/
def ExactShortfall (d : Decoder α) : Prop :=
  ∀ (bytes : Bytes) (expected actual : Nat) (r : Reader),
    d (.ofBytes bytes) = .error (.truncated expected actual) r →
      r.unread = [] ∧ r.position = bytes.length ∧ actual < expected ∧
        ∃ missing, (DecodeError.truncated expected actual).shortfall? = some missing ∧
          ShortBy d bytes expected actual missing

/-- Any beginning of what `decode` accepts is truncated to it, but for the whole. -/
def CutsReported (decode : Trailing → Bytes → Decoded α) : Prop :=
  ∀ (bytes : Bytes) (value : α), (decode .refused bytes).result = .ok value → ∀ n < bytes.length,
    ∀ trailing, ∃ expected actual,
      (decode trailing (bytes.take n)).result = .error (.truncated expected actual)

namespace Decoder

theorem Misses.outcome {d : Decoder α} {expected actual : Nat} {bytes : Bytes}
    (h : Misses d expected actual bytes) :
    d.outcome (.ofBytes bytes) = .error (.truncated expected actual) := by
  have offers : (Reader.ofBytes bytes).source.Offers bytes (.ofBytes []) := Source.offers_all bytes
  obtain ⟨s, run, -⟩ := h.ended offers Source.ends_ofBytes_nil
  exact outcome_of_error run

theorem Decides.outcome {d : Decoder α} {out : Except DecodeError α} {code : Bytes}
    (h : Decides d out code) : d.outcome (.ofBytes code) = out := by
  have offers : (Reader.ofBytes code).source.Offers (code ++ []) (.ofBytes []) := by
    rw [List.append_nil]
    exact Source.offers_all code
  obtain ⟨s, run, -⟩ := h.run offers
  exact outcome_of_leaving run

theorem Lacks.shortBy {d : Decoder α} {expected actual : Nat} {bytes : Bytes}
    (h : Lacks d expected actual bytes) : ShortBy d bytes expected actual (expected - actual) where
  missing_pos := Nat.sub_pos_of_lt h.less
  expected_eq := (Nat.add_sub_cancel' (Nat.le_of_lt h.less)).symm
  short more less := (h.short more (by omega)).outcome
  full more same expected' actual' outcome := by
    have less := h.less
    rcases h.full more (by omega) with ⟨out, decides⟩ | ⟨next, misses⟩
    · have truncated := decides.judgement
      rw [decides.outcome.symm.trans outcome] at truncated
      exact truncated.elim
    · rw [misses.outcome] at outcome
      cases outcome
      rfl

end Decoder

theorem ExactShortfall.of_measured (d : Decoder α) [Decoder.Measured d] : ExactShortfall d := by
  intro bytes expected actual r run
  obtain ⟨lacks, drains⟩ := Decoder.Measured.truncated rfl run
  refine ⟨?_, drains.position.trans (Nat.zero_add _), lacks.less, expected - actual, rfl, lacks.shortBy⟩
  rw [Reader.unread, drains.source, Source.unread_ofBytes]

theorem CutsReported.of_streaming (d : Decoder α) [Decoder.Streaming d] : CutsReported d.decode := by
  intro bytes value accepted n less trailing
  have settles := Decoder.decode_refused_iff.1 accepted
  rcases Decoder.Streaming.settles_or_starves (d := d) (bytes.take n) with
    ⟨out, code, rest, cut, early⟩ | starves
  · have same : code ++ (rest ++ bytes.drop n) = bytes ++ [] := by
      rw [← List.append_assoc, ← cut, List.take_append_drop, List.append_nil]
    have length := congrArg List.length cut
    rw [(early.unique settles same).2, List.length_append, List.length_take] at length
    omega
  · obtain ⟨expected, actual, s, run, -⟩ := starves (.ofBytes (bytes.take n)) rfl
    refine ⟨expected, actual, ?_⟩
    rw [Decoder.decode, run]

/-- **Truncation is reported exactly**, by every decoder of a record that says where it ends. -/
theorem truncation_exact :
    ExactShortfall Decoder.sct ∧ ExactShortfall Decoder.digitallySigned ∧ ExactShortfall Decoder.leaf ∧
      ExactShortfall Decoder.timestampedEntry ∧ CutsReported decodeSct ∧ CutsReported decodeLeaf :=
  ⟨.of_measured _, .of_measured _, .of_measured _, .of_measured _, .of_streaming _, .of_streaming _⟩

/-- A signature of five bytes that ends after its first, a leaf without its last byte, and a timestamp that ends
within the identity of the log. -/
theorem truncation_exact_one_of_five :
    let cut : Bytes := [4, 3, 0, 5, 7]
    let leaf : Bytes := [0, 0, 0, 0, 0, 0, 0, 0, 0, 5, 0, 0, 0, 0, 1, 7]
    let sct : Bytes := 0 :: List.replicate 32 5 ++ [0, 0, 0, 0, 0, 0, 0, 9, 0, 1, 6, 4, 3, 0, 1, 7]
    (∃ r, Decoder.digitallySigned (.ofBytes cut) = .error (.truncated 5 1) r ∧
      r.unread = [] ∧ r.position = 5 ∧ 1 < 5 ∧
        ∃ missing, (DecodeError.truncated 5 1).shortfall? = some missing ∧
          ShortBy Decoder.digitallySigned cut 5 1 missing) ∧
      (decodeLeaf .refused leaf).result = .ok ⟨.v1, ⟨5, .x509 [7]⟩⟩ ∧
      (∃ expected actual, (decodeLeaf .allowed (leaf.take 15)).result = .error (.truncated expected actual)) ∧
      (decodeSct .refused sct).result =
        .ok ⟨.v1, ⟨⟨List.replicate 32 5, rfl⟩⟩, 9, [6], ⟨.sha256, .ecdsa, [7]⟩⟩ ∧
      ∃ expected actual, (decodeSct .refused (sct.take 20)).result = .error (.truncated expected actual) := by
  intro cut leaf sct
  obtain ⟨-, signature, -, -, scts, leaves⟩ := truncation_exact
  have accepted : (decodeLeaf .refused leaf).result = .ok ⟨.v1, ⟨5, .x509 [7]⟩⟩ := by decide +kernel
  have accepted' : (decodeSct .refused sct).result =
      .ok ⟨.v1, ⟨⟨List.replicate 32 5, rfl⟩⟩, 9, [6], ⟨.sha256, .ecdsa, [7]⟩⟩ := by decide +kernel
  exact ⟨⟨_, rfl, signature cut 5 1 _ rfl⟩, accepted, leaves leaf _ accepted 15 (by decide) .allowed, accepted',
    scts sct _ accepted' 20 (by decide) .refused⟩

end Transparency.Wire
