import Transparency.Proofs.Chain
import Transparency.Proofs.Delivery
import Transparency.Proofs.Failure

/-! A chain ends its stream.

The certificates of a chain are followed by the end of the input and by nothing else. A decoder of chains
looks for that end: it asks for one byte more than the chain declares, so it never takes more than that one
from its source, however much there is, and it accepts only if the source has answered that there is none
(`chain_ends_its_stream`). A source that fails instead has corrupted the chain, at its last byte as well
as at its first. -/
namespace Transparency.Wire
variable {α β : Type}

/-- `s` hands out `bytes` and is then `u`, or is `u` after the end or the failure that it reports then. -/
def Source.Yields (s : Source) (bytes : Bytes) (u : Source) : Prop :=
  s.Offers bytes u ∨ ∃ t, s.Offers bytes t ∧ (t.Ends u ∨ ∃ error, t.Fails error u)

/-- The source never ends and never fails. -/
structure Source.Endless (s : Source) : Prop where
  steady : ∀ event ∈ s.events, event.Steady
  endless : ∃ stream offset, s.ending = .endless stream offset

namespace Source.Endless
variable {s t : Source} {bytes : Bytes} {error : IoError}

theorem behind (h : s.Endless) (offers : s.Offers bytes t) : t.Endless := by
  induction offers with
  | nothing => exact h
  | interrupt _ ih => exact ih ⟨(List.forall_mem_cons.1 h.steady).2, h.endless⟩
  | piece _ _ _ ih => exact ih ⟨(List.forall_mem_cons.1 h.steady).2, h.endless⟩
  | part _ _ some => exact ⟨List.forall_mem_cons.2 ⟨some, (List.forall_mem_cons.1 h.steady).2⟩, h.endless⟩
  | endless => exact ⟨h.steady, _, _, rfl⟩

theorem not_ends (h : s.Endless) : ¬ s.Ends t := by
  intro ends
  cases ends with
  | done =>
    obtain ⟨_, _, ending⟩ := h.endless
    cases ending
  | empty => exact (List.forall_mem_cons.1 h.steady).1 rfl
  | withheld => exact (List.forall_mem_cons.1 h.steady).1

theorem not_fails (h : s.Endless) : ¬ s.Fails error t := by
  intro fails
  cases fails with
  | always =>
    obtain ⟨_, _, ending⟩ := h.endless
    cases ending
  | once => exact (List.forall_mem_cons.1 h.steady).1

/-- It offers as much as one likes. -/
theorem offers (h : s.Endless) (n : Nat) : ∃ bytes t, bytes.length = n ∧ s.Offers bytes t := by
  cases s.meets n with
  | filled offers full => exact ⟨_, _, full, offers⟩
  | ended offers _ ends => exact absurd ends (h.behind offers).not_ends
  | failed offers _ fails => exact absurd fails (h.behind offers).not_fails

end Source.Endless

namespace Decoder

/-! ### Certificates in memory -/

/-- Certificates in memory fail as one of their fields does. -/
theorem fields_error {max : UInt64} {bound : Nat} {done : List Bytes} {body : Bytes} {r s : Reader}
    {error : DecodeError} (h : r.source = .ofBytes body) (run : fields max bound done r = .error error s) :
    ∃ m body', m.source = .ofBytes body' ∧ field max m = .error error s := by
  induction bound generalizing done body r with
  | zero => cases run
  | succ bound ih =>
    by_cases spent : body = []
    · subst spent
      rw [fields_of_spent _ _ _ h] at run
      cases run
    · rw [fields_of_more _ _ _ h spent] at run
      rcases error_of_bind run with first | ⟨data, m, first, others⟩
      · exact ⟨r, body, h, first⟩
      · obtain ⟨code, rest, rfl, -, passes⟩ := Streaming.code_of_ok h first
        exact ih passes.source others

theorem fields_flaw {max : UInt64} {bound : Nat} {done : List Bytes} {body : Bytes} {r s : Reader}
    {error : DecodeError} (h : r.source = .ofBytes body) (run : fields max bound done r = .error error s) :
    error.Flaw := by
  obtain ⟨m, body', source, failed⟩ := fields_error h run
  exact Measured.flaw source failed

/-! ### The chain in its stream -/

theorem ofChain_of_truncated {type : EntryType} {d : Decoder α} {r s : Reader} {expected actual : Nat}
    (run : d r = .error (.truncated expected actual) s) :
    ofChain type d r = .error (.truncated expected actual) s := by
  simp only [ofChain, run]

theorem x509Chain_eq_map (certificate : Bytes) :
    x509Chain certificate = (fun chain => ⟨certificate, chain⟩) <$> certificates .x509 := rfl

theorem precertChain_eq_map (p : Precert) :
    precertChain p = (fun chain => ⟨p, chain⟩) <$> certificates .precert := rfl

section
variable (type : EntryType) {r : Reader} {t rest : Source} {error : IoError} {declared : Nat}
  {bytes body beyond : Bytes}

/-- The number of bytes that a chain declares is read from three bytes. -/
theorem decides_declared (small : declared < 256 ^ 3) :
    ∃ value : UInt64, value.toNat = declared ∧
      Decides (number (bytesNeeded maxChainLength)) (.ok value) (digits 3 declared) := by
  have width : bytesNeeded maxChainLength = (digits 3 declared).length := (length_digits 3 declared).symm
  have narrow : (digits 3 declared).length ≤ maxNumberWidth := by
    rw [length_digits]
    decide
  rw [width]
  exact ⟨_, (toNat_foldl_pushByte_zero narrow).trans (bigEndian_digits small), decides_number narrow⟩

theorem certificates_length_ended (offers : r.source.Offers bytes t) (short : bytes.length < 3)
    (ends : t.Ends rest) :
    ∃ s, certificates type r = .error (.truncated 3 bytes.length) s ∧ r.Drains bytes rest s := by
  obtain ⟨s, run, drains⟩ := ((reads_number (by decide)).misses bytes short).ended offers ends
  exact ⟨s, bind_of_error (ofChain_of_truncated run), drains⟩

theorem certificates_length_failed (offers : r.source.Offers bytes t) (short : bytes.length < 3)
    (fails : t.Fails error rest) :
    ∃ s, certificates type r = .error (.corrupt (.chainUnreadable type error.message)) s ∧
      r.Loses bytes rest s := by
  obtain ⟨s, run, loses⟩ := ((reads_number (by decide)).misses bytes short).failed offers fails
  exact ⟨s, bind_of_error (ofChain_of_io run), loses⟩

theorem certificates_tooLong (small : declared < 256 ^ 3)
    (offers : r.source.Offers (digits 3 declared ++ (body ++ beyond)) t)
    (long : body.length = declared + 1) :
    ∃ s, certificates type r = .error (.corrupt (.chainTooLong type declared)) s ∧
      r.Takes (digits 3 declared ++ body) s := by
  obtain ⟨value, rfl, decides⟩ := decides_declared small
  obtain ⟨m, run, takes, offers⟩ := decides.run offers
  obtain ⟨s, run', takes', -⟩ := (decides_upTo body).run offers
  rw [long] at run'
  refine ⟨s, ?_, takes.trans takes'⟩
  rw [certificates, bind_of_ok (ofChain_ok_iff.2 run), bind_of_ok (ofChain_ok_iff.2 run'),
    if_pos (by omega)]
  rfl

theorem certificates_failed (small : declared < 256 ^ 3)
    (offers : r.source.Offers (digits 3 declared ++ body) t) (short : body.length ≤ declared)
    (fails : t.Fails error rest) :
    ∃ s, certificates type r = .error (.corrupt (.chainUnreadable type error.message)) s ∧
      r.Loses (digits 3 declared ++ body) rest s := by
  obtain ⟨value, rfl, decides⟩ := decides_declared small
  obtain ⟨m, run, takes, offers⟩ := decides.run offers
  obtain ⟨s, run', loses⟩ := upTo_failed offers (Nat.lt_succ_of_le short) fails
  refine ⟨s, ?_, takes.loses loses⟩
  rw [certificates, bind_of_ok (ofChain_ok_iff.2 run), bind_of_error (ofChain_of_io run')]

theorem certificates_tooShort (small : declared < 256 ^ 3)
    (offers : r.source.Offers (digits 3 declared ++ body) t) (short : body.length < declared)
    (ends : t.Ends rest) :
    ∃ s, certificates type r = .error (.corrupt (.chainTooShort type declared body.length)) s ∧
      r.Drains (digits 3 declared ++ body) rest s := by
  obtain ⟨value, rfl, decides⟩ := decides_declared small
  obtain ⟨m, run, takes, offers⟩ := decides.run offers
  obtain ⟨s, run', drains⟩ := upTo_ended offers (Nat.lt_succ_of_lt short) ends
  refine ⟨s, ?_, takes.drains drains⟩
  rw [certificates, bind_of_ok (ofChain_ok_iff.2 run), bind_of_ok (ofChain_ok_iff.2 run'),
    if_neg (by omega), if_pos short]
  rfl

/-- All the bytes are there, and then the end: what comes of them is settled in memory. -/
theorem certificates_full (small : declared < 256 ^ 3)
    (offers : r.source.Offers (digits 3 declared ++ body) t) (full : body.length = declared)
    (ends : t.Ends rest) :
    ∃ s, r.Drains (digits 3 declared ++ body) rest s ∧
      ((∃ chain, certificates type r = .ok chain s) ∨
        ∃ error, certificates type r = .error error s ∧ error.Flaw) := by
  obtain ⟨value, rfl, decides⟩ := decides_declared small
  obtain ⟨m, run, takes, offers⟩ := decides.run offers
  obtain ⟨m', run', drains⟩ := upTo_ended offers (Nat.lt_succ_of_le (Nat.le_of_eq full)) ends
  have drained := takes.drains drains
  have start : certificates type r = (do
      let chain ← within body (fields maxCertificateLength body.length [])
      note (.chainRead type chain.length)
      return chain : Decoder (List Bytes)) m' := by
    rw [certificates, bind_of_ok (ofChain_ok_iff.2 run), bind_of_ok (ofChain_ok_iff.2 run'),
      if_neg (by omega), if_neg (by omega)]
  rw [start]
  obtain ⟨notes, ⟨chain, inner, -, inside⟩ | ⟨error, inner, failed, inside⟩⟩ :=
    within_cases body (fields maxCertificateLength body.length []) m'
  · refine ⟨_, ?_, .inl ⟨chain, bind_of_ok inside⟩⟩
    exact ⟨drained.source, drained.position, drained.lost⟩
  · refine ⟨_, ?_, .inr ⟨error, bind_of_error inside, fields_flaw rfl failed⟩⟩
    exact ⟨drained.source, drained.position, drained.lost⟩

/-- Either a chain and the end of the input right behind it, or an error that is no failure of the source. -/
theorem certificates_cases (type : EntryType) (r : Reader) :
    (∃ chain s declared body t, certificates type r = .ok chain s ∧ declared < 256 ^ 3 ∧
        r.source.Offers (digits 3 declared ++ body) t ∧ body.length = declared ∧ t.Ends s.source) ∨
      ∃ error s taken, certificates type r = .error error s ∧ error.Flaw ∧ r.source.Yields taken s.source ∧
        (taken.length < 3 ∨ ∃ declared body, declared < 256 ^ 3 ∧ taken = digits 3 declared ++ body ∧
          body.length ≤ declared + 1) := by
  cases r.source.meets 3 with
  | ended offers short ends =>
    obtain ⟨s, run, drains⟩ := certificates_length_ended type offers short ends
    rw [← drains.source] at ends
    exact .inr ⟨_, s, _, run, trivial, .inr ⟨_, offers, .inl ends⟩, .inl short⟩
  | failed offers short fails =>
    obtain ⟨s, run, loses⟩ := certificates_length_failed type offers short fails
    rw [← loses.source] at fails
    exact .inr ⟨_, s, _, run, trivial, .inr ⟨_, offers, .inr ⟨_, fails⟩⟩, .inl short⟩
  | @filled code m offers full =>
    have small := bigEndian_lt code
    rw [full] at small
    rw [eq_digits_of_bigEndian full rfl] at offers
    generalize bigEndian code = declared at small offers
    -- One byte more than declared is asked for; only a source that ends just before it is fine.
    cases m.meets (declared + 1) with
    | @filled body u next long =>
      have all := offers.trans next
      rw [← List.append_nil body] at all
      obtain ⟨s, run, takes⟩ := certificates_tooLong type small all long
      exact .inr ⟨_, s, _, run, trivial, .inl takes.source,
        .inr ⟨declared, body, small, rfl, Nat.le_of_eq long⟩⟩
    | @failed body u rest error next short fails =>
      have all := offers.trans next
      have short := Nat.le_of_lt_succ short
      obtain ⟨s, run, loses⟩ := certificates_failed type small all short fails
      rw [← loses.source] at fails
      exact .inr ⟨_, s, _, run, trivial, .inr ⟨u, all, .inr ⟨error, fails⟩⟩,
        .inr ⟨declared, body, small, rfl, Nat.le_succ_of_le short⟩⟩
    | @ended body u rest next short ends =>
      have all := offers.trans next
      have short := Nat.le_of_lt_succ short
      have bound : ∃ declared' body', declared' < 256 ^ 3 ∧
          digits 3 declared ++ body = digits 3 declared' ++ body' ∧ body'.length ≤ declared' + 1 :=
        ⟨declared, body, small, rfl, Nat.le_succ_of_le short⟩
      rcases Nat.lt_or_eq_of_le short with less | full
      · obtain ⟨s, run, drains⟩ := certificates_tooShort type small all less ends
        rw [← drains.source] at ends
        exact .inr ⟨_, s, _, run, trivial, .inr ⟨u, all, .inl ends⟩, .inr bound⟩
      · obtain ⟨s, drains, ⟨chain, run⟩ | ⟨error, run, flaw⟩⟩ :=
          certificates_full type small all full ends
        · rw [← drains.source] at ends
          exact .inl ⟨chain, s, declared, body, u, run, small, all, full, ends⟩
        · rw [← drains.source] at ends
          exact .inr ⟨error, s, _, run, flaw, .inr ⟨u, all, .inl ends⟩, .inr bound⟩

end

/-- Whatever the source does, only its bytes can be at fault. -/
theorem certificates_flaw {type : EntryType} {r : Reader} {error : DecodeError}
    (failed : (certificates type).outcome r = .error error) : error.Flaw := by
  rcases certificates_cases type r with ⟨chain, s, _, _, _, run, -⟩ | ⟨error', s, _, run, flaw, -⟩
  · rw [outcome_of_ok run] at failed
    cases failed
  · rw [outcome_of_error run] at failed
    cases failed
    exact flaw

end Decoder

/-- What a decoder of chains of this type does with any source at all. The first three bytes of the stream
are the number of those that are to follow. -/
structure EndsItsStream (type : EntryType) (d : Decoder α) : Prop where
  bounded : ∀ source : Source, ∃ taken, source.Yields taken (d.after {source}).source ∧
    (taken.length < 3 ∨ ∃ declared body, declared < 256 ^ 3 ∧ taken = digits 3 declared ++ body ∧
      body.length ≤ declared + 1)
  surplus : ∀ (source t : Source) (declared : Nat) (more : Bytes), declared < 256 ^ 3 →
    source.Offers (digits 3 declared ++ more) t → declared < more.length →
      d.outcome {source} = .error (.corrupt (.chainTooLong type declared)) ∧
        (d.after {source}).position = declared + 4
  /-- A stream without end is a surplus, whatever it declares. -/
  endless : ∀ source : Source, source.Endless → ∃ declared,
    d.outcome {source} = .error (.corrupt (.chainTooLong type declared)) ∧
      (d.after {source}).position = declared + 4
  ended : ∀ (source : Source) (value : α), d.outcome {source} = .ok value →
    ∃ declared body t, declared < 256 ^ 3 ∧ source.Offers (digits 3 declared ++ body) t ∧
      body.length = declared ∧ t.Ends (d.after {source}).source
  unreadable : ∀ (source : Source) (data : Bytes) (error : IoError), source.FailsAfter data error →
    (data.length < 3 ∨ ∃ declared body, declared < 256 ^ 3 ∧ data = digits 3 declared ++ body ∧
      body.length ≤ declared) →
    d.outcome {source} = .error (.corrupt (.chainUnreadable type error.message))
  no_failure : ∀ (source : Source) (error : IoError), d.outcome {source} ≠ .error (.io error)
  finishes : ∀ source : Source, d.outcome {source} ≠ .error .endless

namespace EndsItsStream

theorem of_surplus {type : EntryType} {source t : Source} {declared : Nat} {more : Bytes}
    (small : declared < 256 ^ 3) (offers : source.Offers (digits 3 declared ++ more) t)
    (long : declared < more.length) :
    (Decoder.certificates type).outcome {source} = .error (.corrupt (.chainTooLong type declared)) ∧
      ((Decoder.certificates type).after {source}).position = declared + 4 := by
  have full : (more.take (declared + 1)).length = declared + 1 := List.length_take_of_le long
  rw [← List.take_append_drop (declared + 1) more] at offers
  have start : ({source} : Reader).source.Offers _ t := offers
  obtain ⟨s, run, takes⟩ := Decoder.certificates_tooLong type small start full
  refine ⟨Decoder.outcome_of_error run, ?_⟩
  rw [Decoder.after_of_error run, takes.position, List.length_append, length_digits,
    full]
  show 0 + (3 + (declared + 1)) = declared + 4
  omega

theorem certificates (type : EntryType) : EndsItsStream type (Decoder.certificates type) where
  bounded source := by
    rcases Decoder.certificates_cases type {source} with
      ⟨chain, s, declared, body, t, run, small, offers, full, ends⟩ |
      ⟨error, s, taken, run, -, yields, bound⟩
    · rw [Decoder.after_of_ok run]
      exact ⟨_, .inr ⟨t, offers, .inl ends⟩,
        .inr ⟨declared, body, small, rfl, Nat.le_succ_of_le (Nat.le_of_eq full)⟩⟩
    · rw [Decoder.after_of_error run]
      exact ⟨taken, yields, bound⟩
  surplus source t declared more small offers long := of_surplus small offers long
  endless source endless := by
    obtain ⟨bytes, t, length, offers⟩ := endless.offers (256 ^ 3 + 3)
    have full : (bytes.take 3).length = 3 := List.length_take_of_le (by omega)
    have small := bigEndian_lt (bytes.take 3)
    rw [full] at small
    rw [← List.take_append_drop 3 bytes, eq_digits_of_bigEndian full rfl] at offers
    exact ⟨_, of_surplus small offers (by rw [List.length_drop]; omega)⟩
  ended source value accepted := by
    rcases Decoder.certificates_cases type {source} with
      ⟨chain, s, declared, body, t, run, small, offers, full, ends⟩ | ⟨error, s, taken, run, -⟩
    · rw [Decoder.after_of_ok run]
      exact ⟨declared, body, t, small, offers, full, ends⟩
    · rw [Decoder.outcome_of_error run] at accepted
      cases accepted
  unreadable source data error fails early := by
    obtain ⟨t, rest, offers, fails⟩ := fails
    have start : ({source} : Reader).source.Offers data t := offers
    rcases early with short | ⟨declared, body, small, rfl, short⟩
    · obtain ⟨s, run, -⟩ := Decoder.certificates_length_failed type start short fails
      exact Decoder.outcome_of_error run
    · obtain ⟨s, run, -⟩ := Decoder.certificates_failed type small start short fails
      exact Decoder.outcome_of_error run
  no_failure _ _ failed := Decoder.certificates_flaw failed
  finishes _ failed := Decoder.certificates_flaw failed

/-- What is made of the chain afterwards has no say in it. -/
theorem map {type : EntryType} {d : Decoder α} (h : EndsItsStream type d) (f : α → β) :
    EndsItsStream type (f <$> d) where
  bounded source := by
    rw [Decoder.after_map]
    exact h.bounded source
  surplus source t declared more small offers long := by
    obtain ⟨outcome, position⟩ := h.surplus source t declared more small offers long
    rw [Decoder.outcome_map, Decoder.after_map, outcome]
    exact ⟨rfl, position⟩
  endless source endless := by
    obtain ⟨declared, outcome, position⟩ := h.endless source endless
    rw [Decoder.outcome_map, Decoder.after_map, outcome]
    exact ⟨declared, rfl, position⟩
  ended source value accepted := by
    rw [Decoder.outcome_map, Decoder.map_eq_ok_iff] at accepted
    obtain ⟨chain, accepted, -⟩ := accepted
    rw [Decoder.after_map]
    exact h.ended source chain accepted
  unreadable source data error fails early := by
    rw [Decoder.outcome_map, h.unreadable source data error fails early]
    rfl
  no_failure source error failed := by
    rw [Decoder.outcome_map, Decoder.map_eq_error_iff] at failed
    exact h.no_failure source error failed
  finishes source failed := by
    rw [Decoder.outcome_map, Decoder.map_eq_error_iff] at failed
    exact h.finishes source failed

/-- A whole chain with a failure behind it is not accepted. -/
theorem whole_unreadable {type : EntryType} {d : Decoder α} (h : EndsItsStream type d) {chain : List Bytes}
    {bytes : Bytes} (encoded : (Encoder.certificates chain).toBytes = .ok bytes) {source : Source}
    {error : IoError} (fails : source.FailsAfter bytes error) :
    d.outcome {source} = .error (.corrupt (.chainUnreadable type error.message)) := by
  obtain ⟨fits, rfl⟩ := Encoder.certificates_toBytes_iff.1 encoded
  exact h.unreadable source _ error fails
    (.inr ⟨_, chainBody chain, Nat.lt_succ_of_le fits.body, rfl, Nat.le_refl _⟩)

end EndsItsStream

/-- **A chain is bounded by what it declares, and needs the end of the input behind it.** -/
theorem chain_ends_its_stream :
    (∀ certificate, EndsItsStream .x509 (Decoder.x509Chain certificate)) ∧
      (∀ precert, EndsItsStream .precert (Decoder.precertChain precert)) ∧
      (∀ certificate chain bytes source error, encodeX509Chain chain = .ok bytes →
        source.FailsAfter bytes error → (Decoder.x509Chain certificate).outcome {source} =
          .error (.corrupt (.chainUnreadable .x509 error.message))) ∧
      (∀ precert chain bytes source error, encodePrecertChain chain = .ok bytes →
        source.FailsAfter bytes error → (Decoder.precertChain precert).outcome {source} =
          .error (.corrupt (.chainUnreadable .precert error.message))) := by
  have x509 (certificate : Bytes) : EndsItsStream .x509 (Decoder.x509Chain certificate) := by
    rw [Decoder.x509Chain_eq_map]
    exact (EndsItsStream.certificates .x509).map _
  have precert (p : Precert) : EndsItsStream .precert (Decoder.precertChain p) := by
    rw [Decoder.precertChain_eq_map]
    exact (EndsItsStream.certificates .precert).map _
  exact ⟨x509, precert,
    fun certificate _ _ _ _ encoded fails => (x509 certificate).whole_unreadable encoded fails,
    fun p _ _ _ _ encoded fails => (precert p).whole_unreadable encoded fails⟩

/-- A chain of two certificates, before a stream without end and before a failure. -/
theorem chain_ends_its_stream_two :
    let reset : IoError := ⟨.connectionReset, "connection reset"⟩
    let code : Bytes := [0, 0, 9, 0, 0, 1, 1, 0, 0, 2, 2, 3]
    let zeros : Source :=
      ⟨[.data [0, 0], .interrupt, .data [9, 0, 0, 1, 1, 0, 0, 2, 2, 3]], .endless (fun _ => 0) 0⟩
    let cut : Source := ⟨[.data [0, 0, 9, 0, 0, 1, 1], .interrupt, .data [0, 0, 2, 2, 3]], .failing reset⟩
    encodeX509Chain ⟨[], [[1], [2, 3]]⟩ = .ok code ∧ cut.FailsAfter code reset ∧
      ((Decoder.x509Chain []).outcome {source := zeros} = .error (.corrupt (.chainTooLong .x509 9)) ∧
        ((Decoder.x509Chain []).after {source := zeros}).position = 13) ∧
      (Decoder.x509Chain []).outcome {source := cut} =
        .error (.corrupt (.chainUnreadable .x509 "connection reset")) := by
  intro reset code zeros cut
  have fails : cut.FailsAfter code reset :=
    ⟨_, _, .piece _ (by decide) (.interrupt (.piece _ (by decide) (.nothing _))), .always⟩
  have offers : zeros.Offers (digits 3 9 ++ [0, 0, 1, 1, 0, 0, 2, 2, 3, 0]) ⟨[], .endless (fun _ => 0) 1⟩ :=
    .piece [0, 0] (by decide) (.interrupt (.piece _ (by decide) (.endless (fun _ => 0) 0 1)))
  have encoded : encodeX509Chain ⟨[], [[1], [2, 3]]⟩ = .ok code := rfl
  exact ⟨encoded, fails, (chain_ends_its_stream.1 []).surplus zeros _ 9 _ (by decide) offers (by decide),
    chain_ends_its_stream.2.2.1 [] ⟨[], [[1], [2, 3]]⟩ _ cut reset encoded fails⟩

end Transparency.Wire
