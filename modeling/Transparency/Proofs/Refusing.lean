import Transparency.Proofs.Sending

/-! What is written of a value that is refused.

A value is judged before it is written, and the length of data that may be written fits the bytes before it. So a
number, a field and a chain are refused with nothing written of them, and a record with what stands before its first
field that is too long (`refusals_write_nothing`). -/
namespace Transparency.Wire

/-- The value was at fault, and not the sink. -/
def EncodeError.IsRefusal : EncodeError → Prop
  | .numberTooWide _ | .numberTooLarge _ _ | .fieldTooLong _ _ => True
  | .io _ => False

namespace Encoder

/-- Whatever is refused, the writer stays as it is: the sink is not even asked. -/
def RefusesUntouched (e : Encoder Unit) : Prop :=
  ∀ w w' error, e w = .error error w' → error.IsRefusal → w' = w

/-- `data` is the first of the record's fields that is too long. The sink was given what stands before it, and of the
field nothing, not even its length. -/
structure RefusedAt (record before : List Segment) (max : UInt64) (data : Bytes) (w : Writer) (error : EncodeError)
    (w' : Writer) : Prop where
  place : ∃ after, record = before ++ .framed max data :: after
  fits : ∀ s ∈ before, s.Fits
  tooLong : max.toNat < data.length
  error : error = .fieldTooLong data.length max.toNat
  feeds : Feeds w.sink.fresh (before.flatMap Segment.writes) (before.flatMap Segment.code) .all w'.sink.fresh
  output : w'.sink.output = w.sink.output ++ before.flatMap Segment.code
  position : w'.position = w.position + (before.flatMap Segment.code).length
  /-- What is told of the position is right if a word holds it. -/
  counter : w.position + (before.flatMap Segment.code).length < UInt64.size → w'.counter.toNat = w'.position

/-- A record is refused for its first field that is too long, and succeeds only if there is none. -/
structure RefusesFirst (e : Encoder Unit) (record : List Segment) : Prop where
  refused : ∀ w w' error, e w = .error error w' → error.IsRefusal →
    ∃ before max data, RefusedAt record before max data w error w'
  accepted : ∀ w w', e w = .ok () w' → ∀ s ∈ record, s.Fits

/-! ### Numbers, fields and chains -/

theorem refusesUntouched_throw (error : EncodeError) : RefusesUntouched (throw error) := by
  intro w w' _ run _
  cases run
  rfl

/-- Only the sink can stop a write. -/
theorem not_refused_of_writes {writes : List Bytes} {w w' : Writer} {error : EncodeError}
    (run : writes.forM bytes w = .error error w') : ¬ error.IsRefusal := by
  obtain ⟨taken, stop, -, -, ends⟩ := gives_forM_bytes writes w
  rw [run] at ends
  cases ends
  exact id

theorem refusesUntouched_writes (writes : List Bytes) : RefusesUntouched (writes.forM bytes) :=
  fun _ _ _ run refusal => absurd refusal (not_refused_of_writes run)

theorem refusesUntouched_number (value : UInt64) (width : Nat) : RefusesUntouched (number value width) := by
  unfold number
  split
  · exact refusesUntouched_throw _
  · split
    · exact refusesUntouched_throw _
    · rw [← forM_bytes_singleton]
      exact refusesUntouched_writes _

theorem refusesUntouched_field (data : Bytes) (max : UInt64) : RefusesUntouched (field data max) := by
  by_cases long : max.toNat < data.length
  · rw [field, if_pos long]
    exact refusesUntouched_throw _
  · have fits : (Segment.framed max data).Fits := List.forall_mem_singleton.2 (Nat.not_lt.1 long)
    show RefusesUntouched (segment (.framed max data))
    rw [segment_eq_writes fits]
    exact refusesUntouched_writes _

theorem refusesUntouched_certificates (chain : List Bytes) : RefusesUntouched (certificates chain) := by
  cases unfit : Frame.unfit? (chain.map (.ofData maxCertificateLength)) with
  | some f =>
    intro w w' error run _
    rw [certificates_of_tooLong unfit] at run
    cases run
    rfl
  | none =>
    rw [certificates_eq (Frame.unfit?_eq_none_iff.1 unfit)]
    exact refusesUntouched_field _ _

/-! ### Records -/

/-- A record fits, or has a first field that is too long. -/
theorem fits_or_tooLong (record : List Segment) : (∀ s ∈ record, s.Fits) ∨
    ∃ before max data after, record = before ++ .framed max data :: after ∧ (∀ s ∈ before, s.Fits) ∧
      max.toNat < data.length := by
  cases found : record.find? fun s => ¬ s.Fits with
  | none =>
    left
    simpa using found
  | some s =>
    obtain ⟨unfit, before, after, split, fits⟩ := List.find?_eq_some_iff_append.1 found
    right
    cases s with
    | fixed code => simp [Segment.Fits, Segment.frames] at unfit
    | framed max data =>
      exact ⟨before, max, data, after, split, by simpa using fits,
        by simpa [Segment.Fits, Segment.frames, Frame.Fits, Frame.ofData] using unfit⟩

theorem segments_append (a b : List Segment) : segments (a ++ b) = segments a >>= fun _ => segments b :=
  List.forM_append

theorem segments_of_tooLong {before : List Segment} (after : List Segment) {max : UInt64} {data : Bytes}
    (fits : ∀ s ∈ before, s.Fits) (long : max.toNat < data.length) :
    segments (before ++ .framed max data :: after) =
      (before.flatMap Segment.writes).forM bytes >>= fun _ => throw (.fieldTooLong data.length max.toNat) := by
  rw [segments_append, segments_eq_writes fits, segments_cons, segment, field, if_pos long]
  rfl

theorem bind_throw_eq (e : Encoder Unit) (error : EncodeError) (w : Writer) :
    (e >>= fun _ => throw error : Encoder Unit) w = match e w with
      | .ok _ m => .error error m
      | .error error m => .error error m := by
  show EStateM.bind e (fun _ => EStateM.throw error) w = _
  unfold EStateM.bind
  cases e w <;> rfl

theorem refusesFirst_segments (record : List Segment) : RefusesFirst (segments record) record where
  refused w w' error run refusal := by
    obtain fits | ⟨before, max, data, after, split, fits, long⟩ := fits_or_tooLong record
    · rw [segments_eq_writes fits] at run
      exact absurd refusal (not_refused_of_writes run)
    · have gives := gives_forM_bytes (before.flatMap Segment.writes) w
      rw [split, segments_of_tooLong after fits long, bind_throw_eq] at run
      cases written : (before.flatMap Segment.writes).forM bytes w with
      | error cause m =>
        rw [written] at run
        cases run
        exact absurd refusal (not_refused_of_writes written)
      | ok _ m =>
        rw [written] at run gives
        cases run
        obtain ⟨taken, stop, feeds, output, ends⟩ := gives
        cases ends with
        | whole taken_eq position =>
          rw [Segment.flatten_flatMap_writes] at taken_eq
          subst taken_eq
          exact ⟨before, max, data, ⟨after, split⟩, fits, long, rfl, feeds, output, position,
            fun inWord => Writer.toNat_counter (by rwa [position])⟩
  accepted w w' run := by
    obtain fits | ⟨before, max, data, after, split, fits, long⟩ := fits_or_tooLong record
    · exact fits
    · rw [split, segments_of_tooLong after fits long, bind_throw_eq] at run
      split at run <;> cases run

end Encoder

/-- **A refused value leaves nothing in the sink but what stands before it.** -/
theorem refusals_write_nothing :
    (∀ value width, (Encoder.number value width).RefusesUntouched) ∧
    (∀ data max, (Encoder.field data max).RefusesUntouched) ∧
    (∀ c, (Encoder.x509Chain c).RefusesUntouched) ∧
    (∀ c, (Encoder.precertChain c).RefusesUntouched) ∧
    (∀ s, (Encoder.sct s).RefusesFirst s.segments) ∧
    (∀ s, (Encoder.digitallySigned s).RefusesFirst s.segments) ∧
    (∀ l, (Encoder.leaf l).RefusesFirst l.segments) ∧
    (∀ e, (Encoder.timestampedEntry e).RefusesFirst e.segments) := by
  have record {e : Encoder Unit} {parts : List Segment} (same : e = Encoder.segments parts) :
      e.RefusesFirst parts := same ▸ Encoder.refusesFirst_segments parts
  exact ⟨Encoder.refusesUntouched_number, Encoder.refusesUntouched_field,
    fun c => Encoder.refusesUntouched_certificates c.certificateChain,
    fun c => Encoder.refusesUntouched_certificates c.precertificateChain,
    fun s => record (Encoder.sct_eq s), fun s => record (Encoder.digitallySigned_eq s),
    fun l => record (Encoder.leaf_eq l), fun e => record (Encoder.timestampedEntry_eq e)⟩

/-- A signature of one byte too many, for a sink that takes a byte at a time. -/
theorem refusals_write_nothing_signature :
    let s : DigitallySigned := ⟨.sha256, .ecdsa, List.replicate 65536 0⟩
    let w : Writer := ⟨{chunk := some 1}, 3⟩
    ∃ w', Encoder.digitallySigned s w = .error (.fieldTooLong 65536 65535) w' ∧ w'.sink.output = [4, 3] ∧
      w'.position = 5 ∧ ∃ before max data,
        Encoder.RefusedAt s.segments before max data w (.fieldTooLong 65536 65535) w' := by
  intro s w
  -- Nothing of the signature but its length is looked at.
  have refused (signature : Bytes) (length : signature.length = 65536) :
      Encoder.digitallySigned ⟨.sha256, .ecdsa, signature⟩ w = .error (.fieldTooLong 65536 65535)
        ⟨{chunk := some 1, pieces := [[3], [4]]}, 5⟩ := by
    have hash : digits algorithmLength HashAlgorithm.sha256.tag = [4] := by decide
    have algorithm : digits algorithmLength SignatureAlgorithm.ecdsa.tag = [3] := by decide
    have long : maxSignatureLength.toNat < signature.length := by
      rw [length]
      decide
    have fits : ∀ s ∈ [Segment.fixed [4], .fixed [3]], s.Fits := by decide
    have run := congrFun (Encoder.segments_of_tooLong [] fits long) w
    rw [length] at run
    simp only [Encoder.digitallySigned_eq, DigitallySigned.segments, hash, algorithm]
    exact run
  have run := refused s.signature List.length_replicate
  obtain ⟨-, -, -, -, -, signed, -⟩ := refusals_write_nothing
  exact ⟨_, run, rfl, rfl, (signed s).refused w _ _ run trivial⟩

end Transparency.Wire
