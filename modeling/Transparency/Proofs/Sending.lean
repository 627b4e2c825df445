import Transparency.Proofs.Memory
import Transparency.Proofs.Pushing

/-! Encoding to any sink.

An encoder gives its sink one byte string after another, and each until the sink has all of it (`Feeds`). So the sink
gets the front of the code, however it answers. The encoder succeeds if the sink gets all of it; otherwise it
fails for the answer that stopped it, and its position counts the byte strings that the sink has whole
(`code_sent`). -/
namespace Transparency.Wire

/-- Each of `writes` is pushed to the sink, as long as the sink takes all of the one before. -/
inductive Feeds : Sink → (writes : List Bytes) → (taken : Bytes) → Pushed → Sink → Prop where
  | done {s} : Feeds s [] [] .all s
  | next {s m t write writes taken stop} : Pushes s write write .all m → Feeds m writes taken stop t →
      Feeds s (write :: writes) (write ++ taken) stop t
  | stopped {s t write writes part stop} : Pushes s write part stop t → stop ≠ .all →
      Feeds s (write :: writes) part stop t

/-- Why a push ended before all was taken. That nothing is taken of an offer is an error of its own kind, `writeZero`. -/
def Pushed.cause? : Pushed → Option IoError
  | .all => none
  | .nothing => some .nothingTaken
  | .failed error => some error

theorem Pushed.cause?_eq_none_iff {stop : Pushed} : stop.cause? = none ↔ stop = .all := by
  cases stop <;> simp [cause?]

namespace Encoder

/-! ### Writes -/

theorem bytes_eq (data : Bytes) (w : Writer) :
    bytes data w = match (w.sink.push data).stop.cause? with
      | none => .ok () {w with sink := (w.sink.push data).sink, position := w.position + data.length}
      | some cause => .error (.io cause) {w with sink := (w.sink.push data).sink} := by
  unfold bytes
  cases stop : (w.sink.push data).stop <;> simp only [stop, Pushed.cause?]

/-- The writer that a run leaves. -/
def left : EStateM.Result EncodeError Writer Unit → Writer
  | .ok _ w | .error _ w => w

/-- How a run on `w` that makes `writes` ends, with `taken` of them in the sink. -/
inductive Ends (w : Writer) (writes : List Bytes) (taken : Bytes) :
    Pushed → EStateM.Result EncodeError Writer Unit → Prop where
  | whole {w'} : taken = writes.flatten → w'.position = w.position + taken.length →
      Ends w writes taken .all (.ok () w')
  /-- The sink has a part of one byte string, that the position does not count. -/
  | broken {w' part stop cause} before write after : writes = before ++ write :: after →
      taken = before.flatten ++ part → part <+: write → part ≠ write → stop.cause? = some cause →
        w'.position = w.position + before.flatten.length → Ends w writes taken stop (.error (.io cause) w')

theorem Ends.behind {w m : Writer} {data taken : Bytes} {writes : List Bytes} {stop : Pushed}
    {result : EStateM.Result EncodeError Writer Unit} (position : m.position = w.position + data.length)
    (h : Ends m writes taken stop result) : Ends w (data :: writes) (data ++ taken) stop result := by
  cases h with
  | whole taken_eq position' =>
    refine .whole (by rw [taken_eq, List.flatten_cons]) ?_
    rw [position', position, List.length_append, Nat.add_assoc]
  | broken before write after writes_eq taken_eq start short why position' =>
    refine .broken (data :: before) write after ?_ ?_ start short why ?_
    · rw [writes_eq, List.cons_append]
    · rw [taken_eq, List.flatten_cons, List.append_assoc]
    · rw [position', position, List.flatten_cons, List.length_append, Nat.add_assoc]

/-- A run on `w` with this result has given the sink `writes`. -/
def Gives (w : Writer) (writes : List Bytes) (result : EStateM.Result EncodeError Writer Unit) : Prop :=
  ∃ taken stop, Feeds w.sink.fresh writes taken stop (left result).sink.fresh ∧
    (left result).sink.output = w.sink.output ++ taken ∧ Ends w writes taken stop result

theorem gives_bytes_bind (data : Bytes) {writes : List Bytes} {e : Encoder Unit}
    (rest : ∀ m, Gives m writes (e m)) (w : Writer) :
    Gives w (data :: writes) ((bytes data >>= fun _ => e) w) := by
  have pushes := w.sink.pushes_push data
  have output := w.sink.output_push data
  have run := bytes_eq data w
  obtain ⟨start, all_iff⟩ := pushes.prefix_and_all_iff
  cases why : (w.sink.push data).stop.cause? with
  | none =>
    have all := Pushed.cause?_eq_none_iff.1 why
    have whole := all_iff.1 all
    rw [why] at run
    rw [all, whole] at pushes
    rw [whole] at output
    simp only [Gives, bind, EStateM.bind, run]
    obtain ⟨taken, stop, feeds, output', ends⟩ :=
      rest {w with sink := (w.sink.push data).sink, position := w.position + data.length}
    refine ⟨data ++ taken, stop, .next pushes feeds, ?_, ends.behind rfl⟩
    rw [output', output, List.append_assoc]
  | some cause =>
    have stopped : (w.sink.push data).stop ≠ .all := by
      rw [ne_eq, ← Pushed.cause?_eq_none_iff, why]
      nofun
    rw [why] at run
    simp only [Gives, bind, EStateM.bind, run]
    exact ⟨_, _, .stopped pushes stopped, output,
      .broken [] data writes rfl rfl start (mt all_iff.2 stopped) why rfl⟩

theorem gives_forM_bytes (writes : List Bytes) (w : Writer) : Gives w writes (writes.forM bytes w) := by
  induction writes generalizing w with
  | nil => exact ⟨[], .all, .done, (List.append_nil _).symm, .whole rfl rfl⟩
  | cons data rest ih => exact gives_bytes_bind data ih w

/-! ### Encoders as their writes -/

theorem forM_bytes_singleton (data : Bytes) : [data].forM bytes = bytes data := bind_pure_unit

theorem segment_eq_writes {s : Segment} (fits : s.Fits) : segment s = s.writes.forM bytes := by
  cases s with
  | fixed code => exact (forM_bytes_singleton code).symm
  | framed max data =>
    rw [segment, field_eq (fits _ List.mem_cons_self)]
    exact congrArg _ (funext fun _ => (forM_bytes_singleton data).symm)

theorem segments_eq_writes {record : List Segment} (fits : ∀ s ∈ record, s.Fits) :
    segments record = (record.flatMap Segment.writes).forM bytes := by
  induction record with
  | nil => rfl
  | cons first rest ih =>
    obtain ⟨fitsFirst, fitsRest⟩ := List.forall_mem_cons.1 fits
    rw [segments_cons, segment_eq_writes fitsFirst, ih fitsRest, List.flatMap_cons]
    exact List.forM_append.symm

/-- What a run of `e` on `w` comes to that makes `writes`, which are `code` together: the sink takes `taken` of them. -/
structure Sent (e : Encoder Unit) (writes : List Bytes) (code : Bytes) (w : Writer) (taken : Bytes) (stop : Pushed)
    (w' : Writer) : Prop where
  feeds : Feeds w.sink.fresh writes taken stop w'.sink.fresh
  output : w'.sink.output = w.sink.output ++ taken
  front : taken <+: code
  ok_iff : e w = .ok () w' ↔ taken = code
  position : taken = code → w'.position = w.position + code.length
  /-- What is told of the position is right if a word holds where the code would end. -/
  counter : w.position + code.length < UInt64.size → w'.counter.toNat = w'.position
  /-- The run fails for the answer that stopped the last push, and the position counts the writes before. -/
  broken : taken ≠ code → ∃ cause before write after, e w = .error (.io cause) w' ∧ stop.cause? = some cause ∧
    writes = before ++ write :: after ∧ w'.position = w.position + before.flatten.length ∧
      before.flatten.length ≤ taken.length ∧ taken.length < before.flatten.length + write.length

/-- Any sink gets the front of `code` from `e`, one after another of `writes`. -/
structure Sends (e : Encoder Unit) (writes : List Bytes) (code : Bytes) : Prop where
  makes : e = writes.forM bytes
  flatten : writes.flatten = code
  run : ∀ w, ∃ taken stop w', Sent e writes code w taken stop w'

/-- The position never passes the end of the writes. -/
theorem Ends.position_le {w : Writer} {writes : List Bytes} {taken : Bytes} {stop : Pushed}
    {result : EStateM.Result EncodeError Writer Unit} (h : Ends w writes taken stop result) :
    (left result).position ≤ w.position + writes.flatten.length := by
  cases h with
  | whole taken_eq position => exact Nat.le_of_eq (taken_eq ▸ position)
  | broken before write after writes_eq taken_eq start short why position =>
    rw [left, position, writes_eq, List.flatten_append, List.length_append]
    omega

theorem Ends.sent {e : Encoder Unit} {w : Writer} {writes : List Bytes} {taken : Bytes} {stop : Pushed}
    (feeds : Feeds w.sink.fresh writes taken stop (left (e w)).sink.fresh)
    (output : (left (e w)).sink.output = w.sink.output ++ taken) (h : Ends w writes taken stop (e w)) :
    Sent e writes writes.flatten w taken stop (left (e w)) := by
  have counter (inWord : w.position + writes.flatten.length < UInt64.size) :
      (left (e w)).counter.toNat = (left (e w)).position :=
    Writer.toNat_counter (Nat.lt_of_le_of_lt h.position_le inWord)
  cases result : e w with
  | ok _ w' =>
    rw [result] at feeds output h counter
    cases h with
    | whole taken_eq position =>
      subst taken_eq
      exact ⟨feeds, output, List.prefix_refl _, iff_of_true result rfl, fun _ => position, counter,
        fun short => absurd rfl short⟩
  | error error w' =>
    rw [result] at feeds output h counter
    cases h with
    | @broken _ part _ cause before write after writes_eq taken_eq start short why position =>
      have less : part.length < write.length :=
        Nat.lt_of_le_of_ne start.length_le fun same => short (start.eq_of_length same)
      have code : writes.flatten = before.flatten ++ (write ++ after.flatten) := by
        rw [writes_eq, List.flatten_append, List.flatten_cons]
      have length : taken.length = before.flatten.length + part.length := by rw [taken_eq, List.length_append]
      have missing : taken ≠ writes.flatten := by
        intro all
        have lengths := congrArg List.length all
        rw [code, List.length_append, List.length_append] at lengths
        omega
      have failed : e w ≠ .ok () w' := by
        rw [result]
        nofun
      refine ⟨feeds, output, ?_, iff_of_false failed missing, fun all => absurd all missing, counter, fun _ =>
        ⟨cause, before, write, after, result, why, writes_eq, position, by omega, by omega⟩⟩
      rw [code, taken_eq, List.prefix_append_right_inj]
      exact start.trans (List.prefix_append ..)

theorem sends_forM_bytes (writes : List Bytes) : Sends (writes.forM bytes) writes writes.flatten where
  makes := rfl
  flatten := rfl
  run w := by
    obtain ⟨taken, stop, feeds, output, ends⟩ := gives_forM_bytes writes w
    exact ⟨taken, stop, _, ends.sent feeds output⟩

theorem sends_record {e : Encoder Unit} {record : List Segment} {code : Bytes} (same : e = segments record)
    (h : e.toBytes = .ok code) : Sends e (record.flatMap Segment.writes) code := by
  subst same
  obtain ⟨fits, rfl⟩ := (screens_segments record).toBytes_ok_iff.1 h
  rw [segments_eq_writes (Segment.forall_frames_fit_iff.1 fits), ← Segment.flatten_flatMap_writes]
  exact sends_forM_bytes _

/-- The length of all the certificates together is written, and these, as they were put together before. -/
theorem sends_certificates {chain : List Bytes} {code : Bytes} (h : (certificates chain).toBytes = .ok code) :
    Sends (certificates chain) (Segment.framed maxChainLength (chainBody chain)).writes code := by
  obtain ⟨fits, _⟩ := certificates_toBytes_iff.1 h
  have same : certificates chain = segments [.framed maxChainLength (chainBody chain)] := by
    rw [segments_singleton]
    exact certificates_eq (List.forall_mem_map.2 fits.certificates)
  have sends := sends_record same h
  rwa [List.flatMap_singleton] at sends

end Encoder

/-- **Every encoder gives any sink the front of its code, and fails if that is not all.** -/
theorem code_sent :
    (∀ s code, encodeSct s = .ok code →
      (Encoder.sct s).Sends (s.segments.flatMap Segment.writes) code) ∧
    (∀ s code, encodeDigitallySigned s = .ok code →
      (Encoder.digitallySigned s).Sends (s.segments.flatMap Segment.writes) code) ∧
    (∀ l code, encodeLeaf l = .ok code →
      (Encoder.leaf l).Sends (l.segments.flatMap Segment.writes) code) ∧
    (∀ e code, encodeTimestampedEntry e = .ok code →
      (Encoder.timestampedEntry e).Sends (e.segments.flatMap Segment.writes) code) ∧
    (∀ c code, encodeX509Chain c = .ok code →
      (Encoder.x509Chain c).Sends (Segment.framed maxChainLength (chainBody c.certificateChain)).writes code) ∧
    (∀ c code, encodePrecertChain c = .ok code →
      (Encoder.precertChain c).Sends (Segment.framed maxChainLength (chainBody c.precertificateChain)).writes code) :=
  ⟨fun s _ => Encoder.sends_record (Encoder.sct_eq s),
    fun s _ => Encoder.sends_record (Encoder.digitallySigned_eq s),
    fun l _ => Encoder.sends_record (Encoder.leaf_eq l),
    fun e _ => Encoder.sends_record (Encoder.timestampedEntry_eq e),
    fun _ _ => Encoder.sends_certificates,
    fun _ _ => Encoder.sends_certificates⟩

/-- Five bytes are taken before a write of which nothing is: the two tags, and three bytes of the timestamp. -/
theorem code_sent_nothing_taken :
    let l : Leaf := ⟨.v1, 7, .x509 [48, 0]⟩
    let w : Writer := ⟨{replies := [.interrupt, .accept 1, .accept 9, .accept 3, .interrupt, .accept 0]}, 4⟩
    let code : Bytes := [0, 0, 0, 0, 0, 0, 0, 0, 0, 7, 0, 0, 0, 0, 2, 48, 0]
    encodeLeaf l = .ok code ∧
      (Encoder.leaf l).Sends [[0], [0], [0, 0, 0, 0, 0, 0, 0, 7], [0, 0], [0, 0, 2], [48, 0]] code ∧
      ∃ w', Encoder.leaf l w = .error (.io .nothingTaken) w' ∧ w'.sink.output = code.take 5 ∧ w'.position = 6 :=
  ⟨by decide, code_sent.2.2.1 _ _ (by decide), _, rfl, by decide, rfl⟩

end Transparency.Wire
