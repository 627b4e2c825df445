import Transparency.Proofs.Segments

/-! Encoders that write to memory.

Memory takes everything, so an encoder either `Emits` its code there or `Refuses` its value, whatever was
written before. A record is emitted as the format lays it out if all its frames fit, and refused for the first
that does not: its encoder `Screens` them. -/
namespace Transparency.Wire

/-- The sink takes all of every offer. -/
structure Writer.InMemory (w : Writer) : Prop where
  replies : w.sink.replies = []
  chunk : w.sink.chunk = none
  room : w.sink.room = none

theorem Writer.inMemory_default : Writer.InMemory {} := ⟨rfl, rfl, rfl⟩

/-- `w'` is `w` with `code` written behind what was there. -/
structure Writer.Gains (w : Writer) (code : Bytes) (w' : Writer) : Prop where
  inMemory : w'.InMemory
  output : w'.sink.output = w.sink.output ++ code
  position : w'.position = w.position + code.length

theorem Writer.Gains.trans {w w' w'' : Writer} {a b : Bytes} (first : w.Gains a w')
    (second : w'.Gains b w'') : w.Gains (a ++ b) w'' where
  inMemory := second.inMemory
  output := by rw [second.output, first.output, List.append_assoc]
  position := by rw [second.position, first.position, List.length_append, Nat.add_assoc]

namespace Encoder

def Emits (e : Encoder Unit) (code : Bytes) : Prop :=
  ∀ w : Writer, w.InMemory → ∃ w', e w = .ok () w' ∧ w.Gains code w'

def Refuses (e : Encoder Unit) (error : EncodeError) : Prop :=
  ∀ w : Writer, w.InMemory → ∃ w', e w = .error error w'

theorem Emits.toBytes {e : Encoder Unit} {code : Bytes} (h : Emits e code) : e.toBytes = .ok code := by
  obtain ⟨w, run, gains⟩ := h {} Writer.inMemory_default
  rw [Encoder.toBytes, run]
  show Except.ok w.sink.output = .ok code
  rw [gains.output]
  rfl

theorem Refuses.toBytes {e : Encoder Unit} {error : EncodeError} (h : Refuses e error) :
    e.toBytes = .error error := by
  obtain ⟨w, run⟩ := h {} Writer.inMemory_default
  rw [Encoder.toBytes, run]

theorem exists_ok_of_toBytes {e : Encoder Unit} {code : Bytes} (written : e.toBytes = .ok code) :
    ∃ w, e {} = .ok () w := by
  unfold Encoder.toBytes at written
  split at written
  next w run => exact ⟨w, run⟩
  next => cases written

/-! ### Sequences -/

theorem emits_pure : Emits (pure ()) [] :=
  fun w h => ⟨w, rfl, h, (List.append_nil _).symm, rfl⟩

theorem Emits.bind {a b : Encoder Unit} {code code' : Bytes} (first : Emits a code)
    (second : Emits b code') : Emits (a >>= fun _ => b) (code ++ code') := by
  intro w h
  obtain ⟨w', run, gains⟩ := first w h
  obtain ⟨w'', run', gains'⟩ := second w' gains.inMemory
  refine ⟨w'', ?_, gains.trans gains'⟩
  simp only [Bind.bind, EStateM.bind, run, run']

theorem Refuses.bind {a b : Encoder Unit} {error : EncodeError} (first : Refuses a error) :
    Refuses (a >>= fun _ => b) error := by
  intro w h
  obtain ⟨w', run⟩ := first w h
  refine ⟨w', ?_⟩
  simp only [Bind.bind, EStateM.bind, run]

theorem Emits.bind_refuses {a b : Encoder Unit} {code : Bytes} {error : EncodeError}
    (first : Emits a code) (second : Refuses b error) : Refuses (a >>= fun _ => b) error := by
  intro w h
  obtain ⟨w', run, gains⟩ := first w h
  obtain ⟨w'', run'⟩ := second w' gains.inMemory
  refine ⟨w'', ?_⟩
  simp only [Bind.bind, EStateM.bind, run, run']

theorem emits_bytes (data : Bytes) : Emits (bytes data) data := by
  intro w h
  have all : w.sink.push data = ⟨data, .all, {w.sink with pieces := data :: w.sink.pieces}⟩ := by
    simp [Sink.push, Sink.pushOn, Sink.pushSteady, Sink.fit, h.replies, h.chunk, h.room]
  refine ⟨⟨{w.sink with pieces := data :: w.sink.pieces}, w.position + data.length⟩, ?_,
    ⟨h.replies, h.chunk, h.room⟩, ?_, rfl⟩
  · simp only [bytes, all]
  · simp [Sink.output]

/-! ### Records -/

/-- If all the frames fit, `e` emits `code`; otherwise it refuses the first that does not. -/
structure Screens (e : Encoder Unit) (frames : List Frame) (code : Bytes) : Prop where
  emits : (∀ f ∈ frames, f.Fits) → Emits e code
  refuses : ∀ f, Frame.unfit? frames = some f → Refuses e (.fieldTooLong f.length f.max)

theorem Emits.screens {e : Encoder Unit} {code : Bytes} (h : Emits e code) : Screens e [] code :=
  ⟨fun _ => h, fun _ none => nomatch none⟩

theorem Screens.bind {a b : Encoder Unit} {frames frames' : List Frame} {code code' : Bytes}
    (first : Screens a frames code) (second : Screens b frames' code') :
    Screens (a >>= fun _ => b) (frames ++ frames') (code ++ code') where
  emits fits := by
    obtain ⟨fitsFirst, fitsSecond⟩ := List.forall_mem_append.1 fits
    exact (first.emits fitsFirst).bind (second.emits fitsSecond)
  refuses f found := by
    rw [Frame.unfit?_append] at found
    cases unfit : Frame.unfit? frames with
    | some f' =>
      rw [unfit] at found
      cases found
      exact (first.refuses f unfit).bind
    | none =>
      rw [unfit] at found
      exact (first.emits (Frame.unfit?_eq_none_iff.1 unfit)).bind_refuses (second.refuses f found)

section
variable {e : Encoder Unit} {frames : List Frame} {code : Bytes}

theorem Screens.toBytes_ok_iff (h : Screens e frames code) {written : Bytes} :
    e.toBytes = .ok written ↔ (∀ f ∈ frames, f.Fits) ∧ written = code := by
  cases unfit : Frame.unfit? frames with
  | none =>
    have fits := Frame.unfit?_eq_none_iff.1 unfit
    rw [(h.emits fits).toBytes, Except.ok.injEq, eq_comm]
    exact (and_iff_right fits).symm
  | some f =>
    rw [(h.refuses f unfit).toBytes, ← Frame.unfit?_eq_none_iff, unfit]
    exact ⟨nofun, fun parts => nomatch parts.1⟩

theorem Screens.toBytes_error_iff (h : Screens e frames code) {error : EncodeError} :
    e.toBytes = .error error ↔
      ∃ f, Frame.unfit? frames = some f ∧ error = .fieldTooLong f.length f.max := by
  cases unfit : Frame.unfit? frames with
  | none =>
    rw [(h.emits (Frame.unfit?_eq_none_iff.1 unfit)).toBytes]
    exact ⟨nofun, fun parts => nomatch parts⟩
  | some f =>
    rw [(h.refuses f unfit).toBytes, Except.error.injEq, eq_comm]
    constructor
    · exact fun same => ⟨f, rfl, same⟩
    · intro parts
      obtain ⟨f', same, rfl⟩ := parts
      cases same
      rfl

end

theorem screens_field (max : UInt64) (data : Bytes) :
    Screens (field data max) [.ofData max data] (framed max data) where
  emits fits := by
    rw [field_eq (fits _ List.mem_cons_self)]
    exact (emits_bytes _).bind (emits_bytes data)
  refuses f found := by
    obtain rfl := List.mem_singleton.1 (List.mem_of_find?_eq_some found)
    have unfit : ¬ (Frame.ofData max data).Fits := by simpa using List.find?_some found
    exact fun w _ => ⟨w, field_of_tooLong (Nat.lt_of_not_le unfit) w⟩

theorem screens_segment (s : Segment) : Screens (segment s) s.frames s.code := by
  cases s with
  | fixed code => exact (emits_bytes code).screens
  | framed max data => exact screens_field max data

theorem screens_segments (s : List Segment) :
    Screens (segments s) (s.flatMap Segment.frames) (s.flatMap Segment.code) := by
  induction s with
  | nil => exact emits_pure.screens
  | cons first rest ih => exact (screens_segment first).bind ih

theorem screens_digitallySigned (s : DigitallySigned) : Screens (digitallySigned s) s.frames s.layout := by
  rw [digitallySigned_eq, ← s.code_segments]
  exact screens_segments _

theorem screens_sct (s : Sct) : Screens (sct s) s.frames s.layout := by
  rw [sct_eq, ← s.code_segments]
  exact screens_segments _

theorem screens_timestampedEntry (e : TimestampedEntry) :
    Screens (timestampedEntry e) e.signedEntry.frames e.layout := by
  rw [timestampedEntry_eq, ← e.code_segments, ← e.signedEntry.frames_segments]
  exact screens_segments _

theorem screens_leaf (l : Leaf) : Screens (leaf l) l.timestampedEntry.signedEntry.frames l.layout := by
  rw [leaf_eq, ← l.code_segments, ← l.timestampedEntry.signedEntry.frames_segments]
  exact screens_segments _

theorem emits_digitallySigned {s : DigitallySigned} (h : s.Fits) : Emits (digitallySigned s) s.layout :=
  (screens_digitallySigned s).emits (s.fits_iff.1 h)

theorem emits_sct {s : Sct} (h : s.Fits) : Emits (sct s) s.layout := (screens_sct s).emits (s.fits_iff.1 h)

theorem emits_timestampedEntry {e : TimestampedEntry} (h : e.Fits) :
    Emits (timestampedEntry e) e.layout :=
  (screens_timestampedEntry e).emits (e.signedEntry.fits_iff.1 h)

theorem emits_leaf {l : Leaf} (h : l.Fits) : Emits (leaf l) l.layout :=
  (screens_leaf l).emits (l.timestampedEntry.signedEntry.fits_iff.1 h)

theorem leaf_toBytes_iff {l : Leaf} {code : Bytes} :
    (leaf l).toBytes = .ok code ↔ l.Fits ∧ code = l.layout :=
  (screens_leaf l).toBytes_ok_iff.trans (and_congr_left fun _ => l.timestampedEntry.signedEntry.fits_iff.symm)

/-! ### Chains -/

theorem screens_fields (max : UInt64) (items : List Bytes) :
    Screens (fields max items) (items.map (.ofData max)) (items.flatMap (framed max)) := by
  induction items with
  | nil => exact emits_pure.screens
  | cons first rest ih => exact (screens_field max first).bind ih

/-- If no certificate is too long, only the length of all of them together is left to judge. -/
theorem certificates_eq {chain : List Bytes} (fits : ∀ f ∈ chain.map (Frame.ofData maxCertificateLength), f.Fits) :
    certificates chain = field (chainBody chain) maxChainLength := by
  have body := ((screens_fields _ chain).emits fits).toBytes
  funext w
  rw [certificates, body]
  rfl

theorem certificates_of_tooLong {chain : List Bytes} {f : Frame}
    (unfit : Frame.unfit? (chain.map (.ofData maxCertificateLength)) = some f) (w : Writer) :
    certificates chain w = .error (.fieldTooLong f.length f.max) w := by
  rw [certificates, ((screens_fields _ chain).refuses f unfit).toBytes]

/-- The certificates are judged before all of them together are. -/
theorem screens_certificates (chain : List Bytes) :
    Screens (certificates chain) (chainFrames chain) (chainLayout chain) where
  emits fits := by
    obtain ⟨each, whole⟩ := List.forall_mem_append.1 fits
    rw [certificates_eq each]
    exact (screens_field _ _).emits whole
  refuses f found := by
    rw [chainFrames, Frame.unfit?_append] at found
    cases unfit : Frame.unfit? (chain.map (.ofData maxCertificateLength)) with
    | some f' =>
      rw [unfit] at found
      cases found
      exact fun w _ => ⟨w, certificates_of_tooLong unfit w⟩
    | none =>
      rw [unfit] at found
      rw [certificates_eq (Frame.unfit?_eq_none_iff.1 unfit)]
      exact (screens_field _ _).refuses f found

theorem certificates_toBytes_iff {chain : List Bytes} {code : Bytes} :
    (certificates chain).toBytes = .ok code ↔ ChainFits chain ∧ code = chainLayout chain :=
  (screens_certificates chain).toBytes_ok_iff.trans (and_congr_left fun _ => (chainFits_iff chain).symm)

end Encoder

end Transparency.Wire
