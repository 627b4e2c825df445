import Transparency.Proofs.Drawing

/-! Where the bytes of a source went.

What a source has handed out, its reader has counted or it is lost: a draw that fails loses what it got, and
nothing else is ever lost. `bytes_accounted` says so of every step of every session, whatever the source does
and whatever the steps come to. So a position never goes back, and on a byte string it says where the reader
is.

One step is looked at first (`Decoder.Drawn.account`, `Step.account`): it counts all that it takes, or it
breaks off in a draw. -/
namespace Transparency.Wire

/-! ### What a source gave -/

namespace Source
variable {s t u : Source} {a b : Bytes}

/-- `s` has handed out these bytes and is now the other source. It may have ended and failed on the way. -/
inductive Gives (s : Source) : Bytes → Source → Prop
  | nothing : Gives s [] s
  | offered {a b : Bytes} {t u : Source} : Gives s a t → t.Offers b u → Gives s (a ++ b) u
  | ended {a : Bytes} {t u : Source} : Gives s a t → t.Ends u → Gives s a u
  | failed {a : Bytes} {t u : Source} {error : IoError} : Gives s a t → t.Fails error u → Gives s a u

theorem Offers.gives (h : s.Offers a t) : s.Gives a t := .offered .nothing h

theorem Gives.trans (first : s.Gives a t) (second : t.Gives b u) : s.Gives (a ++ b) u := by
  induction second with
  | nothing =>
    rw [List.append_nil]
    exact first
  | offered _ offers ih =>
    rw [← List.append_assoc]
    exact .offered ih offers
  | ended _ ends ih => exact .ended ih ends
  | failed _ fails ih => exact .failed ih fails

theorem Ends.length (h : s.Ends t) :
    s.unread.length + t.ending.offset = t.unread.length + s.ending.offset := by
  cases h <;> simp [unread, Event.bytes]

theorem Fails.length {error : IoError} (h : s.Fails error t) :
    s.unread.length + t.ending.offset = t.unread.length + s.ending.offset := by
  cases h <;> simp [unread, Event.bytes]

theorem Gives.length (h : s.Gives a t) :
    s.unread.length + t.ending.offset = t.unread.length + s.ending.offset + a.length := by
  induction h with
  | nothing => rfl
  | offered _ offers ih =>
    have more := offers.length
    rw [List.length_append]
    omega
  | ended _ ends ih =>
    have same := ends.length
    omega
  | failed _ fails ih =>
    have same := fails.length
    omega

/-- How much a source gave can be told from what it was and what it is. -/
theorem Gives.length_unique (h : s.Gives a t) (h' : s.Gives b t) : a.length = b.length := by
  have first := h.length
  have second := h'.length
  omega

theorem draw_gives (s : Source) (n : Nat) : s.Gives (s.draw n).bytes (s.draw n).source := by
  cases s.meets n with
  | filled offers full =>
    obtain ⟨m, draw, takes, -⟩ := offers.draw (Nat.le_of_eq full.symm)
    rw [draw]
    exact takes.gives
  | ended offers short ends =>
    rw [offers.draw_ended short ends]
    exact .ended offers.gives ends
  | failed offers short fails =>
    rw [offers.draw_failed short fails]
    exact .failed offers.gives fails

/-- One byte is there or not: a draw of it that fails has nothing to lose. -/
theorem draw_one_failed {error : IoError} (h : (s.draw 1).stop = .failed error) :
    (s.draw 1).bytes = [] := by
  cases s.meets 1 with
  | filled offers full =>
    obtain ⟨m, draw, -⟩ := offers.draw (Nat.le_of_eq full.symm)
    rw [draw] at h
    cases h
  | ended offers short ends =>
    rw [offers.draw_ended short ends] at h
    cases h
  | failed offers short fails =>
    rw [offers.draw_failed short fails]
    exact List.length_eq_zero_iff.1 (Nat.lt_one_iff.1 short)

/-- Behind what a byte string gave there is the rest of it. -/
theorem Gives.ofBytes {data : Bytes} (h : (ofBytes data).Gives a t) :
    ∃ rest, data = a ++ rest ∧ t = ofBytes rest := by
  induction h with
  | nothing => exact ⟨data, rfl, rfl⟩
  | offered _ offers ih =>
    obtain ⟨_, rfl, rfl⟩ := ih
    obtain ⟨rest, rfl, rfl⟩ := offers.of_ofBytes
    exact ⟨rest, (List.append_assoc ..).symm, rfl⟩
  | ended _ ends ih =>
    obtain ⟨rest, rfl, rfl⟩ := ih
    cases rest with
    | nil =>
      cases ends
      exact ⟨[], rfl, rfl⟩
    | cons byte rest => cases ends
  | failed _ fails ih =>
    obtain ⟨rest, rfl, rfl⟩ := ih
    exact absurd fails not_fails_ofBytes

end Source

/-! ### What a reader did with it -/

/-- `s` is `r` after `bytes`, all of them counted. -/
structure Reader.Counts (r : Reader) (bytes : Bytes) (s : Reader) : Prop where
  source : r.source.Gives bytes s.source
  position : s.position = r.position + bytes.length
  lost : s.lost = r.lost

/-- What a draw adds to the position of its reader. -/
def Draw.counted (d : Draw) : Nat :=
  match d.stop with
  | .failed _ => 0
  | .filled | .ended => d.bytes.length

/-- What a draw loses. -/
def Draw.lost (d : Draw) : Nat :=
  match d.stop with
  | .failed _ => d.bytes.length
  | .filled | .ended => 0

/-- `s` is `r` after `d`, be it that it failed. -/
structure Reader.Draws (r : Reader) (d : Draw) (s : Reader) : Prop where
  source : s.source = d.source
  position : s.position = r.position + d.counted
  lost : s.lost = r.lost + d.lost

/-- After some bytes that `r` counted, a draw failed and left `s`. -/
def Reader.BreaksOff (r : Reader) (error : IoError) (s : Reader) : Prop :=
  ∃ bytes m n, r.Counts bytes m ∧ (m.source.draw n).stop = .failed error ∧ m.Draws (m.source.draw n) s

/-- Of `bytes` that the source gave to `r`, those that `s` has not counted are lost. -/
structure Reader.Spends (r : Reader) (bytes : Bytes) (s : Reader) : Prop where
  source : r.source.Gives bytes s.source
  taken : s.position + s.lost = r.position + r.lost + bytes.length
  position_le : r.position ≤ s.position

/-- The failure of a source is what the error says: as such, or as what made a chain unreadable. -/
def DecodeError.Reports : DecodeError → IoError → Prop
  | .io error, cause => error = cause
  | .corrupt (.chainUnreadable _ message), cause => message = cause.message
  | _, _ => False

namespace Reader
variable {r m s : Reader} {a b : Bytes} {error : IoError}

theorem Counts.refl (r : Reader) : r.Counts [] r := ⟨.nothing, rfl, rfl⟩

theorem Counts.trans (first : r.Counts a m) (second : m.Counts b s) : r.Counts (a ++ b) s where
  source := first.source.trans second.source
  position := by rw [second.position, first.position, List.length_append, Nat.add_assoc]
  lost := second.lost.trans first.lost

theorem Counts.breaksOff (first : r.Counts a m) (second : m.BreaksOff error s) : r.BreaksOff error s := by
  obtain ⟨bytes, m', n, counts, failed, draws⟩ := second
  exact ⟨_, m', n, first.trans counts, failed, draws⟩

/-- A draw that does not fail is counted. -/
theorem Draws.counts {n : Nat} (draws : r.Draws (r.source.draw n) s)
    (fine : ∀ error, (r.source.draw n).stop ≠ .failed error) : r.Counts (r.source.draw n).bytes s := by
  have gives := r.source.draw_gives n
  rw [← draws.source] at gives
  have position := draws.position
  have lost := draws.lost
  revert fine position lost
  unfold Draw.counted Draw.lost
  cases stop : (r.source.draw n).stop with
  | failed error => exact fun fine => absurd rfl (fine error)
  | filled => exact fun _ position lost => ⟨gives, position, lost⟩
  | ended => exact fun _ position lost => ⟨gives, position, lost⟩

theorem Counts.spends (h : r.Counts a s) : r.Spends a s where
  source := h.source
  taken := by
    rw [h.position, h.lost]
    omega
  position_le := by
    rw [h.position]
    exact Nat.le_add_right _ _

theorem Draws.spends {n : Nat} (h : r.Draws (r.source.draw n) s) : r.Spends (r.source.draw n).bytes s where
  source := by
    rw [h.source]
    exact r.source.draw_gives n
  taken := by
    have whole : (r.source.draw n).counted + (r.source.draw n).lost = (r.source.draw n).bytes.length := by
      unfold Draw.counted Draw.lost
      cases (r.source.draw n).stop <;> simp
    rw [h.position, h.lost]
    omega
  position_le := by
    rw [h.position]
    exact Nat.le_add_right _ _

theorem Spends.trans (first : r.Spends a m) (second : m.Spends b s) : r.Spends (a ++ b) s where
  source := first.source.trans second.source
  taken := by
    rw [second.taken, first.taken, List.length_append, Nat.add_assoc]
  position_le := Nat.le_trans first.position_le second.position_le

end Reader

/-! ### What a decoder takes -/

namespace Decoder
variable {α : Type}

theorem upTo_of_failed {r : Reader} {n : Nat} {error : IoError}
    (failed : (r.source.draw n).stop = .failed error) :
    ∃ s, upTo n r = .error (.io error) s ∧ r.Draws (r.source.draw n) s := by
  simp only [upTo, failed]
  exact ⟨_, rfl, rfl, by simp [Draw.counted, failed], by simp [Draw.lost, failed]⟩

theorem upTo_of_fine {r : Reader} {n : Nat} (fine : ∀ error, (r.source.draw n).stop ≠ .failed error) :
    ∃ s, upTo n r = .ok (r.source.draw n).bytes s ∧ r.Draws (r.source.draw n) s := by
  cases stop : (r.source.draw n).stop with
  | failed error => exact absurd stop (fine error)
  | filled =>
    simp only [upTo, stop]
    exact ⟨_, rfl, rfl, by simp [Draw.counted, stop], by simp [Draw.lost, stop]⟩
  | ended =>
    simp only [upTo, stop]
    exact ⟨_, rfl, rfl, by simp [Draw.counted, stop], by simp [Draw.lost, stop]⟩

/-- A chain passes the failure on. -/
theorem ofChain_reports (type : EntryType) {d : Decoder α} {r s : Reader} {error : DecodeError} {cause : IoError}
    (run : d r = .error error s) (reports : error.Reports cause) :
    ∃ error', ofChain type d r = .error error' s ∧ error'.Reports cause := by
  cases error with
  | io error =>
    cases reports
    exact ⟨_, ofChain_of_io run, rfl⟩
  | corrupt corruption => exact ⟨_, by simp only [ofChain, run], reports⟩
  | _ => exact reports.elim

/-- A decoder has counted all that it took, or a draw failed and it says so. -/
theorem Drawn.account {d : Decoder α} (h : Drawn d) (r : Reader) :
    (∃ out bytes s, d r = leaving out s ∧ r.Counts bytes s) ∨
      ∃ error cause s, d r = .error error s ∧ error.Reports cause ∧ r.BreaksOff cause s := by
  induction h generalizing r with
  | pure value => exact .inl ⟨.ok value, [], r, rfl, .refl r⟩
  | throw error => exact .inl ⟨.error error, [], r, rfl, .refl r⟩
  | noteAt n => exact .inl ⟨.ok (), [], _, rfl, .nothing, rfl, rfl⟩
  | upTo n =>
    by_cases failed : ∃ error, (r.source.draw n).stop = .failed error
    · obtain ⟨error, failed⟩ := failed
      obtain ⟨s, run, draws⟩ := upTo_of_failed failed
      exact .inr ⟨_, error, s, run, rfl, [], r, n, .refl r, failed, draws⟩
    · have fine := not_exists.1 failed
      obtain ⟨s, run, draws⟩ := upTo_of_fine fine
      exact .inl ⟨.ok _, _, s, run, draws.counts fine⟩
  | bind _ _ first second =>
    rcases first r with ⟨out, bytes, m, run, counts⟩ | ⟨error, cause, s, run, reports, breaks⟩
    · cases out with
      | error error => exact .inl ⟨.error error, bytes, m, bind_of_error run, counts⟩
      | ok value =>
        rcases second value m with ⟨out, more, s, run', counts'⟩ | ⟨error, cause, s, run', reports, breaks⟩
        · exact .inl ⟨out, _, s, (bind_of_ok run).trans run', counts.trans counts'⟩
        · exact .inr ⟨error, cause, s, (bind_of_ok run).trans run', reports, counts.breaksOff breaks⟩
    · exact .inr ⟨error, cause, s, bind_of_error run, reports, breaks⟩
  | within bytes d =>
    obtain ⟨notes, ⟨value, inner, -, run⟩ | ⟨error, inner, -, run⟩⟩ := within_cases bytes d r
    · exact .inl ⟨.ok value, [], _, run, .nothing, rfl, rfl⟩
    · exact .inl ⟨.error error, [], _, run, .nothing, rfl, rfl⟩
  | @ofChain _ type d _ ih =>
    rcases ih r with ⟨out, bytes, s, run, counts⟩ | ⟨error, cause, s, run, reports, breaks⟩
    · obtain ⟨out', same⟩ := ofChain_leaving type d out
      exact .inl ⟨out', bytes, s, same r s run, counts⟩
    · obtain ⟨error', run', reports'⟩ := ofChain_reports type run reports
      exact .inr ⟨error', cause, s, run', reports', breaks⟩

/-! ### What a draw takes -/

theorem upTo_draws (n : Nat) (r : Reader) : r.Draws (r.source.draw n) ((upTo n).after r) := by
  by_cases failed : ∃ error, (r.source.draw n).stop = .failed error
  · obtain ⟨error, failed⟩ := failed
    obtain ⟨s, run, draws⟩ := upTo_of_failed failed
    rwa [after_of_error run]
  · obtain ⟨s, run, draws⟩ := upTo_of_fine (not_exists.1 failed)
    rwa [after_of_ok run]

/-- Whether a block is long enough is found out after it was drawn. -/
theorem block_after (n : Nat) (r : Reader) : (block n).after r = (upTo n).after r := by
  cases run : upTo n r with
  | error error s => rw [block, after_bind_of_error run, after_of_error run]
  | ok drawn s =>
    rw [block, after_bind_of_ok run, after_of_ok run]
    split <;> rfl

theorem bytes_after (n : Nat) (r : Reader) : (bytes n).after r = (upTo n).after r :=
  (after_map (block n) Subtype.val r).trans (block_after n r)

/-- A number is read byte by byte, so it has nothing to lose. -/
theorem numberOn_lost (width left : Nat) (value : UInt64) (r : Reader) :
    ((numberOn width left value).after r).lost = r.lost := by
  induction left generalizing value r with
  | zero => rfl
  | succ left ih =>
    rw [numberOn]
    by_cases failed : ∃ error, (r.source.draw 1).stop = .failed error
    · obtain ⟨error, failed⟩ := failed
      obtain ⟨s, run, draws⟩ := upTo_of_failed failed
      have none : (r.source.draw 1).lost = 0 := by
        simp only [Draw.lost, failed, Source.draw_one_failed failed, List.length_nil]
      rw [after_bind_of_error run, draws.lost, none, Nat.add_zero]
    · have fine := not_exists.1 failed
      obtain ⟨s, run, draws⟩ := upTo_of_fine fine
      have kept := (draws.counts fine).lost
      rw [after_bind_of_ok run]
      cases (r.source.draw 1).bytes with
      | nil => exact kept
      | cons byte _ => exact (ih _ s).trans kept

theorem number_lost (width : Nat) (r : Reader) : ((number width).after r).lost = r.lost := by
  unfold number
  split
  · rfl
  · exact numberOn_lost width width 0 r

/-- A field loses no more than its data, when the draw of them fails. -/
theorem field_lost (max : UInt64) (r : Reader) :
    ((field max).after r).lost = r.lost ∨ ∃ length m, number (bytesNeeded max) r = .ok length m ∧
      m.Draws (m.source.draw length.toNat) ((field max).after r) := by
  have prefixed := number_lost (bytesNeeded max) r
  cases run : number (bytesNeeded max) r with
  | error error s =>
    rw [after_of_error run] at prefixed
    rw [field_eq, after_bind_of_error run]
    exact .inl prefixed
  | ok length m =>
    rw [after_of_ok run] at prefixed
    rw [field_eq, after_bind_of_ok run]
    split
    · exact .inl prefixed
    · have noted : noteAt (.fieldBegun length.toNat) m =
          .ok () {m with notes := .fieldBegun length.toNat m.position :: m.notes} := rfl
      rw [after_bind_of_ok noted, bytes_after]
      have draws := upTo_draws length.toNat {m with notes := .fieldBegun length.toNat m.position :: m.notes}
      exact .inr ⟨length, m, rfl, draws.source, draws.position, draws.lost⟩

end Decoder

/-! ### Steps -/

/-- How many bytes a step asks for, if it asks only once. -/
def Step.request? (r : Reader) : Step → Option Nat
  | .bytes n | .block n | .upTo n => some n
  | .toEnd => some (r.unread.length + 1)
  | _ => none

/-- What a step does to the count of its reader, `s` being the reader that it leaves. -/
structure Step.Account (step : Step) (r s : Reader) : Prop where
  /-- It is lost only what a draw got that failed, and the step reports that. -/
  counts : (∃ bytes, r.Counts bytes s) ∨ ∃ error cause, step.decoder.outcome r = .error error ∧
    error.Reports cause ∧ r.BreaksOff cause s
  /-- What is asked for at once is counted as a whole or lost as a whole. -/
  at_once : ∀ n, step.request? r = some n → r.Draws (r.source.draw n) s
  /-- What is read byte by byte is counted byte by byte. -/
  number : ∀ width, step = .number width → s.lost = r.lost
  field : ∀ max, step = .field max → s.lost = r.lost ∨ ∃ length m,
    Decoder.number (bytesNeeded max) r = .ok length m ∧ m.Draws (m.source.draw length.toNat) s

theorem Step.account {step : Step} {r : Reader} (stops : step = .toEnd → r.source.Stops) :
    step.Account r (step.decoder.after r) where
  counts := by
    have account (α : Type) (d : Decoder α) (drawn : Decoder.Drawn d) :
        (∃ bytes, r.Counts bytes (d.after r)) ∨ ∃ error cause, d.outcome r = .error error ∧
          error.Reports cause ∧ r.BreaksOff cause (d.after r) := by
      rcases drawn.account r with ⟨out, bytes, s, run, counts⟩ | ⟨error, cause, s, run, reports, breaks⟩
      · rw [Decoder.after_of_leaving run]
        exact .inl ⟨bytes, counts⟩
      · rw [Decoder.after_of_error run, Decoder.outcome_of_error run]
        exact .inr ⟨error, cause, rfl, reports, breaks⟩
    by_cases atEnd : step = .toEnd
    · subst atEnd
      have same := Decoder.toEnd_of_stops (stops rfl)
      simp only [Step.decoder, Decoder.after, Decoder.outcome, same]
      exact account _ _ (.upTo _)
    · exact account _ _ (.of_step atEnd)
  at_once n asked := by
    cases step with
    | bytes n =>
      cases asked
      show r.Draws _ ((Decoder.bytes n).after r)
      rw [Decoder.bytes_after]
      exact Decoder.upTo_draws n r
    | block n =>
      cases asked
      show r.Draws _ ((Decoder.block n).after r)
      rw [Decoder.block_after]
      exact Decoder.upTo_draws n r
    | upTo n =>
      cases asked
      exact Decoder.upTo_draws n r
    | toEnd =>
      cases asked
      have same := Decoder.toEnd_of_stops (stops rfl)
      have draws := Decoder.upTo_draws (r.unread.length + 1) r
      rw [Decoder.after, ← same] at draws
      exact draws
    | _ => cases asked
  number width same := by
    subst same
    exact Decoder.number_lost width r
  field max same := by
    subst same
    exact Decoder.field_lost max r

theorem Reader.BreaksOff.spends {r s : Reader} {error : IoError} (h : r.BreaksOff error s) :
    ∃ bytes, r.Spends bytes s := by
  obtain ⟨bytes, m, n, counts, -, draws⟩ := h
  exact ⟨_, counts.spends.trans draws.spends⟩

theorem Step.Account.spends {step : Step} {r s : Reader} (h : step.Account r s) : ∃ bytes, r.Spends bytes s := by
  rcases h.counts with ⟨bytes, counts⟩ | ⟨error, cause, -, -, breaks⟩
  · exact ⟨bytes, counts.spends⟩
  · exact breaks.spends

/-- A byte string does not fail, so all that is taken of it is counted. -/
theorem Step.Account.of_ofBytes {step : Step} {r s : Reader} (h : step.Account r s) {data : Bytes}
    (source : r.source = .ofBytes data) : ∃ bytes, r.Counts bytes s := by
  rcases h.counts with counts | ⟨error, cause, -, -, bytes, m, n, counts, failed, -⟩
  · exact counts
  · have gives := counts.source
    rw [source] at gives
    obtain ⟨rest, -, left⟩ := gives.ofBytes
    rw [left, Source.draw_ofBytes] at failed
    simp only at failed
    split at failed <;> cases failed

/-! ### Sessions -/

/-- The readers before, between and after the steps of a session. -/
def trail : List Step → Reader → List Reader
  | [], r => [r]
  | step :: rest, r => r :: trail rest (step.decoder.after r)

/-- Whenever the session reads to the end, there is one or a failure. -/
def Stopping : List Step → Reader → Prop
  | [], _ => True
  | step :: rest, r => (step = .toEnd → r.source.Stops) ∧ Stopping rest (step.decoder.after r)

/-- What the source gave, `r` has counted or it is lost. -/
structure Reader.AccountsFor (r : Reader) (source : Source) : Prop where
  given : ∃ bytes, source.Gives bytes r.source
  sum : ∀ bytes, source.Gives bytes r.source → bytes.length = r.position + r.lost
  /-- What is told of the position is right if a word holds how much was given. -/
  counter : ∀ bytes, source.Gives bytes r.source → bytes.length < UInt64.size → r.counter.toNat = r.position

/-- `r` stands in `data` where its position says. -/
structure Reader.StandsIn (r : Reader) (data : Bytes) : Prop where
  whole : r.position + r.unread.length = data.length
  rest : r.unread = data.drop r.position

theorem trail_spends {steps : List Step} {r : Reader} (stopping : Stopping steps r) :
    ∀ s ∈ trail steps r, ∃ bytes, r.Spends bytes s := by
  induction steps generalizing r with
  | nil =>
    intro s mem
    obtain rfl := List.mem_singleton.1 mem
    exact ⟨[], (Reader.Counts.refl s).spends⟩
  | cons step rest ih =>
    obtain ⟨stops, others⟩ := stopping
    intro s mem
    rcases List.mem_cons.1 mem with rfl | mem
    · exact ⟨[], (Reader.Counts.refl s).spends⟩
    · obtain ⟨first, spends⟩ := (Step.account stops).spends
      obtain ⟨more, spends'⟩ := ih others s mem
      exact ⟨_, spends.trans spends'⟩

theorem trail_ordered {steps : List Step} {r : Reader} (stopping : Stopping steps r) :
    (trail steps r).Pairwise fun s t => s.position ≤ t.position := by
  induction steps generalizing r with
  | nil => exact List.pairwise_singleton _ _
  | cons step rest ih =>
    obtain ⟨stops, others⟩ := stopping
    refine List.pairwise_cons.2 ⟨fun s mem => ?_, ih others⟩
    obtain ⟨first, spends⟩ := (Step.account stops).spends
    obtain ⟨more, spends'⟩ := trail_spends others s mem
    exact (spends.trans spends').position_le

theorem trail_ofBytes {steps : List Step} {r : Reader} {data : Bytes} (source : r.source = .ofBytes data) :
    ∀ s ∈ trail steps r, ∃ bytes, r.Counts bytes s := by
  induction steps generalizing r data with
  | nil =>
    intro s mem
    obtain rfl := List.mem_singleton.1 mem
    exact ⟨[], .refl s⟩
  | cons step rest ih =>
    intro s mem
    rcases List.mem_cons.1 mem with rfl | mem
    · exact ⟨[], .refl s⟩
    · have stops : r.source.Stops := by
        rw [source]
        exact Source.stops_of_ending nofun
      have account : step.Account r (step.decoder.after r) := Step.account fun _ => stops
      obtain ⟨first, counts⟩ := account.of_ofBytes source
      have gives := counts.source
      rw [source] at gives
      obtain ⟨left, -, source'⟩ := gives.ofBytes
      obtain ⟨more, counts'⟩ := ih source' s mem
      exact ⟨_, counts.trans counts'⟩

theorem Reader.Counts.standsIn {data bytes : Bytes} {s : Reader} (h : (Reader.ofBytes data).Counts bytes s) :
    s.StandsIn data := by
  obtain ⟨rest, rfl, source⟩ := h.source.ofBytes
  have position : s.position = bytes.length := h.position.trans (Nat.zero_add _)
  have unread : s.unread = rest := by rw [Reader.unread, source, Source.unread_ofBytes]
  constructor
  · rw [position, unread, List.length_append]
  · rw [position, unread, List.drop_left]

/-- The two readers of an entry each take a step of their own, the second only after a leaf. -/
theorem readEntry_steps (leaves chains : Reader) :
    (readEntry leaves chains).leafReader = Step.leaf.decoder.after leaves ∧
      ((readEntry leaves chains).chainReader = chains ∨
        ∃ step : Step, step ≠ .toEnd ∧ (readEntry leaves chains).chainReader = step.decoder.after chains) := by
  have chain_after (entry : SignedEntry) :
      ∃ step : Step, step ≠ .toEnd ∧ (Decoder.chain entry).after chains = step.decoder.after chains := by
    cases entry with
    | x509 certificate =>
      exact ⟨.x509Chain certificate, nofun, Decoder.after_map (Decoder.x509Chain certificate) Chain.x509 chains⟩
    | precert p =>
      exact ⟨.precertChain p, nofun, Decoder.after_map (Decoder.precertChain p) Chain.precert chains⟩
  cases decoded : Decoder.leaf.outcome leaves with
  | error error =>
    rw [readEntry_of_leaf_error decoded]
    exact ⟨rfl, .inl rfl⟩
  | ok l =>
    obtain ⟨step, known, same⟩ := chain_after l.timestampedEntry.signedEntry
    cases followed : (Decoder.chain l.timestampedEntry.signedEntry).outcome chains with
    | error error =>
      rw [readEntry_of_chain_error decoded followed]
      exact ⟨rfl, .inr ⟨step, known, same⟩⟩
    | ok c =>
      rw [readEntry_of_ok decoded followed]
      exact ⟨rfl, .inr ⟨step, known, same⟩⟩

/-- **What a source gave, its reader has counted or lost**, at every point of a session. The position never
goes back, and in a byte string the reader is where its position says. A step loses nothing but the draw that
fails it. An entry is a step of each of its two readers. -/
theorem bytes_accounted :
    (∀ (source : Source) (steps : List Step), Stopping steps {source} →
      (∀ r ∈ trail steps {source}, r.AccountsFor source) ∧
        (trail steps {source}).Pairwise fun r s => r.position ≤ s.position) ∧
    (∀ (data : Bytes) (steps : List Step), ∀ r ∈ trail steps (.ofBytes data), r.StandsIn data) ∧
    (∀ (step : Step) (r : Reader), (step = .toEnd → r.source.Stops) →
      step.Account r (step.decoder.after r)) ∧
    ∀ leaves chains : Reader,
      (readEntry leaves chains).leafReader = Step.leaf.decoder.after leaves ∧
        ((readEntry leaves chains).chainReader = chains ∨
          ∃ step : Step, step ≠ .toEnd ∧
            (readEntry leaves chains).chainReader = step.decoder.after chains) := by
  refine ⟨fun source steps stopping => ⟨fun r mem => ?_, trail_ordered stopping⟩, fun data steps r mem => ?_,
    fun step r => Step.account, readEntry_steps⟩
  · obtain ⟨bytes, spends⟩ := trail_spends stopping r mem
    have taken : r.position + r.lost = bytes.length := spends.taken.trans (Nat.zero_add _)
    have sum (given : Bytes) (gives : source.Gives given r.source) : given.length = r.position + r.lost := by
      rw [taken]
      exact gives.length_unique spends.source
    refine ⟨⟨bytes, spends.source⟩, sum, fun given gives inWord => ?_⟩
    rw [sum given gives] at inWord
    exact Reader.toNat_counter (Nat.lt_of_le_of_lt (Nat.le_add_right _ _) inWord)
  · obtain ⟨bytes, counts⟩ := trail_ofBytes rfl r mem
    exact counts.standsIn

/-- Five bytes are asked for where the fourth request fails: three are lost, and the next one is there. -/
theorem bytes_accounted_three_lost :
    let reset : IoError := ⟨.connectionReset, "connection reset"⟩
    let source : Source := ⟨[.data [4, 3], .interrupt, .data [0], .fail reset, .data [5]], .endOfInput⟩
    let steps : List Step := [.bytes 5, .number 1, .toEnd]
    Stopping steps {source} ∧ (∀ r ∈ trail steps {source}, r.AccountsFor source) ∧
      (trail steps {source}).map (fun r => (r.position, r.lost)) = [(0, 0), (0, 3), (1, 3), (1, 3)] ∧
      source.Stops ∧ Step.toEnd.Account {source} (Decoder.toEnd.after {source}) := by
  intro reset source steps
  have stops : source.Stops := Source.stops_of_ending nofun
  have stopping : Stopping steps {source} := by
    refine ⟨nofun, nofun, fun _ => Source.stops_of_ending fun stream offset endless => ?_, trivial⟩
    cases endless
  exact ⟨stopping, (bytes_accounted.1 source steps stopping).1, rfl, stops,
    bytes_accounted.2.2.1 .toEnd {source} fun _ => stops⟩

end Transparency.Wire
