import Transparency.Proofs.Drawing

/-! How bytes are delivered is not seen.

A source *delivers* a byte string if it hands it out in pieces of any sizes, with interruptions anywhere,
and then has ended. A reader from it and a reader from the byte string itself go through every session
alike (`delivery_unseen`).

One draw takes the same bytes from both and leaves the rest delivered (`Source.Delivers.draw`). What is made
of draws can then see no difference either: such decoders are `Indifferent`. -/
namespace Transparency.Wire

/-- Some bytes or an interruption. -/
def Event.Steady : Event → Prop
  | .data bytes => bytes ≠ []
  | .interrupt => True
  | .withheld _ | .fail _ => False

/-- The source hands out `data`, in whatever pieces, and no more. -/
structure Source.Delivers (s : Source) (data : Bytes) : Prop where
  steady : ∀ event ∈ s.events, event.Steady
  ending : s.ending = .endOfInput
  unread : s.unread = data

namespace Source

/-- To deliver is to offer all, with nothing but the end behind it. -/
theorem delivers_iff {s : Source} {data : Bytes} : s.Delivers data ↔ s.Offers data ⟨[], .endOfInput⟩ := by
  constructor
  · obtain ⟨events, ending⟩ := s
    intro h
    obtain ⟨steady, rfl, rfl⟩ := h
    induction events with
    | nil => exact .nothing _
    | cons event rest ih =>
      obtain ⟨first, steadyRest⟩ := List.forall_mem_cons.1 steady
      cases event with
      | withheld bytes => exact first.elim
      | fail error => exact first.elim
      | interrupt => exact .interrupt (ih steadyRest)
      | data piece => exact .piece piece first (ih steadyRest)
  · intro h
    generalize last : (⟨[], .endOfInput⟩ : Source) = t at h
    induction h with
    | nothing s =>
      subst last
      exact ⟨by simp, rfl, rfl⟩
    | interrupt _ ih =>
      obtain ⟨steady, ending, unread⟩ := ih last
      exact ⟨List.forall_mem_cons.2 ⟨trivial, steady⟩, ending, unread⟩
    | piece piece some _ ih =>
      obtain ⟨steady, ending, rfl⟩ := ih last
      exact ⟨List.forall_mem_cons.2 ⟨some, steady⟩, ending, rfl⟩
    | part taken left some => cases last
    | endless stream offset n => cases last

/-- A draw from a source takes what a draw from its data takes. -/
theorem Delivers.draw {s : Source} {data : Bytes} (h : s.Delivers data) (n : Nat) :
    ∃ left : Source, s.draw n = ⟨data.take n, if n ≤ data.length then .filled else .ended, left⟩ ∧
      left.Delivers (data.drop n) := by
  have offers := delivers_iff.1 h
  by_cases enough : n ≤ data.length
  · obtain ⟨left, draw, -, others⟩ := offers.draw enough
    rw [if_pos enough]
    exact ⟨left, draw, delivers_iff.2 others⟩
  · have short := Nat.lt_of_not_le enough
    rw [if_neg enough, List.take_of_length_le (Nat.le_of_lt short),
      List.drop_of_length_le (Nat.le_of_lt short)]
    exact ⟨_, offers.draw_ended short .done, delivers_iff.2 (.nothing _)⟩

end Source

/-- But for how its bytes are delivered, `r` is `r'`, which has them all. -/
def Reader.Alike (r r' : Reader) : Prop :=
  ∃ data, r.source.Delivers data ∧ r' = {r with source := .ofBytes data}

theorem Reader.Alike.of_delivers {source : Source} {data : Bytes} (h : source.Delivers data) :
    Reader.Alike {source} (.ofBytes data) :=
  ⟨data, h, rfl⟩

theorem Reader.Alike.position {r r' : Reader} (h : r.Alike r') : r.position = r'.position := by
  obtain ⟨data, -, rfl⟩ := h
  rfl

namespace Decoder
variable {α β : Type}

/-- Readers that are alike give the same, and are alike again. -/
class Indifferent (d : Decoder α) : Prop where
  alike : ∀ {r r' : Reader}, r.Alike r' →
    ∃ out s s', d r = leaving out s ∧ d r' = leaving out s' ∧ s.Alike s'

theorem Indifferent.bind {d : Decoder α} {f : α → Decoder β} (first : Indifferent d)
    (second : ∀ value, Indifferent (f value)) : Indifferent (d >>= f) where
  alike := by
    intro r r' h
    obtain ⟨out, s, s', run, run', alike⟩ := first.alike h
    cases out with
    | error error => exact ⟨.error error, s, s', bind_of_error run, bind_of_error run', alike⟩
    | ok value =>
      obtain ⟨out, t, t', next, next', alike⟩ := (second value).alike alike
      exact ⟨out, t, t', (bind_of_ok run).trans next, (bind_of_ok run').trans next', alike⟩

theorem Indifferent.upTo (n : Nat) : Indifferent (upTo n) where
  alike := by
    intro r r' alike
    obtain ⟨data, delivers, rfl⟩ := alike
    obtain ⟨left, draw, delivers⟩ := delivers.draw n
    refine ⟨.ok (data.take n), {r with source := left, position := r.position + (data.take n).length}, _,
      ?_, ?_, data.drop n, delivers, rfl⟩
    · by_cases enough : n ≤ data.length
      · simp only [Decoder.upTo, draw, if_pos enough, leaving]
      · simp only [Decoder.upTo, draw, if_neg enough, leaving]
    · by_cases enough : n ≤ data.length
      · simp only [Decoder.upTo, Source.draw_ofBytes, if_pos enough, leaving]
      · simp only [Decoder.upTo, Source.draw_ofBytes, if_neg enough, leaving]

/-- What is delivered has an end, and one draw comes to it from both. -/
instance : Indifferent toEnd where
  alike := by
    intro r r' alike
    have draws := (Indifferent.upTo (r.unread.length + 1)).alike alike
    obtain ⟨data, delivers, rfl⟩ := alike
    have stops : r.source.Stops := by
      refine Source.stops_of_ending fun stream offset endless => ?_
      rw [delivers.ending] at endless
      cases endless
    have whole : r.unread.length = (Source.ofBytes data).unread.length := by
      rw [Reader.unread, delivers.unread, Source.unread_ofBytes]
    have other : toEnd {r with source := .ofBytes data} =
        upTo (r.unread.length + 1) {r with source := .ofBytes data} := by
      rw [whole]
      exact toEnd_of_stops (Source.stops_of_ending nofun)
    rwa [toEnd_of_stops stops, other]

/-- What is decoded on its own does not come from the source. -/
theorem Indifferent.within (bytes : Bytes) (d : Decoder α) : Indifferent (within bytes d) where
  alike := by
    intro r r' alike
    obtain ⟨data, delivers, rfl⟩ := alike
    cases run : d {Reader.ofBytes bytes with notes := r.notes} with
    | ok value inner =>
      exact ⟨.ok value, {r with notes := inner.notes}, _, by simp only [Decoder.within, run, leaving],
        by simp only [Decoder.within, run, leaving], data, delivers, rfl⟩
    | error error inner =>
      exact ⟨.error error, {r with notes := inner.notes}, _, by simp only [Decoder.within, run, leaving],
        by simp only [Decoder.within, run, leaving], data, delivers, rfl⟩

theorem Indifferent.ofChain (type : EntryType) {d : Decoder α} (h : Indifferent d) :
    Indifferent (ofChain type d) where
  alike := by
    intro r r' alike
    obtain ⟨out, s, s', run, run', alike⟩ := h.alike alike
    obtain ⟨out', same⟩ := ofChain_leaving type d out
    exact ⟨out', s, s', same _ _ run, same _ _ run', alike⟩

/-- One draw makes no difference, and so no number of them does. -/
instance Indifferent.of_drawn {d : Decoder α} [h : Drawn d] : Indifferent d := by
  induction h with
  | pure value => exact ⟨fun h => ⟨.ok value, _, _, rfl, rfl, h⟩⟩
  | throw error => exact ⟨fun h => ⟨.error error, _, _, rfl, rfl, h⟩⟩
  | noteAt n =>
    refine ⟨fun {r r'} alike => ?_⟩
    obtain ⟨data, delivers, rfl⟩ := alike
    exact ⟨.ok (), _, _, rfl, rfl, data, delivers, rfl⟩
  | upTo n => exact .upTo n
  | bind _ _ first second => exact first.bind second
  | within bytes d => exact .within bytes d
  | ofChain type _ h => exact h.ofChain type

instance (step : Step) : Indifferent step.decoder := by
  by_cases atEnd : step = .toEnd
  · subst atEnd
    exact inferInstanceAs (Indifferent toEnd)
  · have drawn := Drawn.of_step atEnd
    infer_instance

theorem Indifferent.outcome {d : Decoder α} [Indifferent d] {r r' : Reader} (h : r.Alike r') :
    d.outcome r = d.outcome r' := by
  obtain ⟨out, s, s', run, run', -⟩ := Indifferent.alike (d := d) h
  rw [outcome_of_leaving run, outcome_of_leaving run']

theorem Indifferent.after {d : Decoder α} [Indifferent d] {r r' : Reader} (h : r.Alike r') :
    (d.after r).Alike (d.after r') := by
  obtain ⟨out, s, s', run, run', alike⟩ := Indifferent.alike (d := d) h
  rwa [after_of_leaving run, after_of_leaving run']

end Decoder

/-! ### Sessions -/

/-- No session tells readers apart that are alike. -/
theorem Reader.Alike.session (steps : List Step) {r r' : Reader} (h : r.Alike r') :
    session steps r = session steps r' := by
  induction steps generalizing r r' with
  | nil => rfl
  | cons step rest ih =>
    have after : (step.decoder.after r).Alike (step.decoder.after r') := Decoder.Indifferent.after h
    have outcome : step.decoder.outcome r = step.decoder.outcome r' := Decoder.Indifferent.outcome h
    simp only [Wire.session, outcome, after.position, ih after]

structure Readers.Alike (r r' : Readers) : Prop where
  leaves : r.leaves.Alike r'.leaves
  chains : r.chains.Alike r'.chains

/-- An entry needs a leaf from one reader and what the leaf says from the other. -/
theorem Readers.Alike.entry {r r' : Readers} (h : r.Alike r') :
    Move.entry.outcome r = Move.entry.outcome r' ∧ (Move.entry.after r).Alike (Move.entry.after r') := by
  have leaves : Decoder.leaf.outcome r.leaves = Decoder.leaf.outcome r'.leaves :=
    Decoder.Indifferent.outcome h.leaves
  cases decoded : Decoder.leaf.outcome r.leaves with
  | error error =>
    simp only [Move.outcome, Move.after, readEntry_of_leaf_error decoded,
      readEntry_of_leaf_error (leaves.symm.trans decoded)]
    exact ⟨trivial, Decoder.Indifferent.after h.leaves, h.chains⟩
  | ok l =>
    have chains : (Decoder.chain l.timestampedEntry.signedEntry).outcome r.chains =
        (Decoder.chain l.timestampedEntry.signedEntry).outcome r'.chains :=
      Decoder.Indifferent.outcome h.chains
    have alike : Readers.Alike ⟨Decoder.leaf.after r.leaves, (Decoder.chain _).after r.chains⟩
        ⟨Decoder.leaf.after r'.leaves, (Decoder.chain l.timestampedEntry.signedEntry).after r'.chains⟩ :=
      ⟨Decoder.Indifferent.after h.leaves, Decoder.Indifferent.after h.chains⟩
    cases followed : (Decoder.chain l.timestampedEntry.signedEntry).outcome r.chains with
    | error error =>
      simp only [Move.outcome, Move.after, readEntry_of_chain_error decoded followed,
        readEntry_of_chain_error (leaves.symm.trans decoded) (chains.symm.trans followed)]
      exact ⟨trivial, alike⟩
    | ok c =>
      simp only [Move.outcome, Move.after, readEntry_of_ok decoded followed,
        readEntry_of_ok (leaves.symm.trans decoded) (chains.symm.trans followed)]
      exact ⟨trivial, alike⟩

theorem Readers.Alike.move (move : Move) {r r' : Readers} (h : r.Alike r') :
    move.outcome r = move.outcome r' ∧ (move.after r).Alike (move.after r') := by
  cases move with
  | leaves step =>
    exact ⟨Decoder.Indifferent.outcome h.leaves, Decoder.Indifferent.after h.leaves, h.chains⟩
  | chains step =>
    exact ⟨Decoder.Indifferent.outcome h.chains, h.leaves, Decoder.Indifferent.after h.chains⟩
  | entry => exact h.entry

theorem Readers.Alike.jointSession (moves : List Move) {r r' : Readers} (h : r.Alike r') :
    jointSession moves r = jointSession moves r' := by
  induction moves generalizing r r' with
  | nil => rfl
  | cons move rest ih =>
    obtain ⟨outcome, after⟩ := h.move move
    simp only [Wire.jointSession, outcome, after.leaves.position, after.chains.position, ih after]

/-- **No session sees how its bytes are delivered**: in pieces of whatever sizes, with interruptions
wherever they fall, each step comes to the same and leaves its readers at the same positions. -/
theorem delivery_unseen {source other : Source} {data more : Bytes} (h : source.Delivers data)
    (h' : other.Delivers more) (steps : List Step) (moves : List Move) :
    session steps {source} = session steps (.ofBytes data) ∧
      jointSession moves ⟨{source}, {source := other}⟩ =
        jointSession moves ⟨.ofBytes data, .ofBytes more⟩ := by
  have alike := Reader.Alike.of_delivers h
  have alikeOther := Reader.Alike.of_delivers h'
  exact ⟨alike.session steps, Readers.Alike.jointSession moves ⟨alike, alikeOther⟩⟩

/-- A leaf and one byte more, and an empty chain, both torn within their numbers. -/
theorem delivery_unseen_torn :
    let data : Bytes := [0, 0, 0, 0, 0, 0, 0, 0, 0, 5, 0, 0, 0, 0, 1, 7, 9]
    let source : Source := ⟨[.interrupt, .data (data.take 6), .interrupt, .interrupt, .data (data.drop 6),
      .interrupt], .endOfInput⟩
    let other : Source := ⟨[.data [0, 0], .interrupt, .data [0]], .endOfInput⟩
    source.Delivers data ∧ other.Delivers [0, 0, 0] ∧
      (session [.leaf, .sct, .toEnd] {source} = session [.leaf, .sct, .toEnd] (.ofBytes data) ∧
        jointSession [.entry, .leaves .toEnd] ⟨{source}, {source := other}⟩ =
          jointSession [.entry, .leaves .toEnd] ⟨.ofBytes data, .ofBytes [0, 0, 0]⟩) := by
  intro data source other
  have delivers : source.Delivers data := ⟨by simp [source, data, Event.Steady], rfl, rfl⟩
  have delivers' : other.Delivers [0, 0, 0] := ⟨by simp [other, Event.Steady], rfl, rfl⟩
  exact ⟨delivers, delivers', delivery_unseen delivers delivers' _ _⟩

end Transparency.Wire
