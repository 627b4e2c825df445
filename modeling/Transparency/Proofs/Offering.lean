import Transparency.Wire.Source

/-! What a source has to offer.

`s.Offers bytes t` says that `s`, asked for as much, hands out `bytes` in whatever pieces, with
interruptions anywhere, and is then `t`. `t.Ends u` says that its next answer is the end of the input, and
`t.Fails error u` that it is a failure.

Every source meets a request for `n` bytes in one of three ways: it offers them all, or it offers fewer and
ends, or it offers fewer and fails (`Source.meets`). A draw then takes exactly what is offered and stops for
that reason (`Offers.draw`, `Offers.draw_ended`, `Offers.draw_failed`). -/
namespace Transparency.Wire

/-- How much of its endless stream is gone. -/
def Ending.offset : Ending → Nat
  | .endless _ offset => offset
  | .endOfInput | .failing _ => 0

namespace Source

inductive Offers : Source → Bytes → Source → Prop
  | nothing (s : Source) : Offers s [] s
  | interrupt {rest : List Event} {ending : Ending} {bytes : Bytes} {t : Source} :
      Offers ⟨rest, ending⟩ bytes t → Offers ⟨.interrupt :: rest, ending⟩ bytes t
  | piece {rest : List Event} {ending : Ending} {bytes : Bytes} {t : Source} (piece : Bytes)
      (some : piece ≠ []) : Offers ⟨rest, ending⟩ bytes t →
        Offers ⟨.data piece :: rest, ending⟩ (piece ++ bytes) t
  /-- A piece of which something stays. -/
  | part {rest : List Event} {ending : Ending} (taken left : Bytes) (some : left ≠ []) :
      Offers ⟨.data (taken ++ left) :: rest, ending⟩ taken ⟨.data left :: rest, ending⟩
  | endless (stream : Nat → UInt8) (offset n : Nat) :
      Offers ⟨[], .endless stream offset⟩ ((List.range n).map fun i => stream (offset + i))
        ⟨[], .endless stream (offset + n)⟩

/-- The next answer of the source has no bytes. -/
inductive Ends : Source → Source → Prop
  | done : Ends ⟨[], .endOfInput⟩ ⟨[], .endOfInput⟩
  | empty {rest : List Event} {ending : Ending} : Ends ⟨.data [] :: rest, ending⟩ ⟨rest, ending⟩
  | withheld {bytes : Bytes} {rest : List Event} {ending : Ending} :
      Ends ⟨.withheld bytes :: rest, ending⟩ ⟨.withheld bytes :: rest, ending⟩

/-- The next answer of the source is a failure. -/
inductive Fails : Source → IoError → Source → Prop
  | always {error : IoError} : Fails ⟨[], .failing error⟩ error ⟨[], .failing error⟩
  | once {error : IoError} {rest : List Event} {ending : Ending} :
      Fails ⟨.fail error :: rest, ending⟩ error ⟨rest, ending⟩

/-! ### Offers behind one another -/

theorem range_map_add (stream : Nat → UInt8) (offset n m : Nat) :
    (List.range (n + m)).map (fun i => stream (offset + i)) =
      (List.range n).map (fun i => stream (offset + i)) ++
        (List.range m).map fun i => stream (offset + n + i) := by
  simp [List.range_add, Nat.add_assoc]

theorem Offers.trans {s t u : Source} {a b : Bytes} (first : s.Offers a t) (second : t.Offers b u) :
    s.Offers (a ++ b) u := by
  induction first with
  | nothing s => exact second
  | interrupt _ ih => exact .interrupt (ih second)
  | piece piece some _ ih =>
    rw [List.append_assoc]
    exact .piece piece some (ih second)
  | @part rest ending taken left some =>
    -- What comes next begins with what was left of the piece.
    cases second with
    | nothing =>
      rw [List.append_nil]
      exact .part taken left some
    | piece _ _ others =>
      have whole : taken ++ left ≠ [] := fun empty => some (List.append_eq_nil_iff.1 empty).2
      rw [← List.append_assoc]
      exact .piece _ whole others
    | part _ left more =>
      rw [← List.append_assoc]
      exact .part (taken ++ b) left more
  | endless stream offset n =>
    cases second with
    | nothing =>
      rw [List.append_nil]
      exact .endless stream offset n
    | endless _ _ m =>
      rw [← range_map_add, Nat.add_assoc]
      exact .endless stream offset (n + m)

/-! ### Draws -/

/-- A draw of what is offered, or of less. -/
theorem Offers.drawOn {s t : Source} {bytes : Bytes} (h : s.Offers bytes t) {n : Nat}
    (enough : n ≤ bytes.length) (done : Bytes) :
    ∃ m, Source.drawOn s.ending n done s.events = ⟨done.reverse ++ bytes.take n, .filled, m⟩ ∧
      s.Offers (bytes.take n) m ∧ m.Offers (bytes.drop n) t := by
  induction h generalizing n done with
  | nothing s =>
    obtain rfl := Nat.le_zero.1 enough
    exact ⟨s, by simp [drawOn_zero], .nothing s, .nothing s⟩
  | @interrupt rest ending bytes t others ih =>
    by_cases zero : n = 0
    · subst zero
      exact ⟨⟨.interrupt :: rest, ending⟩, by simp [drawOn_zero], .nothing _, .interrupt others⟩
    obtain ⟨m, run, takes, leaves⟩ := ih enough done
    exact ⟨m, (drawOn_interrupt zero ending done rest).trans run, .interrupt takes, leaves⟩
  | @piece rest ending bytes t piece some others ih =>
    by_cases zero : n = 0
    · subst zero
      exact ⟨⟨.data piece :: rest, ending⟩, by simp [drawOn_zero], .nothing _, .piece piece some others⟩
    rw [List.length_append] at enough
    by_cases fits : piece.length ≤ n
    · obtain ⟨m, run, takes, leaves⟩ := @ih (n - piece.length) (by omega) (piece.reverseAux done)
      rw [List.take_append, List.take_of_length_le fits, List.drop_append, List.drop_of_length_le fits,
        List.nil_append]
      refine ⟨m, ?_, .piece piece some takes, leaves⟩
      rw [drawOn_data_all some fits, run, List.reverseAux_eq, List.reverse_append, List.reverse_reverse,
        List.append_assoc]
    · have long := Nat.lt_of_not_le fits
      have left : piece.drop n ≠ [] := fun empty => fits (List.drop_eq_nil_iff.1 empty)
      have split := List.take_append_drop n piece
      rw [List.take_append_of_le_length (Nat.le_of_lt long),
        List.drop_append_of_le_length (Nat.le_of_lt long)]
      refine ⟨⟨.data (piece.drop n) :: rest, ending⟩, drawOn_data_part zero long ending done rest, ?_,
        .piece _ left others⟩
      have part := @Offers.part rest ending (piece.take n) (piece.drop n) left
      rwa [split] at part
  | @part rest ending taken left some =>
    by_cases zero : n = 0
    · subst zero
      exact ⟨⟨.data (taken ++ left) :: rest, ending⟩, by simp [drawOn_zero], .nothing _,
        .part taken left some⟩
    have long : n < (taken ++ left).length := by
      rw [List.length_append]
      exact Nat.lt_of_le_of_lt enough (Nat.lt_add_of_pos_right (List.length_pos_iff.2 some))
    have split : taken.take n ++ (taken.drop n ++ left) = taken ++ left := by
      rw [← List.append_assoc, List.take_append_drop]
    have rest_ne : taken.drop n ++ left ≠ [] := fun empty => some (List.append_eq_nil_iff.1 empty).2
    refine ⟨⟨.data (taken.drop n ++ left) :: rest, ending⟩, ?_, ?_, .part _ left some⟩
    · rw [drawOn_data_part zero long, List.take_append_of_le_length enough,
        List.drop_append_of_le_length enough]
    · have part := @Offers.part rest ending (taken.take n) (taken.drop n ++ left) rest_ne
      rwa [split] at part
  | endless stream offset count =>
    rw [List.length_map, List.length_range] at enough
    obtain ⟨more, rfl⟩ := Nat.exists_eq_add_of_le enough
    have length : ((List.range n).map fun i => stream (offset + i)).length = n := by simp
    refine ⟨⟨[], .endless stream (offset + n)⟩, ?_, ?_, ?_⟩
    · by_cases zero : n = 0
      · subst zero
        simp [drawOn_zero]
      · rw [Source.drawOn, if_neg zero, range_map_add, List.take_left' length]
    · rw [range_map_add, List.take_left' length]
      exact .endless stream offset n
    · rw [range_map_add, List.drop_left' length, ← Nat.add_assoc]
      exact .endless stream (offset + n) more

/-- A draw of more than is offered goes on behind it. -/
theorem Offers.drawOn_short {s t : Source} {bytes : Bytes} (h : s.Offers bytes t) {n : Nat}
    (short : bytes.length < n) (done : Bytes) :
    Source.drawOn s.ending n done s.events =
      Source.drawOn t.ending (n - bytes.length) (bytes.reverseAux done) t.events := by
  induction h generalizing n done with
  | nothing s => rfl
  | @interrupt rest ending bytes t _ ih =>
    exact (drawOn_interrupt (Nat.ne_of_gt (Nat.zero_lt_of_lt short)) ending done rest).trans (ih short done)
  | @piece rest ending bytes t piece some _ ih =>
    rw [List.length_append] at short ⊢
    have others := @ih (n - piece.length) (by omega) (piece.reverseAux done)
    rw [drawOn_data_all some (by omega), others, Nat.sub_sub]
    simp [List.reverseAux_eq]
  | @part rest ending taken left some =>
    have more : n ≠ 0 := Nat.ne_of_gt (Nat.zero_lt_of_lt short)
    have rest_ne : taken ++ left ≠ [] := fun empty => some (List.append_eq_nil_iff.1 empty).2
    by_cases fits : (taken ++ left).length ≤ n
    · rw [drawOn_data_all rest_ne fits]
      rw [List.length_append] at fits ⊢
      rw [drawOn_data_all some (by omega), Nat.sub_sub]
      simp [List.reverseAux_eq]
    · have long := Nat.lt_of_not_le fits
      have takes : (taken ++ left).take n = taken ++ left.take (n - taken.length) := by
        rw [List.take_append, List.take_of_length_le (Nat.le_of_lt short)]
      have drops : (taken ++ left).drop n = left.drop (n - taken.length) := by
        rw [List.drop_append, List.drop_of_length_le (Nat.le_of_lt short), List.nil_append]
      rw [drawOn_data_part more long, takes, drops]
      rw [List.length_append] at long
      rw [drawOn_data_part (by omega) (by omega)]
      simp [List.reverseAux_eq]
  | endless stream offset count =>
    rw [List.length_map, List.length_range] at short ⊢
    obtain ⟨more, rfl⟩ := Nat.exists_eq_add_of_le (Nat.le_of_lt short)
    have whole : count + more ≠ 0 := Nat.ne_of_gt (Nat.zero_lt_of_lt short)
    have others : more ≠ 0 := by omega
    rw [Nat.add_sub_cancel_left, Source.drawOn, if_neg whole, Source.drawOn, if_neg others, range_map_add,
      ← Nat.add_assoc, List.reverseAux_eq, List.reverse_append, List.reverse_reverse, List.append_assoc]

theorem Offers.draw {s t : Source} {bytes : Bytes} (h : s.Offers bytes t) {n : Nat}
    (enough : n ≤ bytes.length) :
    ∃ m, s.draw n = ⟨bytes.take n, .filled, m⟩ ∧ s.Offers (bytes.take n) m ∧ m.Offers (bytes.drop n) t :=
  h.drawOn enough []

theorem Offers.draw_ended {s t rest : Source} {bytes : Bytes} (h : s.Offers bytes t) {n : Nat}
    (short : bytes.length < n) (ends : t.Ends rest) : s.draw n = ⟨bytes, .ended, rest⟩ := by
  have more : n - bytes.length ≠ 0 := Nat.sub_ne_zero_of_lt short
  rw [Source.draw, h.drawOn_short short]
  cases ends <;> simp [Source.drawOn, more, List.reverseAux_eq]

theorem Offers.draw_failed {s t rest : Source} {bytes : Bytes} {error : IoError} (h : s.Offers bytes t)
    {n : Nat} (short : bytes.length < n) (fails : t.Fails error rest) :
    s.draw n = ⟨bytes, .failed error, rest⟩ := by
  have more : n - bytes.length ≠ 0 := Nat.sub_ne_zero_of_lt short
  rw [Source.draw, h.drawOn_short short]
  cases fails <;> simp [Source.drawOn, more, List.reverseAux_eq]

/-! ### What can come of a request -/

/-- How a source meets a request for `n` bytes. -/
inductive Meets (s : Source) (n : Nat) : Prop
  | filled {bytes : Bytes} {t : Source} (offers : s.Offers bytes t) (full : bytes.length = n)
  | ended {bytes : Bytes} {t rest : Source} (offers : s.Offers bytes t) (short : bytes.length < n)
      (ends : t.Ends rest)
  | failed {bytes : Bytes} {t rest : Source} {error : IoError} (offers : s.Offers bytes t)
      (short : bytes.length < n) (fails : t.Fails error rest)

/-- What is offered first counts towards the request. -/
theorem Offers.meets {s t : Source} {front : Bytes} (first : s.Offers front t) {n : Nat} (h : t.Meets n) :
    s.Meets (front.length + n) := by
  have length (others : Bytes) : (front ++ others).length = front.length + others.length :=
    List.length_append
  cases h with
  | @filled others _ offers full => exact .filled (first.trans offers) (by rw [length, full])
  | @ended others _ _ offers short ends => exact .ended (first.trans offers) (by rw [length]; omega) ends
  | @failed others _ _ _ offers short fails =>
    exact .failed (first.trans offers) (by rw [length]; omega) fails

theorem meets (s : Source) (n : Nat) : s.Meets n := by
  obtain ⟨events, ending⟩ := s
  induction events generalizing n with
  | nil =>
    by_cases zero : n = 0
    · exact .filled (.nothing _) zero.symm
    have more := Nat.pos_of_ne_zero zero
    cases ending with
    | endOfInput => exact .ended (.nothing _) more .done
    | failing error => exact .failed (.nothing _) more .always
    | endless stream offset => exact .filled (.endless stream offset n) (by simp)
  | cons event rest ih =>
    by_cases zero : n = 0
    · exact .filled (.nothing _) zero.symm
    have more := Nat.pos_of_ne_zero zero
    cases event with
    | interrupt =>
      have first : Offers ⟨.interrupt :: rest, ending⟩ [] ⟨rest, ending⟩ := .interrupt (.nothing _)
      have meets := first.meets (ih n)
      rwa [List.length_nil, Nat.zero_add] at meets
    | fail error => exact .failed (.nothing _) more .once
    | withheld bytes => exact .ended (.nothing _) more .withheld
    | data piece =>
      by_cases none : piece = []
      · subst none
        exact .ended (.nothing _) more .empty
      by_cases fits : piece.length ≤ n
      · have first := Offers.piece piece none (.nothing ⟨rest, ending⟩)
        rw [List.append_nil] at first
        have meets := first.meets (ih (n - piece.length))
        rwa [Nat.add_sub_cancel' fits] at meets
      · have left : piece.drop n ≠ [] := fun empty => fits (List.drop_eq_nil_iff.1 empty)
        have part := @Offers.part rest ending (piece.take n) (piece.drop n) left
        rw [List.take_append_drop] at part
        exact .filled part (List.length_take_of_le (Nat.le_of_not_le fits))

/-! ### Sources that stop -/

/-- What is offered is gone from the events, or from the endless stream behind them. -/
theorem Offers.length {s t : Source} {bytes : Bytes} (h : s.Offers bytes t) :
    s.unread.length + t.ending.offset = t.unread.length + s.ending.offset + bytes.length := by
  induction h with
  | nothing => rfl
  | interrupt _ ih => exact ih
  | piece piece _ _ ih =>
    simp only [unread, List.flatMap_cons, Event.bytes, List.length_append] at ih ⊢
    omega
  | part taken left _ =>
    simp only [unread, List.flatMap_cons, Event.bytes, List.length_append]
    omega
  | endless stream offset n =>
    rw [List.length_map, List.length_range, Nat.add_assoc]
    rfl

/-- What is behind an offer ends as before, unless it is behind a part of an endless stream. -/
theorem Offers.ending {s t : Source} {bytes : Bytes} (h : s.Offers bytes t) :
    t.ending = s.ending ∨ t.events = [] ∧ ∃ stream offset offset', s.ending = .endless stream offset ∧
      t.ending = .endless stream offset' := by
  induction h with
  | nothing => exact .inl rfl
  | interrupt _ ih => exact ih
  | piece _ _ _ ih => exact ih
  | part => exact .inl rfl
  | endless stream offset n => exact .inr ⟨rfl, stream, offset, _, rfl, rfl⟩

/-- Reading to the end comes to one, or to a failure. -/
def Stops (s : Source) : Prop :=
  ∃ bytes t u, s.Offers bytes t ∧ (t.Ends u ∨ ∃ error, t.Fails error u)

/-- What is there before a source stops is in its events. -/
theorem Stops.cases {s : Source} (h : s.Stops) :
    ∃ bytes t u, s.Offers bytes t ∧ bytes.length ≤ s.unread.length ∧
      (t.Ends u ∨ ∃ error, t.Fails error u) := by
  obtain ⟨bytes, t, u, offers, stops⟩ := h
  refine ⟨bytes, t, u, offers, ?_, stops⟩
  have length := offers.length
  rcases offers.ending with same | ⟨none, stream, _, offset, -, endless⟩
  · rw [same] at length
    omega
  · obtain ⟨events, ending⟩ := t
    cases none
    cases endless
    rcases stops with ends | ⟨error, fails⟩
    · cases ends
    · cases fails

/-- Only an endless source may not stop. -/
theorem stops_of_ending {s : Source} (h : ∀ stream offset, s.ending ≠ .endless stream offset) : s.Stops := by
  cases s.meets (s.unread.length + 1) with
  | filled offers full =>
    have length := offers.length
    rcases offers.ending with same | ⟨-, stream, offset, _, endless, -⟩
    · rw [same] at length
      omega
    · exact absurd endless (h stream offset)
  | ended offers short ends => exact ⟨_, _, _, offers, .inl ends⟩
  | failed offers short fails => exact ⟨_, _, _, offers, .inr ⟨_, fails⟩⟩

/-! ### Byte strings -/

theorem offers_ofBytes (bytes rest : Bytes) : (ofBytes (bytes ++ rest)).Offers bytes (ofBytes rest) := by
  by_cases none : rest = []
  · subst none
    rw [List.append_nil]
    by_cases empty : bytes = []
    · subst empty
      exact .nothing _
    · have whole := Offers.piece bytes empty (.nothing ⟨[], .endOfInput⟩)
      rw [List.append_nil] at whole
      rw [ofBytes_of_ne empty]
      exact whole
  · have whole : bytes ++ rest ≠ [] := fun empty => none (List.append_eq_nil_iff.1 empty).2
    rw [ofBytes_of_ne whole, ofBytes_of_ne none]
    exact .part bytes rest none

theorem offers_all (bytes : Bytes) : (ofBytes bytes).Offers bytes (ofBytes []) := by
  have offers := offers_ofBytes bytes []
  rwa [List.append_nil] at offers

theorem ends_ofBytes_nil : (ofBytes []).Ends (ofBytes []) := .done

/-- What a byte string offers is a beginning of it, and behind that there is the rest. -/
theorem Offers.of_ofBytes {data code : Bytes} {t : Source} (h : (ofBytes data).Offers code t) :
    ∃ rest, data = code ++ rest ∧ t = ofBytes rest := by
  by_cases empty : data = []
  · subst empty
    cases h
    exact ⟨[], rfl, rfl⟩
  rw [ofBytes_of_ne empty] at h
  cases h with
  | nothing => exact ⟨data, rfl, (ofBytes_of_ne empty).symm⟩
  | piece _ _ others =>
    cases others
    exact ⟨[], by rw [List.append_nil, List.append_nil], rfl⟩
  | part taken left some => exact ⟨left, rfl, (ofBytes_of_ne some).symm⟩

theorem Offers.eq_ofBytes {code rest : Bytes} {t : Source} (h : (ofBytes (code ++ rest)).Offers code t) :
    t = ofBytes rest := by
  obtain ⟨rest', same, rfl⟩ := h.of_ofBytes
  rw [List.append_cancel_left same]

theorem not_fails_ofBytes {bytes : Bytes} {error : IoError} {t : Source} : ¬ (ofBytes bytes).Fails error t := by
  intro fails
  cases bytes <;> cases fails

end Source

end Transparency.Wire
