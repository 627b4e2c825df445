import Transparency.Proofs.Measured

/-! Decoders on byte strings.

A decoder *settles* on an outcome after some bytes, its code, if it comes to that outcome having taken
exactly those bytes, whatever follows them. The codes of a decoder are the words of its grammar: what a
sequence of decoders settles after is a word of the first and then one of the second
(`settles_bind_iff`), and no word begins another (`Settles.unique`).

A decoder is `Streaming` if on a byte string it settles after some of its bytes, or takes all of it and
misses more. Every measured decoder is, and so those of records are. -/
namespace Transparency.Wire

/-- `s` is `r` after `code`, with `rest` still to come. Its notes may be any. -/
structure Reader.Passes (r : Reader) (code rest : Bytes) (s : Reader) : Prop where
  source : s.source = .ofBytes rest
  position : s.position = r.position + code.length
  lost : s.lost = r.lost

theorem Reader.Passes.trans {r s t : Reader} {a b rest rest' : Bytes} (first : r.Passes a rest s)
    (second : s.Passes b rest' t) : r.Passes (a ++ b) rest' t where
  source := second.source
  position := by rw [second.position, first.position, List.length_append, Nat.add_assoc]
  lost := second.lost.trans first.lost

theorem Source.ofBytes_inj {a b : Bytes} (h : ofBytes a = ofBytes b) : a = b := by
  rw [← unread_ofBytes a, h, unread_ofBytes]

namespace Decoder
variable {α β : Type}

/-- After `code`, and whatever comes then, `d` has come to `out`. -/
def Settles (d : Decoder α) (out : Except DecodeError α) (code : Bytes) : Prop :=
  ∀ (r : Reader) (rest : Bytes), r.source = .ofBytes (code ++ rest) →
    ∃ s, d r = leaving out s ∧ r.Passes code rest s

/-- `d` on `bytes` takes all of them and misses more. -/
def Starves (d : Decoder α) (bytes : Bytes) : Prop :=
  ∀ r : Reader, r.source = .ofBytes bytes →
    ∃ expected actual s, d r = .error (.truncated expected actual) s ∧ r.Passes bytes [] s

/-- A decoder that depends on the bytes that it takes and on nothing else. -/
class Streaming (d : Decoder α) : Prop where
  settles_or_starves : ∀ bytes, (∃ out code rest, bytes = code ++ rest ∧ Settles d out code) ∨
    Starves d bytes

/-- What decides wherever its bytes are offered does so on a byte string. -/
theorem Decides.settles {d : Decoder α} {out : Except DecodeError α} {code : Bytes}
    (h : Decides d out code) : Settles d out code := by
  intro r rest source
  have offers := Source.offers_all (code ++ rest)
  rw [← source] at offers
  obtain ⟨s, run, takes, -⟩ := h.run offers
  have taken := takes.source
  rw [source] at taken
  exact ⟨s, run, taken.eq_ofBytes, takes.position, takes.lost⟩

theorem Misses.starves {d : Decoder α} {expected actual : Nat} {bytes : Bytes}
    (h : Misses d expected actual bytes) : Starves d bytes := by
  intro r source
  have offers := Source.offers_all bytes
  rw [← source] at offers
  obtain ⟨s, run, drains⟩ := h.ended offers Source.ends_ofBytes_nil
  exact ⟨expected, actual, s, run, drains.source, drains.position, drains.lost⟩

instance {d : Decoder α} [h : Measured d] : Streaming d where
  settles_or_starves := by
    intro bytes
    rcases h.fate bytes with ⟨out, code, rest, whole, decides⟩ | ⟨expected, actual, lacks⟩
    · exact .inl ⟨out, code, rest, whole, decides.settles⟩
    · exact .inr lacks.misses.starves

/-- Two codes at the beginning of the same bytes are one. -/
theorem Settles.unique {d : Decoder α} {out out' : Except DecodeError α} {code code' rest rest' : Bytes}
    (h : Settles d out code) (h' : Settles d out' code') (same : code ++ rest = code' ++ rest') :
    out = out' ∧ code = code' := by
  obtain ⟨s, run, passes⟩ := h {source := .ofBytes (code ++ rest)} rest rfl
  obtain ⟨s', run', passes'⟩ := h' {source := .ofBytes (code ++ rest)} rest' (by rw [same])
  obtain ⟨outs, rfl⟩ := leaving_inj (run.symm.trans run')
  have rests : rest = rest' := Source.ofBytes_inj (passes.source.symm.trans passes'.source)
  rw [rests] at same
  exact ⟨outs, List.append_cancel_right same⟩

/-- One code stands for one value. -/
theorem Settles.value_unique {d : Decoder α} {a b : α} {code : Bytes} (h : Settles d (.ok a) code)
    (h' : Settles d (.ok b) code) : a = b := by
  have same : code ++ [] = code ++ [] := rfl
  cases (h.unique h' same).1
  rfl

/-- A decoder does not starve on a code. -/
theorem Starves.not_settles {d : Decoder α} {value : α} {code : Bytes} (starves : Starves d code) :
    ¬ Settles d (.ok value) code := by
  intro settles
  obtain ⟨s, run, -⟩ := settles {source := .ofBytes code} [] (by rw [List.append_nil])
  obtain ⟨_, _, s', run', -⟩ := starves {source := .ofBytes code} rfl
  rw [run] at run'
  cases run'

/-- What a decoder returns it has settled on. -/
theorem Streaming.code_of_ok {d : Decoder α} [Streaming d] {r s : Reader} {bytes : Bytes} {value : α}
    (h : r.source = .ofBytes bytes) (run : d r = .ok value s) :
    ∃ code rest, bytes = code ++ rest ∧ Settles d (.ok value) code ∧ r.Passes code rest s := by
  rcases Streaming.settles_or_starves (d := d) bytes with ⟨out, code, rest, rfl, settles⟩ | starves
  · obtain ⟨s', run', passes⟩ := settles r rest h
    obtain ⟨rfl, rfl⟩ := leaving_inj (run'.symm.trans run : leaving out s' = leaving (.ok value) s)
    exact ⟨code, rest, rfl, settles, passes⟩
  · obtain ⟨_, _, s', run', -⟩ := starves r h
    rw [run] at run'
    cases run'

/-- What is left behind a record is what its reader has not come to. -/
theorem length_unread_after {d : Decoder α} [Streaming d] {bytes : Bytes} {value : α}
    (decoded : d.outcome (.ofBytes bytes) = .ok value) :
    (d.after (.ofBytes bytes)).unread.length = bytes.length - (d.after (.ofBytes bytes)).position := by
  obtain ⟨code, rest, rfl, -, passes⟩ := Streaming.code_of_ok rfl (run_of_outcome decoded)
  rw [Reader.unread, passes.source, Source.unread_ofBytes, passes.position, List.length_append]
  show rest.length = code.length + rest.length - (0 + code.length)
  omega

/-- Nothing left over means that all the bytes are the code. -/
theorem settles_iff_all_read {d : Decoder α} [Streaming d] {bytes : Bytes} {value : α} :
    Settles d (.ok value) bytes ↔
      d.outcome (.ofBytes bytes) = .ok value ∧ (d.after (.ofBytes bytes)).unread.length = 0 := by
  constructor
  · intro settles
    obtain ⟨s, run, passes⟩ := settles (.ofBytes bytes) [] (by rw [List.append_nil]; rfl)
    rw [outcome_of_leaving run, after_of_leaving run, Reader.unread, passes.source]
    exact ⟨rfl, rfl⟩
  · intro parts
    obtain ⟨decoded, none⟩ := parts
    obtain ⟨code, rest, rfl, settles, passes⟩ := Streaming.code_of_ok rfl (run_of_outcome decoded)
    rw [Reader.unread, passes.source, Source.unread_ofBytes] at none
    rwa [List.length_eq_zero_iff.1 none, List.append_nil]

theorem decode_refused_iff {d : Decoder α} [Streaming d] {bytes : Bytes} {value : α} :
    (d.decode .refused bytes).result = .ok value ↔ Settles d (.ok value) bytes := by
  rw [settles_iff_all_read]
  cases decoded : d.outcome (.ofBytes bytes) with
  | error error =>
    rw [decode_of_error d .refused decoded]
    exact ⟨nofun, fun parts => nomatch parts.1⟩
  | ok a =>
    rw [decode_of_ok d .refused decoded, Trailing.accept_eq_ok_iff, Except.ok.injEq]
    exact ⟨fun parts => ⟨parts.2, parts.1.resolve_left nofun⟩, fun parts => ⟨.inr parts.2, parts.1⟩⟩

/-! ### Sequences -/

theorem settles_throw (error : DecodeError) : Settles (throw error : Decoder α) (.error error) [] :=
  fun r _ h => ⟨r, rfl, h, rfl, rfl⟩

theorem Settles.bind {d : Decoder α} {f : α → Decoder β} {value : α} {out : Except DecodeError β}
    {code code' : Bytes} (first : Settles d (.ok value) code) (second : Settles (f value) out code') :
    Settles (d >>= f) out (code ++ code') := by
  intro r rest h
  rw [List.append_assoc] at h
  obtain ⟨s, run, passes⟩ := first r _ h
  obtain ⟨t, run', passes'⟩ := second s rest passes.source
  exact ⟨t, (bind_of_ok run).trans run', passes.trans passes'⟩

theorem Settles.bind_error {d : Decoder α} {f : α → Decoder β} {error : DecodeError} {code : Bytes}
    (first : Settles d (.error error) code) : Settles (d >>= f) (.error error) code := by
  intro r rest h
  obtain ⟨s, run, passes⟩ := first r rest h
  exact ⟨s, bind_of_error run, passes⟩

theorem Starves.bind {d : Decoder α} {f : α → Decoder β} {bytes : Bytes} (first : Starves d bytes) :
    Starves (d >>= f) bytes := by
  intro r h
  obtain ⟨expected, actual, s, run, passes⟩ := first r h
  exact ⟨expected, actual, s, bind_of_error run, passes⟩

theorem Settles.bind_starves {d : Decoder α} {f : α → Decoder β} {value : α} {code bytes : Bytes}
    (first : Settles d (.ok value) code) (second : Starves (f value) bytes) :
    Starves (d >>= f) (code ++ bytes) := by
  intro r h
  obtain ⟨s, run, passes⟩ := first r bytes h
  obtain ⟨expected, actual, t, run', passes'⟩ := second s passes.source
  exact ⟨expected, actual, t, (bind_of_ok run).trans run', passes.trans passes'⟩

instance (error : DecodeError) : Streaming (throw error : Decoder α) :=
  ⟨fun bytes => .inl ⟨.error error, [], bytes, rfl, settles_throw error⟩⟩

instance {c : Prop} [Decidable c] {d e : Decoder α} [Streaming d] [Streaming e] :
    Streaming (if c then d else e) := by
  split <;> infer_instance

theorem settles_pure_iff {a value : α} {code : Bytes} :
    Settles (pure a : Decoder α) (.ok value) code ↔ value = a ∧ code = [] := by
  constructor
  · intro h
    have same : code ++ [] = [] ++ code := List.append_nil code
    obtain ⟨values, codes⟩ := h.unique (decides_pure a).settles same
    cases values
    exact ⟨rfl, codes⟩
  · intro parts
    obtain ⟨rfl, rfl⟩ := parts
    exact (decides_pure value).settles

theorem not_settles_throw {error : DecodeError} {value : α} {code : Bytes} :
    ¬ Settles (throw error : Decoder α) (.ok value) code := by
  intro h
  have same : code ++ [] = [] ++ code := List.append_nil code
  cases (h.unique (settles_throw error) same).1

theorem settles_noteAt_iff {n : Nat → Note} {value : Unit} {code : Bytes} :
    Settles (noteAt n) (.ok value) code ↔ code = [] := by
  constructor
  · intro h
    have same : code ++ [] = [] ++ code := List.append_nil code
    exact (h.unique (decides_noteAt n).settles same).2
  · intro same
    subst same
    exact (decides_noteAt n).settles

theorem settles_note_iff {n : Note} {value : Unit} {code : Bytes} :
    Settles (note n) (.ok value) code ↔ code = [] :=
  settles_noteAt_iff

/-- The codes of a sequence are those of its parts, one behind the other. -/
theorem settles_bind_iff {d : Decoder α} {f : α → Decoder β} [Streaming d]
    [∀ value, Streaming (f value)] {value : β} {code : Bytes} :
    Settles (d >>= f) (.ok value) code ↔
      ∃ a first second, code = first ++ second ∧ Settles d (.ok a) first ∧
        Settles (f a) (.ok value) second := by
  constructor
  · intro settles
    rcases Streaming.settles_or_starves (d := d) code with ⟨out, first, rest, rfl, head⟩ | starves
    · cases out with
      | error error =>
        have same : first ++ rest = first ++ rest ++ [] := (List.append_nil _).symm
        cases ((head.bind_error (f := f)).unique settles same).1
      | ok a =>
        rcases Streaming.settles_or_starves (d := f a) rest with
          ⟨out, second, left, rfl, tail⟩ | starves
        · have same : first ++ second ++ left = first ++ (second ++ left) ++ [] := by simp
          obtain ⟨rfl, codes⟩ := (head.bind tail).unique settles same
          exact ⟨a, first, second, codes.symm, head, tail⟩
        · exact absurd settles (head.bind_starves starves).not_settles
    · exact absurd settles starves.bind.not_settles
  · intro parts
    obtain ⟨a, first, second, rfl, head, tail⟩ := parts
    exact head.bind tail

theorem settles_map_iff {d : Decoder α} {f : α → β} [Streaming d] {value : β} {code : Bytes} :
    Settles (f <$> d) (.ok value) code ↔ ∃ a, value = f a ∧ Settles d (.ok a) code := by
  show Settles (d >>= fun a => pure (f a)) (.ok value) code ↔ _
  simp only [settles_bind_iff, settles_pure_iff]
  constructor
  · intro parts
    obtain ⟨a, first, _, rfl, settles, rfl, rfl⟩ := parts
    rw [List.append_nil]
    exact ⟨a, rfl, settles⟩
  · intro parts
    obtain ⟨a, rfl, settles⟩ := parts
    exact ⟨a, code, [], (List.append_nil _).symm, settles, rfl, rfl⟩

end Decoder

end Transparency.Wire
