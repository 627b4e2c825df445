import Transparency.Proofs.BigEndian
import Transparency.Proofs.Offering
import Transparency.Proofs.Outcome

/-! Decoders that know how many bytes they need.

A decoder is `Measured` if it is made of reads of a known width, of refusals and of notes. Such a decoder
never asks for a byte behind those that it needs. So, whatever its source, only the bytes that are offered
count: after some of them it `Decides`, or it takes them all and `Lacks` so many more
(`Measured.fate`). What it lacks it reports as missing if the source ends there, and as a failure if the
source fails there. -/
namespace Transparency.Wire

/-! ### Readers -/

/-- `s` is `r` after `code`, wherever it came from. -/
structure Reader.Takes (r : Reader) (code : Bytes) (s : Reader) : Prop where
  source : r.source.Offers code s.source
  position : s.position = r.position + code.length
  lost : s.lost = r.lost

/-- `s` is `r` after `bytes`, at the end of the input. -/
structure Reader.Drains (r : Reader) (bytes : Bytes) (rest : Source) (s : Reader) : Prop where
  source : s.source = rest
  position : s.position = r.position + bytes.length
  lost : s.lost = r.lost

/-- `s` is `r` after `bytes` and a failure. Some of the bytes may be lost. -/
structure Reader.Loses (r : Reader) (bytes : Bytes) (rest : Source) (s : Reader) : Prop where
  source : s.source = rest
  taken : s.position + s.lost = r.position + r.lost + bytes.length

namespace Reader.Takes
variable {r m s : Reader} {code bytes : Bytes} {rest : Source}

theorem trans (first : r.Takes code m) (second : m.Takes bytes s) : r.Takes (code ++ bytes) s where
  source := first.source.trans second.source
  position := by rw [second.position, first.position, List.length_append, Nat.add_assoc]
  lost := second.lost.trans first.lost

theorem drains (first : r.Takes code m) (second : m.Drains bytes rest s) :
    r.Drains (code ++ bytes) rest s where
  source := second.source
  position := by rw [second.position, first.position, List.length_append, Nat.add_assoc]
  lost := second.lost.trans first.lost

theorem loses (first : r.Takes code m) (second : m.Loses bytes rest s) :
    r.Loses (code ++ bytes) rest s where
  source := second.source
  taken := by
    rw [second.taken, first.position, first.lost, List.length_append]
    omega

end Reader.Takes

/-! ### Outcomes -/

/-- A judgement on bytes that are there. -/
def DecodeError.Refusal : DecodeError → Prop
  | .unsupportedVersion _ | .unsupportedLeafType _ | .unknownEntryType _ | .unknownAlgorithm _ _
  | .corrupt _ | .numberTooWide _ => True
  | .truncated _ _ | .trailingData _ | .node _ | .typeMismatch _ | .io _ | .endless => False

/-- What can be wrong with bytes: what is there, or that there are too few. -/
def DecodeError.Flaw : DecodeError → Prop
  | .truncated _ _ => True
  | error => error.Refusal

theorem DecodeError.Refusal.flaw {error : DecodeError} (refusal : error.Refusal) : error.Flaw := by
  cases error <;> first | exact refusal | trivial

namespace Decoder
variable {α β : Type}

/-- A value or a refusal. -/
def Judgement : Except DecodeError α → Prop
  | .ok _ => True
  | .error error => error.Refusal

/-- Where `code` is offered, `d` takes it, and nothing more, and comes to `out`. -/
structure Decides (d : Decoder α) (out : Except DecodeError α) (code : Bytes) : Prop where
  judgement : Judgement out
  run : ∀ {r : Reader} {rest : Bytes} {t : Source}, r.source.Offers (code ++ rest) t →
    ∃ s, d r = leaving out s ∧ r.Takes code s ∧ s.source.Offers rest t

/-- Where only `bytes` are offered, `d` takes them all and comes to why there are no more. -/
structure Misses (d : Decoder α) (expected actual : Nat) (bytes : Bytes) : Prop where
  ended : ∀ {r : Reader} {t rest : Source}, r.source.Offers bytes t → t.Ends rest →
    ∃ s, d r = .error (.truncated expected actual) s ∧ r.Drains bytes rest s
  failed : ∀ {r : Reader} {t rest : Source} {error : IoError}, r.source.Offers bytes t →
    t.Fails error rest → ∃ s, d r = .error (.io error) s ∧ r.Loses bytes rest s

/-- Of a read of `expected` bytes, `actual` are at the end of `bytes`. With fewer than the others `d` misses
the rest of the read, and with just the others it decides or misses all of its next read. -/
structure Lacks (d : Decoder α) (expected actual : Nat) (bytes : Bytes) : Prop where
  less : actual < expected
  inside : actual ≤ bytes.length
  short : ∀ more : Bytes, actual + more.length < expected →
    Misses d expected (actual + more.length) (bytes ++ more)
  full : ∀ more : Bytes, actual + more.length = expected →
    (∃ out, Decides d out (bytes ++ more)) ∨ ∃ next, Misses d next 0 (bytes ++ more)

theorem Lacks.misses {d : Decoder α} {expected actual : Nat} {bytes : Bytes}
    (h : Lacks d expected actual bytes) : Misses d expected actual bytes := by
  have short := h.short [] h.less
  rwa [List.append_nil] at short

/-! ### Sequences -/

theorem decides_pure (value : α) : Decides (pure value) (.ok value) [] where
  judgement := trivial
  run {r _ _} h := ⟨r, rfl, ⟨.nothing _, rfl, rfl⟩, h⟩

theorem decides_throw {error : DecodeError} (refusal : error.Refusal) :
    Decides (throw error : Decoder α) (.error error) [] where
  judgement := refusal
  run {r _ _} h := ⟨r, rfl, ⟨.nothing _, rfl, rfl⟩, h⟩

theorem decides_noteAt (n : Nat → Note) : Decides (noteAt n) (.ok ()) [] where
  judgement := trivial
  run {r _ _} h := ⟨{r with notes := n r.position :: r.notes}, rfl, ⟨.nothing _, rfl, rfl⟩, h⟩

theorem Decides.bind {d : Decoder α} {f : α → Decoder β} {value : α} {out : Except DecodeError β}
    {code code' : Bytes} (first : Decides d (.ok value) code) (second : Decides (f value) out code') :
    Decides (d >>= f) out (code ++ code') where
  judgement := second.judgement
  run {r rest t} h := by
    rw [List.append_assoc] at h
    obtain ⟨m, run, takes, offers⟩ := first.run h
    obtain ⟨s, run', takes', offers'⟩ := second.run offers
    exact ⟨s, (bind_of_ok run).trans run', takes.trans takes', offers'⟩

theorem Decides.bind_error {d : Decoder α} {f : α → Decoder β} {error : DecodeError} {code : Bytes}
    (first : Decides d (.error error) code) : Decides (d >>= f) (.error error) code where
  judgement := first.judgement
  run {r rest t} h := by
    obtain ⟨s, run, takes, offers⟩ := first.run h
    exact ⟨s, bind_of_error run, takes, offers⟩

theorem Misses.bind {d : Decoder α} {f : α → Decoder β} {expected actual : Nat} {bytes : Bytes}
    (first : Misses d expected actual bytes) : Misses (d >>= f) expected actual bytes where
  ended offers ends := by
    obtain ⟨s, run, drains⟩ := first.ended offers ends
    exact ⟨s, bind_of_error run, drains⟩
  failed offers fails := by
    obtain ⟨s, run, loses⟩ := first.failed offers fails
    exact ⟨s, bind_of_error run, loses⟩

theorem Decides.bind_misses {d : Decoder α} {f : α → Decoder β} {value : α} {expected actual : Nat}
    {code bytes : Bytes} (first : Decides d (.ok value) code)
    (second : Misses (f value) expected actual bytes) :
    Misses (d >>= f) expected actual (code ++ bytes) where
  ended offers ends := by
    obtain ⟨m, run, takes, offers⟩ := first.run offers
    obtain ⟨s, run', drains⟩ := second.ended offers ends
    exact ⟨s, (bind_of_ok run).trans run', takes.drains drains⟩
  failed offers fails := by
    obtain ⟨m, run, takes, offers⟩ := first.run offers
    obtain ⟨s, run', loses⟩ := second.failed offers fails
    exact ⟨s, (bind_of_ok run).trans run', takes.loses loses⟩

theorem Decides.bind_lacks {d : Decoder α} {f : α → Decoder β} {value : α} {expected actual : Nat}
    {code bytes : Bytes} (first : Decides d (.ok value) code)
    (second : Lacks (f value) expected actual bytes) :
    Lacks (d >>= f) expected actual (code ++ bytes) where
  less := second.less
  inside := by
    rw [List.length_append]
    exact Nat.le_add_left_of_le second.inside
  short more h := by
    rw [List.append_assoc]
    exact first.bind_misses (second.short more h)
  full more h := by
    rw [List.append_assoc]
    rcases second.full more h with ⟨out, decides⟩ | ⟨next, misses⟩
    · exact .inl ⟨out, first.bind decides⟩
    · exact .inr ⟨next, first.bind_misses misses⟩

/-- What comes next decides or misses when nothing is there for it yet. -/
theorem Lacks.bind {d : Decoder α} {f : α → Decoder β} {expected actual : Nat} {bytes : Bytes}
    (first : Lacks d expected actual bytes)
    (second : ∀ value, (∃ out, Decides (f value) out []) ∨ ∃ next, Misses (f value) next 0 []) :
    Lacks (d >>= f) expected actual bytes where
  less := first.less
  inside := first.inside
  short more h := (first.short more h).bind
  full more h := by
    rcases first.full more h with ⟨out, decides⟩ | ⟨next, misses⟩
    · cases out with
      | error error => exact .inl ⟨_, decides.bind_error⟩
      | ok value =>
        rw [← List.append_nil (bytes ++ more)]
        rcases second value with ⟨out, decides'⟩ | ⟨next, misses⟩
        · exact .inl ⟨out, decides.bind decides'⟩
        · exact .inr ⟨next, decides.bind_misses misses⟩
    · exact .inr ⟨next, misses.bind⟩

/-! ### Reads of a known width -/

structure Reads (d : Decoder α) (width : Nat) : Prop where
  decides : ∀ code : Bytes, code.length = width → ∃ value, Decides d (.ok value) code
  misses : ∀ bytes : Bytes, bytes.length < width → Misses d width bytes.length bytes

theorem Reads.lacks {d : Decoder α} {width : Nat} (reads : Reads d width) {bytes : Bytes}
    (short : bytes.length < width) : Lacks d width bytes.length bytes where
  less := short
  inside := Nat.le_refl _
  short more h := by
    rw [← List.length_append] at h ⊢
    exact reads.misses _ h
  full more h := by
    rw [← List.length_append] at h
    obtain ⟨value, decides⟩ := reads.decides _ h
    exact .inl ⟨_, decides⟩

theorem decides_upTo (code : Bytes) : Decides (upTo code.length) (.ok code) code where
  judgement := trivial
  run {r rest t} h := by
    have enough : code.length ≤ (code ++ rest).length := by
      rw [List.length_append]
      exact Nat.le_add_right _ _
    obtain ⟨m, draw, takes, leaves⟩ := h.draw enough
    rw [List.take_left' rfl] at draw takes
    rw [List.drop_left' rfl] at leaves
    refine ⟨{r with source := m, position := r.position + code.length}, ?_, ⟨takes, rfl, rfl⟩, leaves⟩
    simp only [upTo, draw, leaving]

theorem upTo_ended {r : Reader} {t rest : Source} {bytes : Bytes} {n : Nat}
    (offers : r.source.Offers bytes t) (short : bytes.length < n) (ends : t.Ends rest) :
    ∃ s, upTo n r = .ok bytes s ∧ r.Drains bytes rest s := by
  refine ⟨{r with source := rest, position := r.position + bytes.length}, ?_, rfl, rfl, rfl⟩
  simp only [upTo, offers.draw_ended short ends]

theorem upTo_failed {r : Reader} {t rest : Source} {error : IoError} {bytes : Bytes} {n : Nat}
    (offers : r.source.Offers bytes t) (short : bytes.length < n) (fails : t.Fails error rest) :
    ∃ s, upTo n r = .error (.io error) s ∧ r.Loses bytes rest s := by
  refine ⟨{r with source := rest, lost := r.lost + bytes.length}, ?_, rfl, (Nat.add_assoc ..).symm⟩
  simp only [upTo, offers.draw_failed short fails]

theorem decides_block {n : Nat} (b : Block n) : Decides (block n) (.ok b) b.1 where
  judgement := trivial
  run {r rest t} h := by
    have drawn := (decides_upTo b.1).run h
    rw [b.2] at drawn
    obtain ⟨s, run, takes, offers⟩ := drawn
    refine ⟨s, ?_, takes, offers⟩
    rw [block, bind_of_ok run, dif_pos b.2]
    rfl

theorem reads_block (n : Nat) : Reads (block n) n where
  decides code full := ⟨⟨code, full⟩, decides_block ⟨code, full⟩⟩
  misses bytes short :=
    { ended := by
        intro r t rest offers ends
        obtain ⟨s, run, drains⟩ := upTo_ended offers short ends
        refine ⟨s, ?_, drains⟩
        rw [block, bind_of_ok run, dif_neg (Nat.ne_of_lt short)]
        rfl
      failed := by
        intro r t rest error offers fails
        obtain ⟨s, run, loses⟩ := upTo_failed offers short fails
        exact ⟨s, bind_of_error run, loses⟩ }

theorem decides_numberOn (width : Nat) (value : UInt64) (code : Bytes) :
    Decides (numberOn width code.length value) (.ok (code.foldl pushByte value)) code := by
  induction code generalizing value with
  | nil => exact decides_pure value
  | cons byte rest ih => exact (decides_upTo [byte]).bind (ih (pushByte value byte))

/-- A number counts the bytes it has, which are those that are no longer `left`. -/
theorem misses_numberOn {width left : Nat} (value : UInt64) {bytes : Bytes} (inside : left ≤ width)
    (short : bytes.length < left) :
    Misses (numberOn width left value) width (width - left + bytes.length) bytes := by
  induction bytes generalizing left value with
  | nil =>
    obtain ⟨left, rfl⟩ := Nat.exists_eq_add_one_of_ne_zero (Nat.ne_of_gt short)
    refine ⟨fun {r t rest} offers ends => ?_, fun {r t rest error} offers fails => ?_⟩
    · obtain ⟨s, run, drains⟩ := upTo_ended offers Nat.one_pos ends
      exact ⟨s, bind_of_ok run, drains⟩
    · obtain ⟨s, run, loses⟩ := upTo_failed offers Nat.one_pos fails
      exact ⟨s, bind_of_error run, loses⟩
  | cons byte rest ih =>
    obtain ⟨left, rfl⟩ := Nat.exists_eq_add_one_of_ne_zero (Nat.ne_of_gt (Nat.zero_lt_of_lt short))
    rw [List.length_cons] at short ⊢
    have others := @ih left (pushByte value byte) (by omega) (by omega)
    have count : width - (left + 1) + (rest.length + 1) = width - left + rest.length := by omega
    rw [count]
    exact (decides_upTo [byte]).bind_misses others

theorem decides_number {code : Bytes} (h : code.length ≤ maxNumberWidth) :
    Decides (number code.length) (.ok (code.foldl pushByte 0)) code := by
  rw [number, if_neg (Nat.not_lt.2 h)]
  exact decides_numberOn _ 0 code

theorem reads_number {width : Nat} (h : width ≤ maxNumberWidth) : Reads (number width) width where
  decides := by
    intro code full
    subst full
    exact ⟨_, decides_number h⟩
  misses := by
    intro bytes short
    have misses := misses_numberOn 0 (Nat.le_refl width) short
    rw [Nat.sub_self, Nat.zero_add] at misses
    rwa [number, if_neg (Nat.not_lt.2 h)]

/-! ### Measured decoders -/

class inductive Measured : {α : Type} → Decoder α → Prop
  | pure {α : Type} (value : α) : Measured (pure value : Decoder α)
  | refuse {α : Type} {error : DecodeError} (refusal : error.Refusal) : Measured (throw error : Decoder α)
  | noteAt (n : Nat → Note) : Measured (noteAt n)
  | read {α : Type} {d : Decoder α} {width : Nat} (reads : Reads d width) : Measured d
  | bind {α β : Type} {d : Decoder α} {f : α → Decoder β} (first : Measured d)
      (second : ∀ value, Measured (f value)) : Measured (d >>= f)

/-- A measured decoder decides after a part of the bytes, or lacks more of them. -/
theorem Measured.fate {d : Decoder α} (h : Measured d) (bytes : Bytes) :
    (∃ out code rest, bytes = code ++ rest ∧ Decides d out code) ∨
      ∃ expected actual, Lacks d expected actual bytes := by
  induction h generalizing bytes with
  | pure value => exact .inl ⟨_, [], bytes, rfl, decides_pure value⟩
  | refuse refusal => exact .inl ⟨_, [], bytes, rfl, decides_throw refusal⟩
  | noteAt n => exact .inl ⟨_, [], bytes, rfl, decides_noteAt n⟩
  | @read _ d width reads =>
    by_cases short : bytes.length < width
    · exact .inr ⟨width, bytes.length, reads.lacks short⟩
    · have full : (bytes.take width).length = width := List.length_take_of_le (by omega)
      obtain ⟨value, decides⟩ := reads.decides _ full
      exact .inl ⟨_, _, bytes.drop width, (List.take_append_drop width bytes).symm, decides⟩
  | bind _ _ first second =>
    rcases first bytes with ⟨out, code, rest, rfl, decides⟩ | ⟨expected, actual, lacks⟩
    · cases out with
      | error error => exact .inl ⟨_, code, rest, rfl, decides.bind_error⟩
      | ok value =>
        rcases second value rest with ⟨out, code', rest', rfl, decides'⟩ | ⟨expected, actual, lacks⟩
        · exact .inl ⟨out, code ++ code', rest', (List.append_assoc ..).symm, decides.bind decides'⟩
        · exact .inr ⟨expected, actual, decides.bind_lacks lacks⟩
    · -- Once the first has all it lacks, the second starts with no bytes at all.
      refine .inr ⟨expected, actual, lacks.bind fun value => ?_⟩
      rcases second value [] with ⟨out, code, rest, none, decides⟩ | ⟨next, actual', lacks⟩
      · rw [(List.append_eq_nil_iff.1 none.symm).1] at decides
        exact .inl ⟨out, decides⟩
      · obtain rfl := Nat.le_zero.1 lacks.inside
        exact .inr ⟨next, lacks.misses⟩

/-! ### On byte strings -/

/-- A measured decoder of a byte string decides, or it lacks what it calls truncated. -/
theorem Measured.run_ofBytes {d : Decoder α} [h : Measured d] {bytes : Bytes} {r : Reader}
    (source : r.source = .ofBytes bytes) :
    (∃ out code rest s, bytes = code ++ rest ∧ Decides d out code ∧ d r = leaving out s ∧
        s.source = .ofBytes rest ∧ s.position = r.position + code.length) ∨
      ∃ expected actual s, Lacks d expected actual bytes ∧ d r = .error (.truncated expected actual) s ∧
        r.Drains bytes (.ofBytes []) s := by
  have offers := Source.offers_all bytes
  rw [← source] at offers
  rcases h.fate bytes with ⟨out, code, rest, rfl, decides⟩ | ⟨expected, actual, lacks⟩
  · obtain ⟨s, run, takes, -⟩ := decides.run offers
    have taken := takes.source
    rw [source] at taken
    exact .inl ⟨out, code, rest, s, rfl, decides, run, taken.eq_ofBytes, takes.position⟩
  · obtain ⟨s, run, drains⟩ := lacks.misses.ended offers Source.ends_ofBytes_nil
    exact .inr ⟨expected, actual, s, lacks, run, drains⟩

theorem Measured.truncated {d : Decoder α} [Measured d] {bytes : Bytes} {r s : Reader}
    {expected actual : Nat} (source : r.source = .ofBytes bytes)
    (run : d r = .error (.truncated expected actual) s) :
    Lacks d expected actual bytes ∧ r.Drains bytes (.ofBytes []) s := by
  rcases Measured.run_ofBytes (d := d) source with
    ⟨out, code, rest, s', rfl, decides, run', -⟩ | ⟨expected', actual', s', lacks, run', drains⟩
  · have same : leaving out s' = leaving (.error (.truncated expected actual)) s := run'.symm.trans run
    rw [(leaving_inj same).1] at decides
    exact decides.judgement.elim
  · rw [run] at run'
    cases run'
    exact ⟨lacks, drains⟩

/-- A byte string is refused, or there is too little of it; nothing else is wrong with it. -/
theorem Measured.flaw {d : Decoder α} [Measured d] {bytes : Bytes} {r s : Reader} {error : DecodeError}
    (source : r.source = .ofBytes bytes) (run : d r = .error error s) : error.Flaw := by
  rcases Measured.run_ofBytes (d := d) source with
    ⟨out, code, rest, s', rfl, decides, run', -⟩ | ⟨expected, actual, s', -, run', -⟩
  · have same : leaving out s' = leaving (.error error) s := run'.symm.trans run
    rw [(leaving_inj same).1] at decides
    exact decides.judgement.flaw
  · rw [run] at run'
    cases run'
    trivial

/-! ### Fields -/

attribute [instance] Measured.pure Measured.noteAt

instance {d : Decoder α} {f : α → Decoder β} [Measured d] [∀ value, Measured (f value)] :
    Measured (d >>= f) :=
  .bind inferInstance inferInstance

instance {d : Decoder α} {f : α → β} [Measured d] : Measured (f <$> d) :=
  inferInstanceAs (Measured (d >>= fun value => pure (f value)))

instance (n : Note) : Measured (note n) := inferInstanceAs (Measured (noteAt _))

instance (n : Nat) : Measured (block n) := .read (reads_block n)

instance (n : Nat) : Measured (bytes n) := by
  unfold bytes
  infer_instance

instance (width : Nat) : Measured (number width) := by
  by_cases h : width ≤ maxNumberWidth
  · exact .read (reads_number h)
  · rw [number, if_pos (Nat.lt_of_not_le h)]
    exact .refuse trivial

instance (cause : Corruption) : Measured (throw (.corrupt cause) : Decoder α) := .refuse trivial

instance {c : Prop} [Decidable c] {d e : Decoder α} [Measured d] [Measured e] :
    Measured (if c then d else e) := by
  split <;> infer_instance

instance (max : UInt64) : Measured (field max) := by
  rw [field_eq]
  infer_instance

theorem Measured.demand (value? : Option α) {error : DecodeError} (refusal : error.Refusal) :
    Measured (demand value? error) := by
  cases value? with
  | none => exact .refuse refusal
  | some value => exact .pure value

theorem Measured.tagged (width : Nat) (of? : Nat → Option α) {refuse : UInt64 → DecodeError}
    (refusal : ∀ tag, (refuse tag).Refusal) : Measured (tagged width of? refuse) :=
  .bind inferInstance fun tag => .demand _ (refusal tag)

/-! ### Records -/

instance : Measured version := .tagged _ _ fun _ => trivial
instance : Measured hashAlgorithm := .tagged _ _ fun _ => trivial
instance : Measured signatureAlgorithm := .tagged _ _ fun _ => trivial

instance : Measured digitallySigned := by
  unfold digitallySigned
  infer_instance

instance : Measured sct := by
  unfold sct
  infer_instance

instance : Measured entryType := .tagged _ _ fun _ => trivial
instance : Measured leafType := .tagged _ _ fun _ => trivial

instance : Measured precert := by
  unfold precert
  infer_instance

instance (type : EntryType) : Measured (signedEntry type) := by
  cases type
  · exact inferInstanceAs (Measured (_ <$> _))
  · exact inferInstanceAs (Measured (_ <$> _))

instance : Measured timestampedEntry := by
  unfold timestampedEntry
  infer_instance

instance : Measured leaf := by
  unfold leaf
  infer_instance

end Decoder

end Transparency.Wire
