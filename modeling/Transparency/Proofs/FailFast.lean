import Transparency.Proofs.Truncation

/-! Records are refused for their first unknown tag.

A record on the wire is a sequence of parts, and some of them are tags. The bytes of a record are `refused` at
the first tag that has no meaning: there the decoder stops, right behind the tag, and says what its value is.
Nothing else is refused, and no byte behind those that were read can change what came of them
(`fails_fast`). -/
namespace Transparency.Wire
variable {α β : Type}

/-! ### Parts -/

inductive Part where
  | fixed (width : Nat)
  /-- Data behind its length. -/
  | framed (max : UInt64)
  /-- A number that has a meaning up to `last`, and is refused above. -/
  | tag (width last : Nat) (refuse : Nat → DecodeError)

/-- The number that `width` bytes denote, from `offset` on. -/
def numberAt (bytes : Bytes) (offset width : Nat) : Nat := bigEndian ((bytes.drop offset).take width)

/-- Where the first unknown tag ends, and how it is refused, of parts that begin at `offset`. A tag that is cut
off is not known to be unknown. -/
def refused (bytes : Bytes) : (offset : Nat) → List Part → Option (Nat × DecodeError)
  | _, [] => none
  | offset, .fixed width :: rest => refused bytes (offset + width) rest
  | offset, .framed max :: rest =>
    let width := bytesNeeded max
    refused bytes (offset + width + numberAt bytes offset width) rest
  | offset, .tag width last refuse :: rest =>
    if bytes.length < offset + width then none
    else if last < numberAt bytes offset width then
      some (offset + width, refuse (numberAt bytes offset width))
    else refused bytes (offset + width) rest

/-- The width and the value of the tag that an error names. -/
def DecodeError.unknownTag? : DecodeError → Option (Nat × Nat)
  | .unsupportedVersion version => some (versionLength, version.toNat)
  | .unsupportedLeafType type => some (leafTypeLength, type.toNat)
  | .unknownEntryType type => some (entryTypeLength, type.toNat)
  | .unknownAlgorithm _ value => some (algorithmLength, value.toNat)
  | _ => none

/-- The refusal of a tag names that tag. -/
def Part.Telling : Part → Prop
  | .tag width _ refuse => ∀ value < 256 ^ width, (refuse value).unknownTag? = some (width, value)
  | .fixed _ | .framed _ => True

end Wire

open Wire

def DigitallySigned.parts : List Part :=
  [.tag algorithmLength 6 fun value => .unknownAlgorithm .hash (.ofNat value),
    .tag algorithmLength 3 fun value => .unknownAlgorithm .signature (.ofNat value),
    .framed maxSignatureLength]

def Sct.parts : List Part :=
  [.tag versionLength 0 fun value => .unsupportedVersion (.ofNat value), .fixed keyIdLength,
    .fixed timestampLength, .framed maxExtensionsLength] ++ DigitallySigned.parts

/-- What is behind its tag depends on it, but has no tags. -/
def TimestampedEntry.parts : List Part :=
  [.fixed timestampLength, .tag entryTypeLength 1 fun value => .unknownEntryType (.ofNat value)]

def Leaf.parts : List Part :=
  [.tag versionLength 0 fun value => .unsupportedVersion (.ofNat value),
    .tag leafTypeLength 0 fun value => .unsupportedLeafType (.ofNat value)] ++ TimestampedEntry.parts

namespace Wire
variable {α β : Type}

/-- `d` has come to its end as soon as its bytes are there, and is stopped by the first unknown tag alone. -/
structure FailsFast (d : Decoder α) (parts : List Part) : Prop where
  /-- More bytes change nothing, unless there were too few. -/
  keeps : ∀ bytes more : Bytes,
    (∀ expected actual, d.outcome (.ofBytes bytes) ≠ .error (.truncated expected actual)) →
      d.outcome (.ofBytes (bytes ++ more)) = d.outcome (.ofBytes bytes) ∧
        (d.after (.ofBytes (bytes ++ more))).position = (d.after (.ofBytes bytes)).position
  /-- The tag that an error names ends where the reader is. -/
  names_tag : ∀ (bytes : Bytes) (error : DecodeError),
    d.outcome (.ofBytes bytes) = .error error → (∀ expected actual, error ≠ .truncated expected actual) →
      ∃ offset width, error.unknownTag? = some (width, numberAt bytes offset width) ∧
        (d.after (.ofBytes bytes)).position = offset + width ∧ offset + width ≤ bytes.length
  /-- It is the first that is unknown. -/
  first : ∀ (bytes : Bytes) (error : DecodeError) (place : Nat),
    (d.outcome (.ofBytes bytes) = .error error ∧ (∀ expected actual, error ≠ .truncated expected actual) ∧
        (d.after (.ofBytes bytes)).position = place) ↔
      refused bytes 0 parts = some (place, error)

/-! ### Refusals in the parts -/

theorem numberAt_append (read left : Bytes) (width : Nat) :
    numberAt (read ++ left) read.length width = bigEndian (left.take width) := by
  rw [numberAt, List.drop_left' rfl]

/-- There are no tags past the end. -/
theorem refused_of_past {bytes : Bytes} {offset : Nat} (past : bytes.length < offset) (parts : List Part) :
    refused bytes offset parts = none := by
  induction parts generalizing offset with
  | nil => rfl
  | cons part rest ih =>
    cases part with
    | fixed width => exact ih (by omega)
    | framed max => exact ih (by omega)
    | tag width last refuse => rw [refused, if_pos (by omega)]

theorem numberAt_lt {bytes : Bytes} {offset width : Nat} (inside : offset + width ≤ bytes.length) :
    numberAt bytes offset width < 256 ^ width := by
  have small := bigEndian_lt ((bytes.drop offset).take width)
  rwa [List.length_take, List.length_drop, Nat.min_eq_left (by omega)] at small

/-- What is refused is a tag among the bytes, for its value. -/
theorem exists_tag_of_refused {bytes : Bytes} {offset place : Nat} {error : DecodeError} {parts : List Part}
    (h : refused bytes offset parts = some (place, error)) :
    ∃ width last refuse start, .tag width last refuse ∈ parts ∧ place = start + width ∧
      start + width ≤ bytes.length ∧ last < numberAt bytes start width ∧
        error = refuse (numberAt bytes start width) := by
  induction parts generalizing offset with
  | nil => cases h
  | cons part rest ih =>
    -- Unless this part is the one, it is among the others.
    have behind {offset : Nat} (h : refused bytes offset rest = some (place, error)) :
        ∃ width last refuse start, .tag width last refuse ∈ part :: rest ∧ place = start + width ∧
          start + width ≤ bytes.length ∧ last < numberAt bytes start width ∧
            error = refuse (numberAt bytes start width) := by
      obtain ⟨width, last, refuse, start, mem, others⟩ := ih h
      exact ⟨width, last, refuse, start, List.mem_cons_of_mem part mem, others⟩
    cases part with
    | fixed width => exact behind h
    | framed max => exact behind h
    | tag width last refuse =>
      rw [refused] at h
      split at h
      · cases h
      · rename_i inside
        split at h
        · rename_i unknown
          cases h
          exact ⟨width, last, refuse, offset, List.mem_cons_self, rfl, Nat.le_of_not_lt inside, unknown, rfl⟩
        · exact behind h

/-! ### Refusals of decoders -/

namespace Decoder

theorem Settles.outcome {d : Decoder α} {out : Except DecodeError α} {code : Bytes} (h : Settles d out code)
    (rest : Bytes) : d.outcome (.ofBytes (code ++ rest)) = out := by
  obtain ⟨s, run, -⟩ := h (.ofBytes (code ++ rest)) rest rfl
  exact outcome_of_leaving run

theorem Settles.position {d : Decoder α} {out : Except DecodeError α} {code : Bytes} (h : Settles d out code)
    (rest : Bytes) : (d.after (.ofBytes (code ++ rest))).position = code.length := by
  obtain ⟨s, run, passes⟩ := h (.ofBytes (code ++ rest)) rest rfl
  rw [after_of_leaving run, passes.position]
  exact Nat.zero_add _

theorem Decides.not_truncated {d : Decoder α} {error : DecodeError} {code : Bytes}
    (h : Decides d (.error error) code) (expected actual : Nat) : error ≠ .truncated expected actual := by
  intro truncated
  subst truncated
  exact h.judgement

/-- Bytes that are too few for a decoder begin with nothing that it decides on. -/
theorem Misses.not_decides {d : Decoder α} {expected actual : Nat} {code bytes : Bytes}
    (misses : Misses d expected actual bytes) (begins : code <+: bytes) (out : Except DecodeError α) :
    ¬ Decides d out code := by
  intro h
  obtain ⟨rest, rfl⟩ := begins
  have truncated := h.judgement
  rw [(h.settles.outcome rest).symm.trans misses.outcome] at truncated
  exact truncated

theorem decides_bind_error_iff {d : Decoder α} {f : α → Decoder β} [first : Measured d]
    [second : ∀ value, Measured (f value)] {error : DecodeError} {code : Bytes} :
    Decides (d >>= f) (.error error) code ↔
      Decides d (.error error) code ∨ ∃ a head tail, code = head ++ tail ∧ Decides d (.ok a) head ∧
        Decides (f a) (.error error) tail := by
  constructor
  · intro h
    rcases first.fate code with ⟨out, head, rest, rfl, decides⟩ | ⟨expected, actual, lacks⟩
    · cases out with
      | error error' =>
        obtain ⟨errors, codes⟩ := h.settles.unique decides.bind_error.settles (List.append_nil _)
        cases errors
        rw [codes]
        exact .inl decides
      | ok a =>
        rcases (second a).fate rest with ⟨out, tail, left, rfl, decides'⟩ | ⟨expected, actual, lacks⟩
        · have whole : head ++ (tail ++ left) ++ [] = head ++ tail ++ left := by simp
          obtain ⟨errors, codes⟩ := h.settles.unique (decides.bind decides').settles whole
          rw [← errors] at decides'
          exact .inr ⟨a, head, tail, codes, decides, decides'⟩
        · exact absurd h ((decides.bind_misses lacks.misses).not_decides List.prefix_rfl _)
    · exact absurd h (lacks.misses.bind.not_decides List.prefix_rfl _)
  · intro parts
    rcases parts with decides | ⟨a, head, tail, rfl, decides, decides'⟩
    · exact decides.bind_error
    · exact decides.bind decides'

/-- `d` never refuses what it reads. -/
def Lenient (d : Decoder α) : Prop := ∀ error code, ¬ Decides d (.error error) code

theorem lenient_pure (value : α) : Lenient (pure value : Decoder α) := by
  intro error code h
  cases (h.settles.unique (decides_pure value).settles (List.append_nil code)).1

theorem lenient_noteAt (n : Nat → Note) : Lenient (noteAt n) := by
  intro error code h
  cases (h.settles.unique (decides_noteAt n).settles (List.append_nil code)).1

theorem Reads.lenient {d : Decoder α} {width : Nat} (reads : Reads d width) : Lenient d := by
  intro error code h
  by_cases short : code.length < width
  · exact (reads.misses code short).not_decides List.prefix_rfl _ h
  · obtain ⟨value, decides⟩ := reads.decides (code.take width) (List.length_take_of_le (by omega))
    have same : code ++ [] = code.take width ++ code.drop width := by simp
    cases (h.settles.unique decides.settles same).1

theorem Lenient.bind {d : Decoder α} {f : α → Decoder β} [Measured d] [∀ value, Measured (f value)]
    (first : Lenient d) (second : ∀ value, Lenient (f value)) : Lenient (d >>= f) := by
  intro error code h
  rcases decides_bind_error_iff.1 h with decides | ⟨a, head, tail, -, -, decides⟩
  · exact first error code decides
  · exact second a error tail decides

theorem Lenient.map {d : Decoder α} [Measured d] (h : Lenient d) (f : α → β) : Lenient (f <$> d) :=
  Lenient.bind (f := fun value => pure (f value)) h fun _ => lenient_pure _

theorem lenient_bytes (n : Nat) : Lenient (bytes n) :=
  Lenient.bind (reads_block n).lenient fun b => lenient_pure b.1

/-- No length is over a maximum that fills the width of its length. -/
theorem lenient_field {max : UInt64} (full : max.toNat + 1 = 256 ^ bytesNeeded max) :
    Lenient (field max) := by
  intro error code h
  have reads := reads_number (bytesNeeded_le max)
  rw [field_eq] at h
  rcases decides_bind_error_iff.1 h with refusal | ⟨length, head, tail, -, prefixed, decides⟩
  · exact reads.lenient error code refusal
  · obtain ⟨width, toNat⟩ := (settles_number_iff (bytesNeeded_le max)).1 prefixed.settles
    have small := bigEndian_lt head
    rw [width, ← full, ← toNat] at small
    rw [if_neg (by rw [UInt64.lt_iff_toNat_lt]; omega)] at decides
    exact Lenient.bind (lenient_noteAt _) (fun _ => lenient_bytes _) _ _ decides

/-! ### Decoders and their parts -/

/-- What `d` refuses is what is refused in the parts, with `read` before them. -/
def RefusedBy (d : Decoder α) (parts : List Part) : Prop :=
  ∀ (read left : Bytes) (error : DecodeError) (place : Nat),
    (∃ code rest, left = code ++ rest ∧ Decides d (.error error) code ∧ place = read.length + code.length) ↔
      refused (read ++ left) read.length parts = some (place, error)

/-- Too few bytes are not refused. -/
theorem Misses.not_refused {d : Decoder α} {expected actual place : Nat} {left read : Bytes}
    {error : DecodeError} (misses : Misses d expected actual left) :
    ¬ ∃ code rest, left = code ++ rest ∧ Decides d (.error error) code ∧ place = read.length + code.length := by
  intro parts
  obtain ⟨code, rest, rfl, decides, -⟩ := parts
  exact misses.not_decides (List.prefix_append code rest) _ decides

theorem RefusedBy.of_lenient {d : Decoder α} (h : Lenient d) : RefusedBy d [] := by
  intro read left error place
  constructor
  · intro parts
    obtain ⟨code, rest, -, decides, -⟩ := parts
    exact absurd decides (h error code)
  · intro none
    cases none

section
variable {d : Decoder α} {f : α → Decoder β} [Measured d] [∀ value, Measured (f value)] {parts : List Part}

/-- What follows a part that is there. -/
theorem RefusedBy.behind {value : α} {head : Bytes} (first : Decides d (.ok value) head)
    (others : RefusedBy (f value) parts) (read left : Bytes) (error : DecodeError) (place : Nat) :
    (∃ code rest, head ++ left = code ++ rest ∧ Decides (d >>= f) (.error error) code ∧
        place = read.length + code.length) ↔
      refused (read ++ (head ++ left)) (read.length + head.length) parts = some (place, error) := by
  have next := others (read ++ head) left error place
  rw [List.append_assoc, List.length_append] at next
  rw [← next]
  constructor
  · intro found
    obtain ⟨code, rest, same, decides, rfl⟩ := found
    rcases decides_bind_error_iff.1 decides with refusal | ⟨a, head', tail, rfl, first', decides'⟩
    · cases (first.settles.unique refusal.settles same).1
    · rw [List.append_assoc] at same
      obtain ⟨values, rfl⟩ := first.settles.unique first'.settles same
      cases values
      exact ⟨tail, rest, List.append_cancel_left same, decides',
        by rw [List.length_append, Nat.add_assoc]⟩
  · intro found
    obtain ⟨code, rest, rfl, decides, rfl⟩ := found
    exact ⟨head ++ code, rest, (List.append_assoc ..).symm, first.bind decides,
      by rw [List.length_append, Nat.add_assoc]⟩

theorem refusedBy_fixed {width : Nat} (reads : Reads d width) (others : ∀ value, RefusedBy (f value) parts) :
    RefusedBy (d >>= f) (.fixed width :: parts) := by
  intro read left error place
  rw [refused]
  by_cases short : left.length < width
  · rw [refused_of_past (by rw [List.length_append]; omega)]
    exact iff_of_false (reads.misses left short).bind.not_refused (fun none => Option.some_ne_none _ none.symm)
  · have full : (left.take width).length = width := List.length_take_of_le (by omega)
    obtain ⟨value, decides⟩ := reads.decides _ full
    have next := RefusedBy.behind decides (others value) read (left.drop width) error place
    rwa [List.take_append_drop, full] at next

end

/-- Bytes that go as far as the length at their beginning says begin with a field. -/
theorem exists_framed {max : UInt64} (full : max.toNat + 1 = 256 ^ bytesNeeded max) {left : Bytes}
    (enough : bytesNeeded max + bigEndian (left.take (bytesNeeded max)) ≤ left.length) :
    ∃ data rest, left = framed max data ++ rest ∧ data.length ≤ max.toNat := by
  have width : (left.take (bytesNeeded max)).length = bytesNeeded max := List.length_take_of_le (by omega)
  have small := bigEndian_lt (left.take (bytesNeeded max))
  rw [width, ← full] at small
  generalize count : bigEndian (left.take (bytesNeeded max)) = n at enough small
  have length : ((left.drop (bytesNeeded max)).take n).length = n :=
    List.length_take_of_le (by rw [List.length_drop]; omega)
  refine ⟨(left.drop (bytesNeeded max)).take n, (left.drop (bytesNeeded max)).drop n, ?_, by omega⟩
  rw [framed, length, ← eq_digits_of_bigEndian width count, List.append_assoc, List.take_append_drop,
    List.take_append_drop]

section
variable {f : Bytes → Decoder β} [∀ value, Measured (f value)] {parts : List Part}

theorem refusedBy_framed {max : UInt64} (full : max.toNat + 1 = 256 ^ bytesNeeded max)
    (others : ∀ data, RefusedBy (f data) parts) : RefusedBy (field max >>= f) (.framed max :: parts) := by
  intro read left error place
  rw [refused, numberAt_append]
  rcases Measured.fate (d := field max) inferInstance left with
    ⟨out, code, rest, rfl, decides⟩ | ⟨expected, actual, lacks⟩
  · cases out with
    | error refusal => exact absurd decides (lenient_field full _ _)
    | ok data =>
      obtain ⟨fits, rfl⟩ := settles_field_iff.1 decides.settles
      have next := RefusedBy.behind decides (others data) read rest error place
      have width : (digits (bytesNeeded max) data.length).length = bytesNeeded max := length_digits _ _
      have length : bigEndian ((framed max data ++ rest).take (bytesNeeded max)) = data.length := by
        rw [framed, List.append_assoc, List.take_left' width,
          bigEndian_digits (lt_pow_bytesNeeded fits)]
      rwa [length_framed, ← Nat.add_assoc, ← length] at next
  · have past : left.length < bytesNeeded max + bigEndian (left.take (bytesNeeded max)) := by
      refine Nat.lt_of_not_le fun enough => ?_
      obtain ⟨data, rest, rfl, fits⟩ := exists_framed full enough
      have settles := settles_field_iff.2 ⟨fits, rfl⟩
      cases (settles.outcome rest).symm.trans lacks.misses.outcome
    rw [refused_of_past (by rw [List.length_append]; omega)]
    exact iff_of_false lacks.misses.bind.not_refused (fun none => Option.some_ne_none _ none.symm)

end

/-- A tag of a known number of bytes is judged by the number that they denote. -/
theorem decides_tagged (of? : Nat → Option α) {refuse : UInt64 → DecodeError}
    (refusal : ∀ tag, (refuse tag).Refusal) {code : Bytes} (narrow : code.length ≤ maxNumberWidth) :
    ∃ word : UInt64, word.toNat = bigEndian code ∧
      Decides (tagged code.length of? refuse) ((of? word.toNat).elim (.error (refuse word)) .ok) code := by
  refine ⟨code.foldl pushByte 0, toNat_foldl_pushByte_zero narrow, ?_⟩
  have judged (word : UInt64) : Decides (demand (of? word.toNat) (refuse word))
      ((of? word.toNat).elim (.error (refuse word)) .ok) [] := by
    cases of? word.toNat with
    | none => exact decides_throw (refusal word)
    | some value => exact decides_pure value
  have decides := (decides_number narrow).bind (f := fun tag => demand (of? tag.toNat) (refuse tag)) (judged _)
  rwa [List.append_nil] at decides

/-- A tag that has a meaning up to `last`. The two refusals are one, of a word and of its number. -/
theorem refusedBy_tagged {width last : Nat} {of? : Nat → Option α} {refuse : UInt64 → DecodeError}
    {refuseNumber : Nat → DecodeError} {f : α → Decoder β} [∀ value, Measured (f value)] {parts : List Part}
    (narrow : width ≤ maxNumberWidth) (unknown : ∀ n, of? n = none ↔ last < n)
    (refusal : ∀ tag, (refuse tag).Refusal) (same : ∀ tag : UInt64, refuseNumber tag.toNat = refuse tag)
    (others : ∀ value, RefusedBy (f value) parts) :
    RefusedBy (tagged width of? refuse >>= f) (.tag width last refuseNumber :: parts) := by
  intro read left error place
  have measured : Measured (tagged width of? refuse) := .tagged width of? refusal
  rw [refused, numberAt_append, List.length_append]
  by_cases short : left.length < width
  · rw [if_pos (by omega)]
    have misses := (reads_number narrow).misses left short
    exact iff_of_false misses.bind.bind.not_refused (fun none => Option.some_ne_none _ none.symm)
  · have full : (left.take width).length = width := List.length_take_of_le (by omega)
    obtain ⟨word, toNat, decides⟩ := decides_tagged of? refusal (Nat.le_trans (Nat.le_of_eq full) narrow)
    rw [full] at decides
    rw [if_neg (by omega), ← toNat, same]
    cases meaning : of? word.toNat with
    | none =>
      rw [if_pos ((unknown _).1 meaning)]
      rw [meaning] at decides
      constructor
      · intro found
        obtain ⟨code, rest, split, decides', rfl⟩ := found
        have whole : left.take width ++ left.drop width = code ++ rest := by rw [List.take_append_drop, split]
        obtain ⟨errors, rfl⟩ := decides.bind_error.settles.unique decides'.settles whole
        cases errors
        rw [full]
      · intro found
        cases found
        exact ⟨left.take width, left.drop width, (List.take_append_drop width left).symm, decides.bind_error,
          by rw [full]⟩
    | some value =>
      rw [if_neg (fun large => nomatch ((unknown _).2 large).symm.trans meaning)]
      rw [meaning] at decides
      have next := RefusedBy.behind decides (others value) read (left.drop width) error place
      rwa [List.take_append_drop, full] at next

/-- What comes behind the parts may be anything that is not refused. -/
theorem RefusedBy.bind_lenient {d : Decoder α} {f : α → Decoder β} [Measured d]
    [∀ value, Measured (f value)] {parts : List Part} (h : RefusedBy d parts)
    (lenient : ∀ value, Lenient (f value)) : RefusedBy (d >>= f) parts := by
  intro read left error place
  rw [← h read left error place]
  have same (code : Bytes) : Decides (d >>= f) (.error error) code ↔ Decides d (.error error) code := by
    rw [decides_bind_error_iff]
    exact or_iff_left fun parts => by
      obtain ⟨a, head, tail, -, -, decides⟩ := parts
      exact lenient a error tail decides
  simp only [same]

/-! ### Records -/

section
variable {f : Version → Decoder β} [∀ value, Measured (f value)] {parts : List Part}

theorem refusedBy_version (others : ∀ value, RefusedBy (f value) parts) :
    RefusedBy (version >>= f) (.tag versionLength 0 (fun n => .unsupportedVersion (.ofNat n)) :: parts) :=
  refusedBy_tagged (by decide) Version.ofTag?_eq_none_iff (fun _ => trivial)
    (fun tag => by rw [UInt64.ofNat_toNat]) others

end

theorem refusedBy_digitallySigned : RefusedBy digitallySigned DigitallySigned.parts := by
  unfold digitallySigned
  refine refusedBy_tagged (by decide) HashAlgorithm.ofTag?_eq_none_iff (fun _ => trivial) (fun _ => rfl)
    fun hashAlgorithm => ?_
  refine refusedBy_tagged (by decide) SignatureAlgorithm.ofTag?_eq_none_iff (fun _ => trivial) (fun _ => rfl)
    fun signatureAlgorithm => ?_
  exact refusedBy_framed (by decide) fun signature => .of_lenient (lenient_pure _)

theorem refusedBy_sct : RefusedBy sct Sct.parts := by
  unfold sct
  refine refusedBy_version fun version => ?_
  refine refusedBy_fixed (reads_block _) fun keyId => ?_
  refine refusedBy_fixed (reads_number (by decide)) fun timestamp => ?_
  refine refusedBy_framed (by decide) fun extensions => ?_
  refine refusedBy_digitallySigned.bind_lenient fun signature => ?_
  exact Lenient.bind (lenient_noteAt _) fun _ => lenient_pure _

theorem lenient_signedEntry (type : EntryType) : Lenient (signedEntry type) := by
  cases type with
  | x509 => exact (lenient_field (by decide)).map _
  | precert =>
    have precert : Lenient precert := Lenient.bind (reads_block _).lenient fun _ =>
      Lenient.bind (lenient_field (by decide)) fun _ => lenient_pure _
    exact precert.map _

theorem refusedBy_timestampedEntry : RefusedBy timestampedEntry TimestampedEntry.parts := by
  unfold timestampedEntry
  refine refusedBy_fixed (reads_number (by decide)) fun timestamp => ?_
  refine refusedBy_tagged (by decide) EntryType.ofTag?_eq_none_iff (fun _ => trivial)
    (fun tag => by rw [UInt64.ofNat_toNat]) fun type => ?_
  exact .of_lenient (Lenient.bind (lenient_signedEntry type) fun _ =>
    Lenient.bind (lenient_noteAt _) fun _ => lenient_pure _)

theorem refusedBy_leaf : RefusedBy leaf Leaf.parts := by
  unfold leaf
  refine refusedBy_version fun version => ?_
  refine refusedBy_tagged (by decide) (fun n => ?_) (fun _ => trivial)
    (fun tag => by rw [UInt64.ofNat_toNat]) fun _ => ?_
  · split <;> rename_i known
    · simp [known, timestampedEntryLeafType]
    · simp only [timestampedEntryLeafType] at known
      simp only [true_iff]
      omega
  · exact refusedBy_timestampedEntry.bind_lenient fun _ => lenient_pure _

end Decoder

/-! ### Outcomes -/

namespace Decoder

theorem outcome_error_iff {d : Decoder α} [Measured d] {bytes : Bytes} {error : DecodeError} {place : Nat} :
    (d.outcome (.ofBytes bytes) = .error error ∧ (∀ expected actual, error ≠ .truncated expected actual) ∧
        (d.after (.ofBytes bytes)).position = place) ↔
      ∃ code rest, bytes = code ++ rest ∧ Decides d (.error error) code ∧ place = code.length := by
  constructor
  · intro parts
    obtain ⟨failed, enough, rfl⟩ := parts
    rcases Measured.run_ofBytes (d := d) (r := .ofBytes bytes) rfl with
      ⟨out, code, rest, s, rfl, decides, run, -, -⟩ | ⟨expected, actual, s, -, run, -⟩
    · obtain rfl : out = .error error := (outcome_of_leaving run).symm.trans failed
      exact ⟨code, rest, rfl, decides, decides.settles.position rest⟩
    · cases (outcome_of_error run).symm.trans failed
      exact absurd rfl (enough expected actual)
  · intro parts
    obtain ⟨code, rest, rfl, decides, rfl⟩ := parts
    exact ⟨decides.settles.outcome rest, decides.not_truncated, decides.settles.position rest⟩

end Decoder

theorem FailsFast.of_refusedBy {d : Decoder α} [Decoder.Measured d] {parts : List Part}
    (h : d.RefusedBy parts) (telling : ∀ part ∈ parts, part.Telling) : FailsFast d parts := by
  have first (bytes : Bytes) (error : DecodeError) (place : Nat) :
      (d.outcome (.ofBytes bytes) = .error error ∧ (∀ expected actual, error ≠ .truncated expected actual) ∧
        (d.after (.ofBytes bytes)).position = place) ↔ refused bytes 0 parts = some (place, error) := by
    have whole := h [] bytes error place
    rw [List.length_nil, List.nil_append] at whole
    rw [Decoder.outcome_error_iff, ← whole]
    simp only [Nat.zero_add]
  refine ⟨fun bytes more enough => ?_, fun bytes error failed enough => ?_, first⟩
  · rcases Decoder.Measured.run_ofBytes (d := d) (r := .ofBytes bytes) rfl with
      ⟨out, code, rest, s, rfl, decides, -⟩ | ⟨expected, actual, s, -, run, -⟩
    · rw [List.append_assoc, decides.settles.outcome, decides.settles.outcome, decides.settles.position,
        decides.settles.position]
      exact ⟨rfl, rfl⟩
    · exact absurd (Decoder.outcome_of_error run) (enough expected actual)
  · obtain ⟨width, last, refuse, start, mem, place, inside, -, rfl⟩ :=
      exists_tag_of_refused ((first bytes error _).1 ⟨failed, enough, rfl⟩)
    exact ⟨start, width, telling _ mem _ (numberAt_lt inside), place, inside⟩

/-! ### Refusals name their tags -/

theorem word_of_tag {width value : Nat} (narrow : width ≤ maxNumberWidth) (small : value < 256 ^ width) :
    (UInt64.ofNat value).toNat = value :=
  UInt64.toNat_ofNat_of_lt' (Nat.lt_of_lt_of_le small (Nat.pow_le_pow_right (by decide) narrow))

theorem telling_word {width last : Nat} {refuse : UInt64 → DecodeError} (narrow : width ≤ maxNumberWidth)
    (names : ∀ tag, (refuse tag).unknownTag? = some (width, tag.toNat)) :
    (Part.tag width last fun value => refuse (.ofNat value)).Telling := by
  intro value small
  rw [names, word_of_tag narrow small]

theorem telling_byte {last : Nat} (kind : AlgorithmKind) :
    (Part.tag algorithmLength last fun value => .unknownAlgorithm kind (.ofNat value)).Telling := by
  intro value small
  rw [DecodeError.unknownTag?, toNat_ofNat_byte small]

theorem telling_digitallySigned : ∀ part ∈ DigitallySigned.parts, part.Telling := by
  simp only [DigitallySigned.parts, List.forall_mem_cons]
  exact ⟨telling_byte .hash, telling_byte .signature, trivial, List.forall_mem_nil _⟩

theorem telling_sct : ∀ part ∈ Sct.parts, part.Telling := by
  simp only [Sct.parts, List.forall_mem_append, List.forall_mem_cons]
  exact ⟨⟨telling_word (by decide) fun _ => rfl, trivial, trivial, trivial, List.forall_mem_nil _⟩,
    telling_digitallySigned⟩

theorem telling_timestampedEntry : ∀ part ∈ TimestampedEntry.parts, part.Telling := by
  simp only [TimestampedEntry.parts, List.forall_mem_cons]
  exact ⟨trivial, telling_word (by decide) fun _ => rfl, List.forall_mem_nil _⟩

theorem telling_leaf : ∀ part ∈ Leaf.parts, part.Telling := by
  simp only [Leaf.parts, List.forall_mem_append, List.forall_mem_cons]
  exact ⟨⟨telling_word (by decide) fun _ => rfl, telling_word (by decide) fun _ => rfl,
    List.forall_mem_nil _⟩, telling_timestampedEntry⟩

/-- **Decoders of records fail fast**: they stop behind the first tag that is unknown and nowhere else, and
never look further than they have to. -/
theorem fails_fast :
    FailsFast Decoder.sct Sct.parts ∧ FailsFast Decoder.digitallySigned DigitallySigned.parts ∧
      FailsFast Decoder.leaf Leaf.parts ∧ FailsFast Decoder.timestampedEntry TimestampedEntry.parts :=
  ⟨.of_refusedBy Decoder.refusedBy_sct telling_sct,
    .of_refusedBy Decoder.refusedBy_digitallySigned telling_digitallySigned,
    .of_refusedBy Decoder.refusedBy_leaf telling_leaf,
    .of_refusedBy Decoder.refusedBy_timestampedEntry telling_timestampedEntry⟩

/-- A timestamp with an unknown hash algorithm, and with an unknown signature algorithm and a cut off signature
behind it. -/
theorem fails_fast_seven :
    let bytes : Bytes := 0 :: List.replicate 32 5 ++ [0, 0, 0, 0, 0, 0, 0, 9, 0, 0, 7, 9, 0]
    refused bytes 0 Sct.parts = some (44, .unknownAlgorithm .hash 7) ∧
      Decoder.sct.outcome (.ofBytes bytes) = .error (.unknownAlgorithm .hash 7) ∧
        (Decoder.sct.after (.ofBytes bytes)).position = 44 ∧
          Decoder.sct.outcome (.ofBytes (bytes ++ [5])) = .error (.unknownAlgorithm .hash 7) := by
  intro bytes
  obtain ⟨sct, -, -, -⟩ := fails_fast
  have bad : refused bytes 0 Sct.parts = some (44, .unknownAlgorithm .hash 7) := by decide +kernel
  obtain ⟨failed, enough, position⟩ := (sct.first bytes _ _).2 bad
  obtain ⟨kept, -⟩ := sct.keeps bytes [5] (by
    rw [failed]
    exact fun expected actual same => enough expected actual (Except.error.inj same))
  exact ⟨bad, failed, position, kept.trans failed⟩

end Wire

end Transparency
