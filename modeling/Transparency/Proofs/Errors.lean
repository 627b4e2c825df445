import Transparency.Proofs.Modes

/-! What decoding can fail with.

Each format has its errors: tags outside of their ranges, and too few bytes. Whatever its source, a decoder of
records fails with one of these or passes on a failure of the source; a decoder of chains says instead what
is wrong with the chain (`errors_of_format`). No other error of decoding ever comes of a record: the maximum
of each field is all that its length can say, every length is a size in memory, no number is too wide, and a chain is
of the type that its leaf calls for. -/
namespace Transparency.Wire
variable {α β : Type}

/-! ### The errors of each format -/

namespace DecodeError

def OfDigitallySigned : DecodeError → Prop
  | .unknownAlgorithm .hash value => 6 < value.toNat
  | .unknownAlgorithm .signature value => 3 < value.toNat
  | .truncated _ _ => True
  | _ => False

def OfSct : DecodeError → Prop
  | .unsupportedVersion version => 1 ≤ version.toNat ∧ version.toNat ≤ 255
  | error => error.OfDigitallySigned

def OfTimestampedEntry : DecodeError → Prop
  | .unknownEntryType type => 2 ≤ type.toNat ∧ type.toNat ≤ 65535
  | .truncated _ _ => True
  | _ => False

def OfLeaf : DecodeError → Prop
  | .unsupportedVersion version => 1 ≤ version.toNat ∧ version.toNat ≤ 255
  | .unsupportedLeafType type => 1 ≤ type.toNat ∧ type.toNat ≤ 255
  | error => error.OfTimestampedEntry

def OfChain (type : EntryType) : DecodeError → Prop
  | .corrupt (.chainUnreadable of _) | .corrupt (.chainTooLong of _) | .corrupt (.chainTooShort of _ _) =>
    of = type
  | .truncated _ _ => True
  | _ => False

/-- There is more behind the record. -/
def OfSurplus : DecodeError → Prop
  | .trailingData count => 1 ≤ count
  | _ => False

/-- The source has failed. -/
def OfSource : DecodeError → Prop
  | .io _ => True
  | _ => False

/-- Errors of reads, of audit paths and of pairs, which no format has. -/
def Foreign : DecodeError → Prop
  | .numberTooWide _ | .corrupt (.lengthOverMaximum _ _) | .corrupt (.lengthOverMemory _) | .node _
  | .typeMismatch _ | .endless => True
  | _ => False

theorem OfSct.of_digitallySigned {error : DecodeError} (h : error.OfDigitallySigned) : error.OfSct := by
  cases error with
  | unsupportedVersion => exact h.elim
  | _ => exact h

theorem OfLeaf.of_timestampedEntry {error : DecodeError} (h : error.OfTimestampedEntry) : error.OfLeaf := by
  cases error with
  | unsupportedVersion | unsupportedLeafType => exact h.elim
  | _ => exact h

theorem OfSct.not_foreign {error : DecodeError} (h : error.OfSct) : ¬ error.Foreign := by
  cases error with
  | numberTooWide | corrupt | node | typeMismatch | endless => exact h.elim
  | _ => exact id

theorem OfLeaf.not_foreign {error : DecodeError} (h : error.OfLeaf) : ¬ error.Foreign := by
  cases error with
  | numberTooWide | corrupt | node | typeMismatch | endless => exact h.elim
  | _ => exact id

theorem OfChain.not_foreign {type : EntryType} {error : DecodeError} (h : error.OfChain type) :
    ¬ error.Foreign := by
  cases error with
  | numberTooWide | node | typeMismatch | endless => exact h.elim
  | corrupt cause =>
    cases cause with
    | lengthOverMaximum | lengthOverMemory => exact h.elim
    | _ => exact id
  | _ => exact id

theorem OfSurplus.not_foreign {error : DecodeError} (h : error.OfSurplus) : ¬ error.Foreign := by
  cases error with
  | trailingData => exact id
  | _ => exact h.elim

theorem OfSource.not_foreign {error : DecodeError} (h : error.OfSource) : ¬ error.Foreign := by
  cases error with
  | io => exact id
  | _ => exact h.elim

end DecodeError

/-- An outcome that, if it is an error, is an allowed one. -/
structure FailsOnly (out : Except DecodeError α) (allowed : DecodeError → Prop) : Prop where
  allowed : ∀ error, out = .error error → allowed error
  not_foreign : ∀ error, out = .error error → ¬ error.Foreign

/-! ### Records -/

namespace Decoder

/-- Whatever the source does, a measured decoder decides, or it is short of bytes, or the source fails. -/
theorem Measured.run {d : Decoder α} (h : Measured d) (r : Reader) :
    (∃ out code s, Decides d out code ∧ d r = leaving out s) ∨
      (∃ expected actual s, d r = .error (.truncated expected actual) s) ∨
        ∃ error s, d r = .error (.io error) s := by
  induction h generalizing r with
  | pure value => exact .inl ⟨_, [], r, decides_pure value, rfl⟩
  | refuse refusal => exact .inl ⟨_, [], r, decides_throw refusal, rfl⟩
  | noteAt n => exact .inl ⟨_, [], _, decides_noteAt n, rfl⟩
  | @read _ d width reads =>
    cases r.source.meets width with
    | @filled code _ offers full =>
      obtain ⟨value, decides⟩ := reads.decides code full
      rw [← List.append_nil code] at offers
      obtain ⟨s, run, -⟩ := decides.run offers
      exact .inl ⟨_, code, s, decides, run⟩
    | ended offers short ends =>
      obtain ⟨s, run, -⟩ := (reads.misses _ short).ended offers ends
      exact .inr (.inl ⟨_, _, s, run⟩)
    | failed offers short fails =>
      obtain ⟨s, run, -⟩ := (reads.misses _ short).failed offers fails
      exact .inr (.inr ⟨_, s, run⟩)
  | bind _ _ first second =>
    rcases first r with ⟨out, code, m, decides, run⟩ | ⟨expected, actual, s, run⟩ | ⟨error, s, run⟩
    · cases out with
      | error error => exact .inl ⟨_, code, m, decides.bind_error, bind_of_error run⟩
      | ok value =>
        rcases second value m with ⟨out, code', s, decides', run'⟩ | ⟨expected, actual, s, run'⟩ |
          ⟨error, s, run'⟩
        · exact .inl ⟨out, code ++ code', s, decides.bind decides', (bind_of_ok run).trans run'⟩
        · exact .inr (.inl ⟨expected, actual, s, (bind_of_ok run).trans run'⟩)
        · exact .inr (.inr ⟨error, s, (bind_of_ok run).trans run'⟩)
    · exact .inr (.inl ⟨expected, actual, s, bind_of_error run⟩)
    · exact .inr (.inr ⟨error, s, bind_of_error run⟩)

/-- A byte string never fails. -/
theorem Measured.not_ofSource {d : Decoder α} [Measured d] {r : Reader} {bytes : Bytes} {error : DecodeError}
    (source : r.source = .ofBytes bytes) (failed : d.outcome r = .error error) : ¬ error.OfSource := by
  have flaw := Measured.flaw source (run_of_outcome failed)
  intro fails
  cases error with
  | io error => exact flaw
  | _ => exact fails

end Decoder

/-- What the part can be refused for is allowed. -/
def Part.RefusesIn (allowed : DecodeError → Prop) : Part → Prop
  | .tag width last refuse => ∀ value, last < value → value < 256 ^ width → allowed (refuse value)
  | .fixed _ | .framed _ => True

/-- The errors that are allowed for these parts: for each tag its refusals, for all of them too few bytes. -/
structure Format (allowed : DecodeError → Prop) (parts : List Part) : Prop where
  tags : ∀ part ∈ parts, part.RefusesIn allowed
  short : ∀ expected actual, allowed (.truncated expected actual)
  not_foreign : ∀ {error}, allowed error → ¬ error.Foreign

section
variable {d : Decoder α} [Decoder.Measured d] {parts : List Part} {allowed : DecodeError → Prop}

/-- What is not a refusal of a tag is a lack of bytes or a failure. -/
theorem Format.error (format : Format allowed parts) (h : d.RefusedBy parts) {r : Reader} {error : DecodeError}
    (failed : d.outcome r = .error error) : allowed error ∨ error.OfSource := by
  rcases Decoder.Measured.run (d := d) inferInstance r with
    ⟨out, code, s, decides, run⟩ | ⟨expected, actual, s, run⟩ | ⟨cause, s, run⟩
  · obtain rfl : out = .error error := (Decoder.outcome_of_leaving run).symm.trans failed
    have first := (h [] code error code.length).1 ⟨code, [], (List.append_nil code).symm, decides, by simp⟩
    obtain ⟨width, last, refuse, start, mem, -, inside, unknown, rfl⟩ := exists_tag_of_refused first
    exact .inl (format.tags _ mem _ unknown (numberAt_lt inside))
  · cases (Decoder.outcome_of_error run).symm.trans failed
    exact .inl (format.short expected actual)
  · cases (Decoder.outcome_of_error run).symm.trans failed
    exact .inr trivial

theorem Format.error_ofBytes (format : Format allowed parts) (h : d.RefusedBy parts) {r : Reader}
    {bytes : Bytes} {error : DecodeError} (source : r.source = .ofBytes bytes)
    (failed : d.outcome r = .error error) : allowed error :=
  (format.error h failed).resolve_right (Decoder.Measured.not_ofSource source failed)

end

/-! ### The format of each record -/

theorem Part.RefusesIn.mono {part : Part} {allowed allowed' : DecodeError → Prop} (h : part.RefusesIn allowed)
    (weaker : ∀ {error}, allowed error → allowed' error) : part.RefusesIn allowed' := by
  cases part with
  | tag width last refuse => exact fun value unknown small => weaker (h value unknown small)
  | _ => trivial

theorem format_digitallySigned : Format DecodeError.OfDigitallySigned DigitallySigned.parts where
  tags := by
    have byte (value : Nat) (small : value < 256 ^ algorithmLength) : (UInt8.ofNat value).toNat = value :=
      toNat_ofNat_byte small
    simp only [DigitallySigned.parts, List.forall_mem_cons]
    refine ⟨fun value unknown small => ?_, fun value unknown small => ?_, trivial, List.forall_mem_nil _⟩
    · rwa [DecodeError.OfDigitallySigned, byte value small]
    · rwa [DecodeError.OfDigitallySigned, byte value small]
  short _ _ := trivial
  not_foreign h := (DecodeError.OfSct.of_digitallySigned h).not_foreign

theorem format_sct : Format DecodeError.OfSct Sct.parts where
  tags := by
    simp only [Sct.parts, List.forall_mem_append, List.forall_mem_cons]
    refine ⟨⟨fun value unknown small => ?_, trivial, trivial, trivial, List.forall_mem_nil _⟩,
      fun part mem => (format_digitallySigned.tags part mem).mono .of_digitallySigned⟩
    rw [DecodeError.OfSct, word_of_tag (by decide) small]
    exact ⟨unknown, Nat.le_of_lt_succ small⟩
  short _ _ := trivial
  not_foreign h := h.not_foreign

theorem format_timestampedEntry : Format DecodeError.OfTimestampedEntry TimestampedEntry.parts where
  tags := by
    simp only [TimestampedEntry.parts, List.forall_mem_cons]
    refine ⟨trivial, fun value unknown small => ?_, List.forall_mem_nil _⟩
    rw [DecodeError.OfTimestampedEntry, word_of_tag (by decide) small]
    exact ⟨unknown, Nat.le_of_lt_succ small⟩
  short _ _ := trivial
  not_foreign h := (DecodeError.OfLeaf.of_timestampedEntry h).not_foreign

theorem format_leaf : Format DecodeError.OfLeaf Leaf.parts where
  tags := by
    simp only [Leaf.parts, List.forall_mem_append, List.forall_mem_cons]
    refine ⟨⟨fun value unknown small => ?_, fun value unknown small => ?_, List.forall_mem_nil _⟩,
      fun part mem => (format_timestampedEntry.tags part mem).mono .of_timestampedEntry⟩
    · rw [DecodeError.OfLeaf, word_of_tag (by decide) small]
      exact ⟨unknown, Nat.le_of_lt_succ small⟩
    · rw [DecodeError.OfLeaf, word_of_tag (by decide) small]
      exact ⟨unknown, Nat.le_of_lt_succ small⟩
  short _ _ := trivial
  not_foreign h := h.not_foreign

/-- A chain has no tags. -/
theorem format_chain (type : EntryType) : Format (DecodeError.OfChain type) [] where
  tags := List.forall_mem_nil _
  short _ _ := trivial
  not_foreign h := h.not_foreign

/-! ### Chains -/

namespace Decoder

/-- In a chain a failure of the source is a corruption. -/
theorem ofChain_error {type : EntryType} {d : Decoder α} {r s : Reader} {error : DecodeError}
    (each : ∀ {error s}, d r = .error error s → error.OfChain type ∨ error.OfSource)
    (run : ofChain type d r = .error error s) : error.OfChain type := by
  cases inside : d r with
  | ok value m =>
    rw [ofChain, inside] at run
    cases run
  | error error' m =>
    cases error' with
    | io cause =>
      cases (ofChain_of_io inside).symm.trans run
      rfl
    | _ =>
      simp only [ofChain, inside] at run
      cases run
      exact (each inside).resolve_right id

theorem upTo_error {n : Nat} {r s : Reader} {error : DecodeError} (run : upTo n r = .error error s) :
    error.OfSource := by
  simp only [upTo] at run
  split at run
  · cases run
    trivial
  · cases run
  · cases run

/-- Certificates in memory can only be too short. -/
theorem fields_ofChain {max : UInt64} (full : max.toNat + 1 = 256 ^ bytesNeeded max) (type : EntryType)
    {bound : Nat} {done : List Bytes} {body : Bytes} {r s : Reader} {error : DecodeError}
    (source : r.source = .ofBytes body) (run : fields max bound done r = .error error s) :
    error.OfChain type := by
  obtain ⟨m, body', source', failed⟩ := fields_error source run
  exact (format_chain type).error_ofBytes (.of_lenient (lenient_field full)) source' (outcome_of_error failed)

theorem certificates_error {type : EntryType} {r : Reader} {error : DecodeError}
    (failed : (certificates type).outcome r = .error error) : error.OfChain type := by
  obtain ⟨s, run⟩ : ∃ s, certificates type r = .error error s := ⟨_, run_of_outcome failed⟩
  have number {error : DecodeError} {s : Reader}
      (run : number (bytesNeeded maxChainLength) r = .error error s) :
      error.OfChain type ∨ error.OfSource :=
    (format_chain type).error (.of_lenient (reads_number (by decide)).lenient) (outcome_of_error run)
  rcases error_of_bind run with first | ⟨declared, m, -, run⟩
  · exact ofChain_error number first
  rcases error_of_bind run with second | ⟨body, m', -, run⟩
  · exact ofChain_error (fun run => .inr (upTo_error run)) second
  split at run
  · cases run
    rfl
  split at run
  · cases run
    rfl
  rcases error_of_bind run with inside | ⟨chain, m'', -, run⟩
  · obtain ⟨notes, ⟨value, inner, -, run⟩ | ⟨error', inner, failed, run⟩⟩ :=
      within_cases body (fields maxCertificateLength body.length []) m'
    · cases run.symm.trans inside
    · cases run.symm.trans inside
      exact fields_ofChain (by decide) type rfl failed
  · cases run

theorem x509Chain_error {certificate : Bytes} {r : Reader} {error : DecodeError}
    (failed : (x509Chain certificate).outcome r = .error error) : error.OfChain .x509 := by
  rw [x509Chain_eq_map, outcome_map] at failed
  exact certificates_error (map_eq_error_iff.1 failed)

theorem precertChain_error {p : Precert} {r : Reader} {error : DecodeError}
    (failed : (precertChain p).outcome r = .error error) : error.OfChain .precert := by
  rw [precertChain_eq_map, outcome_map] at failed
  exact certificates_error (map_eq_error_iff.1 failed)

theorem chain_error {entry : SignedEntry} {r : Reader} {error : DecodeError}
    (failed : (chain entry).outcome r = .error error) : error.OfChain entry.entryType := by
  cases entry with
  | x509 certificate => exact x509Chain_error (map_eq_error_iff.1 ((outcome_map _ _ r).symm.trans failed))
  | precert p => exact precertChain_error (map_eq_error_iff.1 ((outcome_map _ _ r).symm.trans failed))

end Decoder

/-! ### Entries -/

/-- An entry from two readers fails as its leaf does, or as the chain that the leaf calls for. -/
theorem readEntry_error {leaves chains : Reader} {error : DecodeError}
    (failed : (readEntry leaves chains).result = .error error) :
    Decoder.leaf.outcome leaves = .error error ∨ ∃ l, Decoder.leaf.outcome leaves = .ok l ∧
      (Decoder.chain l.timestampedEntry.signedEntry).outcome chains = .error error := by
  cases decoded : Decoder.leaf.outcome leaves with
  | error error' =>
    rw [readEntry_of_leaf_error decoded] at failed
    cases failed
    exact .inl rfl
  | ok l =>
    cases followed : (Decoder.chain l.timestampedEntry.signedEntry).outcome chains with
    | error error' =>
      rw [readEntry_of_chain_error decoded followed] at failed
      cases failed
      exact .inr ⟨l, rfl, followed⟩
    | ok c =>
      rw [readEntry_of_ok decoded followed] at failed
      cases failed

/-- In memory, what is left behind an entry is left behind its leaf. -/
theorem decodeEntry_error {trailing : Trailing} {leafInput extraData : Bytes} {error : DecodeError}
    (failed : (decodeEntry trailing leafInput extraData).result = .error error) :
    (decodeLeaf trailing leafInput).result = .error error ∨
      ∃ l, Decoder.leaf.outcome (.ofBytes leafInput) = .ok l ∧
        (Decoder.chain l.timestampedEntry.signedEntry).outcome (.ofBytes extraData) = .error error := by
  have leaf : (decodeLeaf trailing leafInput).result = .error error ↔ _ :=
    (examines_decode Decoder.leaf).failed_iff
  rcases (examines_decodeEntry extraData).failed_iff.1 failed with unread | ⟨l, decoded, rejected | ⟨-, surplus⟩⟩
  · exact .inl (leaf.2 (.inl unread))
  · rcases entryOf_cases extraData l with ⟨error', selected, rejected'⟩ | ⟨chain, agree, -, paired⟩
    · cases rejected'.symm.trans rejected
      exact .inr ⟨l, decoded, (Decoder.chain_outcome _ _).trans selected⟩
    · cases paired.symm.trans rejected
  · exact .inl (leaf.2 (.inr ⟨l, decoded, .inr ⟨⟨l, rfl⟩, surplus⟩⟩))

/-! ### Errors of the formats -/

section
variable {d : Decoder α} [Decoder.Measured d] {parts : List Part} {allowed : DecodeError → Prop}

/-- A record fails with the errors of its format, or as its source does. -/
theorem Format.failsOnly (format : Format allowed parts) (h : d.RefusedBy parts) (r : Reader) :
    FailsOnly (d.outcome r) fun error => allowed error ∨ error.OfSource where
  allowed _ failed := format.error h failed
  not_foreign _ failed := (format.error h failed).elim format.not_foreign DecodeError.OfSource.not_foreign

/-- As a whole byte string, it fails with those errors or because there is more. -/
theorem Format.decode_failsOnly (format : Format allowed parts) (h : d.RefusedBy parts) (trailing : Trailing)
    (bytes : Bytes) :
    FailsOnly (d.decode trailing bytes).result fun error => allowed error ∨ error.OfSurplus := by
  have kind (error : DecodeError) (failed : (d.decode trailing bytes).result = .error error) :
      allowed error ∨ error.OfSurplus := by
    rcases (examines_decode d).failed_iff.1 failed with unread | ⟨a, -, rejected | ⟨-, -, more, rfl⟩⟩
    · exact .inl (format.error_ofBytes h rfl unread)
    · cases rejected
    · exact .inr (Nat.pos_of_ne_zero more)
  exact ⟨kind, fun error failed =>
    (kind error failed).elim format.not_foreign DecodeError.OfSurplus.not_foreign⟩

end

theorem FailsOnly.of_chain {out : Except DecodeError α} {type : EntryType}
    (h : ∀ {error}, out = .error error → error.OfChain type) : FailsOnly out (DecodeError.OfChain type) where
  allowed _ := h
  not_foreign _ failed := (h failed).not_foreign

/-- **Decoding fails only with the errors of its format.** -/
theorem errors_of_format :
    (∀ trailing bytes, FailsOnly (decodeSct trailing bytes).result fun error =>
      error.OfSct ∨ error.OfSurplus) ∧
    (∀ trailing bytes, FailsOnly (decodeLeaf trailing bytes).result fun error =>
      error.OfLeaf ∨ error.OfSurplus) ∧
    (∀ trailing leafInput extraData, FailsOnly (decodeEntry trailing leafInput extraData).result fun error =>
      (decodeLeaf trailing leafInput).result = .error error ∨
        ∃ l, Decoder.leaf.outcome (.ofBytes leafInput) = .ok l ∧
          (Decoder.chain l.timestampedEntry.signedEntry).outcome (.ofBytes extraData) = .error error) ∧
    (∀ leaves chains, FailsOnly (readEntry leaves chains).result fun error =>
      Decoder.leaf.outcome leaves = .error error ∨
        ∃ l, Decoder.leaf.outcome leaves = .ok l ∧
          (Decoder.chain l.timestampedEntry.signedEntry).outcome chains = .error error) ∧
    ∀ r : Reader,
      (∀ certificate, FailsOnly ((Decoder.x509Chain certificate).outcome r) (DecodeError.OfChain .x509)) ∧
      (∀ p, FailsOnly ((Decoder.precertChain p).outcome r) (DecodeError.OfChain .precert)) ∧
      FailsOnly (Decoder.sct.outcome r) (fun error => error.OfSct ∨ error.OfSource) ∧
      FailsOnly (Decoder.digitallySigned.outcome r) (fun error => error.OfDigitallySigned ∨ error.OfSource) ∧
      FailsOnly (Decoder.leaf.outcome r) (fun error => error.OfLeaf ∨ error.OfSource) ∧
      FailsOnly (Decoder.timestampedEntry.outcome r)
        (fun error => error.OfTimestampedEntry ∨ error.OfSource) := by
  have leaf := format_leaf.failsOnly Decoder.refusedBy_leaf
  have leafInput := format_leaf.decode_failsOnly Decoder.refusedBy_leaf
  refine ⟨format_sct.decode_failsOnly Decoder.refusedBy_sct, leafInput,
    fun trailing leaves chains => ⟨fun _ => decodeEntry_error, fun error failed => ?_⟩,
    fun leaves chains => ⟨fun _ => readEntry_error, fun error failed => ?_⟩,
    fun r => ⟨fun _ => .of_chain Decoder.x509Chain_error, fun _ => .of_chain Decoder.precertChain_error,
      format_sct.failsOnly Decoder.refusedBy_sct r,
      format_digitallySigned.failsOnly Decoder.refusedBy_digitallySigned r, leaf r,
      format_timestampedEntry.failsOnly Decoder.refusedBy_timestampedEntry r⟩⟩
  · rcases decodeEntry_error failed with atLeaf | ⟨l, -, atChain⟩
    · exact (leafInput trailing leaves).not_foreign error atLeaf
    · exact (Decoder.chain_error atChain).not_foreign
  · rcases readEntry_error failed with atLeaf | ⟨l, -, atChain⟩
    · exact (leaf leaves).not_foreign error atLeaf
    · exact (Decoder.chain_error atChain).not_foreign

/-- A version that is not supported, a tag that is cut off by a failure, and a chain that is. -/
theorem errors_of_format_three :
    let reset : IoError := ⟨.connectionReset, "connection reset"⟩
    let source : Source := ⟨[.data [0], .fail reset], .endOfInput⟩
    ((decodeSct .allowed [3]).result = .error (.unsupportedVersion 3) ∧
        (1 ≤ (3 : UInt64).toNat ∧ (3 : UInt64).toNat ≤ 255)) ∧
      (Decoder.leaf.outcome {source} = .error (.io reset) ∧
        ((DecodeError.io reset).OfLeaf ∨ (DecodeError.io reset).OfSource)) ∧
      ((Decoder.x509Chain []).outcome {source} = .error (.corrupt (.chainUnreadable .x509 "connection reset")) ∧
        ¬ (DecodeError.corrupt (.chainUnreadable .x509 "connection reset")).Foreign) := by
  intro reset source
  obtain ⟨sct, -, -, -, readers⟩ := errors_of_format
  obtain ⟨x509, -, -, -, leaf, -⟩ := readers {source}
  have version : (decodeSct .allowed [3]).result = .error (.unsupportedVersion 3) := rfl
  have failed : Decoder.leaf.outcome {source} = .error (.io reset) := rfl
  have unreadable : (Decoder.x509Chain []).outcome {source} =
      .error (.corrupt (.chainUnreadable .x509 "connection reset")) := rfl
  exact ⟨⟨version, ((sct .allowed [3]).allowed _ version).resolve_right id⟩, ⟨failed, leaf.allowed _ failed⟩,
    unreadable, (x509 []).not_foreign _ unreadable⟩

end Transparency.Wire
