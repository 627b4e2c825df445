import Transparency.Proofs.Layout
import Transparency.Proofs.Settling

/-! The grammars of the decoders.

Each decoder of a record settles on a value exactly after the bytes that the format lays out for it,
and only on values that fit. -/
namespace Transparency.Wire.Decoder
variable {α : Type}

/-! ### Drawing -/

/-- A draw from a byte string never fails. -/
theorem upTo_ofBytes {r : Reader} {bytes : Bytes} (n : Nat) (h : r.source = .ofBytes bytes) :
    ∃ s, upTo n r = .ok (bytes.take n) s ∧ r.Passes (bytes.take n) (bytes.drop n) s := by
  refine ⟨{r with source := .ofBytes (bytes.drop n), position := r.position + (bytes.take n).length},
    ?_, rfl, rfl, rfl⟩
  simp only [upTo, h, Source.draw_ofBytes]
  by_cases full : n ≤ bytes.length
  · rw [if_pos full]
  · rw [if_neg full]

theorem Reads.length_eq {d : Decoder α} {width : Nat} (reads : Reads d width) {value : α} {code : Bytes}
    (h : Settles d (.ok value) code) : code.length = width := by
  by_cases short : code.length < width
  · exact absurd h (reads.misses code short).starves.not_settles
  · have full : (code.take width).length = width := List.length_take_of_le (by omega)
    obtain ⟨value', decides⟩ := reads.decides _ full
    have same : code ++ [] = code.take width ++ code.drop width := by simp
    rw [(h.unique decides.settles same).2, full]

/-! ### Blocks -/

theorem settles_block_iff {n : Nat} {b : Block n} {code : Bytes} :
    Settles (block n) (.ok b) code ↔ code = b.1 := by
  constructor
  · intro h
    have full := (reads_block n).length_eq h
    rw [h.value_unique (decides_block ⟨code, full⟩).settles]
  · intro same
    subst same
    exact (decides_block b).settles

theorem settles_bytes_iff {n : Nat} {data code : Bytes} :
    Settles (bytes n) (.ok data) code ↔ data.length = n ∧ code = data := by
  simp only [bytes, settles_bind_iff, settles_block_iff, settles_pure_iff]
  constructor
  · intro parts
    obtain ⟨b, _, _, rfl, rfl, rfl, rfl⟩ := parts
    exact ⟨b.2, List.append_nil _⟩
  · intro parts
    obtain ⟨full, rfl⟩ := parts
    exact ⟨⟨code, full⟩, code, [], (List.append_nil _).symm, rfl, rfl, rfl⟩

/-! ### Numbers -/

theorem settles_number_iff {width : Nat} (h : width ≤ maxNumberWidth) {value : UInt64} {code : Bytes} :
    Settles (number width) (.ok value) code ↔ code.length = width ∧ value.toNat = bigEndian code := by
  have read (full : code.length = width) : ∃ word : UInt64, word.toNat = bigEndian code ∧
      Settles (number width) (.ok word) code := by
    subst full
    exact ⟨code.foldl pushByte 0, toNat_foldl_pushByte_zero h, (decides_number h).settles⟩
  constructor
  · intro settles
    have full := (reads_number h).length_eq settles
    obtain ⟨word, toNat, settles'⟩ := read full
    rw [settles.value_unique settles']
    exact ⟨full, toNat⟩
  · intro parts
    obtain ⟨full, toNat⟩ := parts
    obtain ⟨word, toNat', settles⟩ := read full
    rw [UInt64.toNat_inj.1 (toNat.trans toNat'.symm)]
    exact settles

/-- A length is read from the digits that a field of its maximum gives it. -/
theorem settles_length {max : UInt64} {length : Nat} (h : length ≤ max.toNat) :
    ∃ value : UInt64, value.toNat = length ∧
      Settles (number (bytesNeeded max)) (.ok value) (digits (bytesNeeded max) length) := by
  have small : length < 2 ^ 64 := Nat.lt_of_le_of_lt h (UInt64.toNat_lt max)
  have toNat : (UInt64.ofNat length).toNat = length := UInt64.toNat_ofNat_of_lt' small
  have value := bigEndian_digits (lt_pow_bytesNeeded h)
  exact ⟨.ofNat length, toNat, (settles_number_iff (bytesNeeded_le max)).2
    ⟨length_digits _ _, toNat.trans value.symm⟩⟩

/-- A timestamp fills its eight bytes. -/
theorem settles_timestamp_iff {timestamp : UInt64} {code : Bytes} :
    Settles (number timestampLength) (.ok timestamp) code ↔
      code = digits timestampLength timestamp.toNat := by
  have word : timestamp.toNat < 256 ^ timestampLength := UInt64.toNat_lt timestamp
  rw [settles_number_iff (by decide)]
  constructor
  · intro parts
    obtain ⟨full, toNat⟩ := parts
    exact eq_digits_of_bigEndian full toNat.symm
  · intro same
    subst same
    exact ⟨length_digits _ _, (bigEndian_digits word).symm⟩

/-! ### Tags and fields -/

instance (value? : Option α) (error : DecodeError) : Streaming (demand value? error) := by
  unfold demand
  split <;> infer_instance

theorem settles_demand_iff {value? : Option α} {error : DecodeError} {value : α} {code : Bytes} :
    Settles (demand value? error) (.ok value) code ↔ value? = some value ∧ code = [] := by
  cases value? with
  | none => exact ⟨fun h => absurd h not_settles_throw, fun h => nomatch h.1⟩
  | some a =>
    rw [demand, settles_pure_iff, Option.some.injEq, eq_comm]

theorem settles_tagged_iff {width : Nat} (h : width ≤ maxNumberWidth) {of? : Nat → Option α}
    {refuse : UInt64 → DecodeError} {value : α} {code : Bytes} :
    Settles (tagged width of? refuse) (.ok value) code ↔
      code.length = width ∧ of? (bigEndian code) = some value := by
  simp only [tagged, settles_bind_iff, settles_number_iff h, settles_demand_iff]
  constructor
  · intro parts
    obtain ⟨tag, first, _, rfl, ⟨full, toNat⟩, meaning, rfl⟩ := parts
    rw [toNat] at meaning
    rw [List.append_nil]
    exact ⟨full, meaning⟩
  · intro parts
    obtain ⟨full, meaning⟩ := parts
    have toNat := toNat_ofNat_bigEndian (Nat.le_trans (Nat.le_of_eq full) h)
    exact ⟨_, code, [], (List.append_nil _).symm, ⟨full, toNat⟩, by rw [toNat, meaning], rfl⟩

/-- The code of a tag: its digits. -/
theorem settles_tagged_iff_digits {width : Nat} (h : width ≤ maxNumberWidth) {of? : Nat → Option α}
    {refuse : UInt64 → DecodeError} {tag : α → Nat} (meaning : ∀ n a, of? n = some a ↔ n = tag a)
    (small : ∀ a, tag a < 256 ^ width) {value : α} {code : Bytes} :
    Settles (tagged width of? refuse) (.ok value) code ↔ code = digits width (tag value) := by
  rw [settles_tagged_iff h, meaning]
  constructor
  · intro parts
    obtain ⟨full, value⟩ := parts
    exact eq_digits_of_bigEndian full value
  · intro same
    subst same
    exact ⟨length_digits _ _, bigEndian_digits (small value)⟩

theorem settles_field_iff {max : UInt64} {data code : Bytes} :
    Settles (field max) (.ok data) code ↔ data.length ≤ max.toNat ∧ code = framed max data := by
  simp only [field_eq, settles_bind_iff]
  constructor
  · intro parts
    obtain ⟨length, first, second, rfl, prefixed, settles⟩ := parts
    obtain ⟨width, toNat⟩ := (settles_number_iff (bytesNeeded_le max)).1 prefixed
    split at settles
    · exact absurd settles not_settles_throw
    · rename_i small
      simp only [settles_bind_iff, settles_noteAt_iff, settles_bytes_iff] at settles
      obtain ⟨_, _, _, rfl, rfl, full, rfl⟩ := settles
      rw [framed, full, List.nil_append, eq_digits_of_bigEndian width toNat.symm]
      exact ⟨Nat.not_lt.1 fun large => small (UInt64.lt_iff_toNat_lt.2 large), rfl⟩
  · intro parts
    obtain ⟨fits, rfl⟩ := parts
    obtain ⟨length, toNat, prefixed⟩ := settles_length fits
    refine ⟨length, _, data, rfl, prefixed, ?_⟩
    rw [if_neg (by rw [UInt64.lt_iff_toNat_lt, toNat]; exact Nat.not_lt.2 fits), toNat]
    simp only [settles_bind_iff, settles_noteAt_iff, settles_bytes_iff]
    exact ⟨(), [], data, rfl, rfl, trivial, rfl⟩

/-! ### Signed certificate timestamps -/

theorem settles_version_iff {v : Version} {code : Bytes} :
    Settles version (.ok v) code ↔ code = digits versionLength v.tag :=
  settles_tagged_iff_digits (by decide) Version.ofTag?_eq_some_iff fun v => by cases v; decide

theorem settles_hashAlgorithm_iff {a : HashAlgorithm} {code : Bytes} :
    Settles hashAlgorithm (.ok a) code ↔ code = digits algorithmLength a.tag :=
  settles_tagged_iff_digits (by decide) HashAlgorithm.ofTag?_eq_some_iff fun a => by cases a <;> decide

theorem settles_signatureAlgorithm_iff {a : SignatureAlgorithm} {code : Bytes} :
    Settles signatureAlgorithm (.ok a) code ↔ code = digits algorithmLength a.tag :=
  settles_tagged_iff_digits (by decide) SignatureAlgorithm.ofTag?_eq_some_iff
    fun a => by cases a <;> decide

theorem settles_digitallySigned_iff {s : DigitallySigned} {code : Bytes} :
    Settles digitallySigned (.ok s) code ↔ s.Fits ∧ code = s.layout := by
  simp only [digitallySigned, settles_bind_iff, settles_hashAlgorithm_iff,
    settles_signatureAlgorithm_iff, settles_field_iff, settles_pure_iff]
  constructor
  · intro parts
    obtain ⟨hash, _, _, rfl, rfl, algorithm, _, _, rfl, rfl, signature, _, _, rfl, ⟨fits, rfl⟩, rfl,
      rfl⟩ := parts
    rw [List.append_nil]
    exact ⟨fits, rfl⟩
  · intro parts
    obtain ⟨fits, rfl⟩ := parts
    exact ⟨s.hashAlgorithm, _, _, rfl, rfl, s.signatureAlgorithm, _, _, rfl, rfl, s.signature, _, [],
      (List.append_nil _).symm, ⟨fits, rfl⟩, rfl, rfl⟩

theorem settles_sct_iff {s : Sct} {code : Bytes} :
    Settles sct (.ok s) code ↔ s.Fits ∧ code = s.layout := by
  simp only [sct, settles_bind_iff, settles_version_iff, settles_block_iff, settles_timestamp_iff,
    settles_field_iff, settles_digitallySigned_iff, settles_note_iff, settles_pure_iff]
  constructor
  · intro parts
    obtain ⟨version, _, _, rfl, rfl, keyId, _, _, rfl, rfl, timestamp, _, _, rfl, rfl, extensions, _, _,
      rfl, ⟨fits, rfl⟩, signature, _, _, rfl, ⟨fits', rfl⟩, _, _, _, rfl, rfl, rfl, rfl⟩ := parts
    rw [List.append_nil, List.append_nil]
    exact ⟨⟨fits, fits'⟩, rfl⟩
  · intro parts
    obtain ⟨⟨fits, fits'⟩, rfl⟩ := parts
    exact ⟨s.version, _, _, rfl, rfl, ⟨s.id.keyId.bytes, s.id.keyId.length_eq⟩, _, _, rfl, rfl,
      s.timestamp, _, _, rfl, rfl, s.extensions, _, _, rfl, ⟨fits, rfl⟩, s.signature, _, [],
      (List.append_nil _).symm, ⟨fits', rfl⟩, (), [], [], rfl, rfl, rfl, rfl⟩

/-! ### Leaves -/

theorem settles_entryType_iff {t : EntryType} {code : Bytes} :
    Settles entryType (.ok t) code ↔ code = digits entryTypeLength t.tag :=
  settles_tagged_iff_digits (by decide) EntryType.ofTag?_eq_some_iff fun t => by cases t <;> decide

theorem settles_leafType_iff {u : Unit} {code : Bytes} :
    Settles leafType (.ok u) code ↔ code = digits leafTypeLength timestampedEntryLeafType := by
  let tag : Unit → Nat := fun _ => timestampedEntryLeafType
  show _ ↔ code = digits leafTypeLength (tag u)
  exact settles_tagged_iff_digits (by decide) (fun n _ => by simp [tag]) fun _ => by decide

theorem settles_precert_iff {p : Precert} {code : Bytes} :
    Settles precert (.ok p) code ↔ p.Fits ∧ code = p.layout := by
  simp only [precert, settles_bind_iff, settles_block_iff, settles_field_iff, settles_pure_iff]
  constructor
  · intro parts
    obtain ⟨issuerKeyHash, _, _, rfl, rfl, tbsCertificate, _, _, rfl, ⟨fits, rfl⟩, rfl, rfl⟩ := parts
    rw [List.append_nil]
    exact ⟨fits, rfl⟩
  · intro parts
    obtain ⟨fits, rfl⟩ := parts
    exact ⟨⟨p.issuerKeyHash.bytes, p.issuerKeyHash.length_eq⟩, _, _, rfl, rfl, p.tbsCertificate, _, [],
      (List.append_nil _).symm, ⟨fits, rfl⟩, rfl, rfl⟩

theorem settles_signedEntry_iff {type : EntryType} {e : SignedEntry} {code : Bytes} :
    Settles (signedEntry type) (.ok e) code ↔ type = e.entryType ∧ e.Fits ∧ code = e.layout := by
  cases type with
  | x509 =>
    simp only [signedEntry, settles_map_iff, settles_field_iff]
    constructor
    · intro parts
      obtain ⟨certificate, rfl, fits, rfl⟩ := parts
      exact ⟨rfl, fits, rfl⟩
    · intro parts
      obtain ⟨type, fits, rfl⟩ := parts
      cases e with
      | x509 certificate => exact ⟨certificate, rfl, fits, rfl⟩
      | precert p => cases type
  | precert =>
    simp only [signedEntry, settles_map_iff, settles_precert_iff]
    constructor
    · intro parts
      obtain ⟨p, rfl, fits, rfl⟩ := parts
      exact ⟨rfl, fits, rfl⟩
    · intro parts
      obtain ⟨type, fits, rfl⟩ := parts
      cases e with
      | x509 certificate => cases type
      | precert p => exact ⟨p, rfl, fits, rfl⟩

theorem settles_timestampedEntry_iff {e : TimestampedEntry} {code : Bytes} :
    Settles timestampedEntry (.ok e) code ↔ e.Fits ∧ code = e.layout := by
  simp only [timestampedEntry, settles_bind_iff, settles_timestamp_iff, settles_entryType_iff,
    settles_signedEntry_iff, settles_note_iff, settles_pure_iff]
  constructor
  · intro parts
    obtain ⟨timestamp, _, _, rfl, rfl, type, _, _, rfl, rfl, entry, _, _, rfl, ⟨rfl, fits, rfl⟩, _, _, _,
      rfl, rfl, rfl, rfl⟩ := parts
    rw [List.append_nil, List.append_nil]
    exact ⟨fits, rfl⟩
  · intro parts
    obtain ⟨fits, rfl⟩ := parts
    exact ⟨e.timestamp, _, _, rfl, rfl, e.signedEntry.entryType, _, _, rfl, rfl, e.signedEntry, _, [],
      (List.append_nil _).symm, ⟨rfl, fits, rfl⟩, (), [], [], rfl, rfl, rfl, rfl⟩

theorem settles_leaf_iff {l : Leaf} {code : Bytes} :
    Settles leaf (.ok l) code ↔ l.Fits ∧ code = l.layout := by
  simp only [leaf, settles_bind_iff, settles_version_iff, settles_leafType_iff,
    settles_timestampedEntry_iff, settles_pure_iff]
  constructor
  · intro parts
    obtain ⟨version, _, _, rfl, rfl, _, _, _, rfl, rfl, entry, _, _, rfl, ⟨fits, rfl⟩, rfl, rfl⟩ := parts
    rw [List.append_nil]
    exact ⟨fits, rfl⟩
  · intro parts
    obtain ⟨fits, rfl⟩ := parts
    exact ⟨l.version, _, _, rfl, rfl, (), _, _, rfl, rfl, l.timestampedEntry, _, [],
      (List.append_nil _).symm, ⟨fits, rfl⟩, rfl, rfl⟩

end Transparency.Wire.Decoder
