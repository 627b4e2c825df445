import Transparency.Proofs.KeyText
import Transparency.Proofs.Shape

/-! The JSON form of every record is read back, however it is presented.

What a reader takes is settled value by value, by what is written for it: a word, a text, a name. A record is
read from its fields, so what presents the fields of a written record is read as that record
(`forms_read_back`). -/
namespace Transparency

variable {owner : KeyOwner}

/-! ### Values without parts -/

namespace Json

theorem word?_eq_some_iff {j : Json} {word : UInt64} : j.word? = some word ↔ j = ofWord word := by
  constructor
  · intro h
    unfold word? at h
    split at h
    next n =>
      split at h
      next small =>
        cases h
        rw [ofWord, UInt64.toNat_ofNat_of_lt' small, Int.ofNat_eq_natCast]
      next => cases h
    next => cases h
  · rintro rfl
    have small : word.toNat < UInt64.size := word.toNat_lt
    simp [ofWord, word?, small]

theorem bytes?_eq_some_iff {j : Json} {bytes : Bytes} : j.bytes? = some bytes ↔ j = ofBytes bytes := by
  cases j with
  | string text =>
    simp only [bytes?, string?, Option.bind_eq_bind, Option.bind_some, ofBytes, string.injEq]
    rw [Except.toOption_eq_some_iff, Text.Base64.decode_canonical_iff]
  | _ => simp [bytes?, string?, ofBytes]

theorem ofByteStrings_eq (items : List Bytes) :
    ofByteStrings items = .array ((items.map Text.Base64.encode).map .string) := by
  rw [ofByteStrings, List.map_map]
  rfl

theorem byteStrings?_eq_some_iff {j : Json} {items : List Bytes} :
    j.byteStrings? = some items ↔ j = ofByteStrings items := by
  cases j with
  | array values =>
    simp only [byteStrings?, array?, Option.bind_eq_bind, Option.bind_some, ofByteStrings, array.injEq]
    induction values generalizing items with
    | nil => cases items <;> simp
    | cons value rest ih => cases items <;> simp [Option.bind_eq_some_iff, bytes?_eq_some_iff, ih]
  | _ => simp [byteStrings?, array?, ofByteStrings]

end Json

namespace KeyHash

theorem ofJson?_eq_some_iff {j : Json} {hash : KeyHash owner} : ofJson? j = some hash ↔ j = hash.toJson := by
  cases j with
  | string text =>
    simp only [ofJson?, Json.string?, Option.bind_eq_bind, Option.bind_some, toJson, Json.string.injEq]
    rw [Except.toOption_eq_some_iff, ofBase64_eq_ok_iff]
  | _ => simp [ofJson?, Json.string?, toJson]

end KeyHash

/-! ### Records, from the values of their fields -/

section
variable {j : Json}

theorem Version.exists_eq_some_iff {read : Option Version} (version : Version) :
    (∃ v, read = some v) ↔ read = some version :=
  ⟨fun ⟨_, h⟩ => h, fun h => ⟨version, h⟩⟩

theorem DigitallySigned.ofJson?_of_fields {s : DigitallySigned} {hash algorithm signature : Json}
    (h : j.fields? ["hashAlgorithm", "signatureAlgorithm", "signature"] = some [hash, algorithm, signature]) :
    ofJson? j = some s ↔ HashAlgorithm.ofJson? hash = some s.hashAlgorithm ∧
      SignatureAlgorithm.ofJson? algorithm = some s.signatureAlgorithm ∧ signature.bytes? = some s.signature := by
  cases s
  simp [ofJson?, h, Option.bind_eq_some_iff]

theorem LogId.ofJson?_of_fields {id : LogId} {keyId : Json} (h : j.fields? ["keyId"] = some [keyId]) :
    ofJson? j = some id ↔ KeyHash.ofJson? keyId = some id.keyId := by
  cases id
  simp [ofJson?, h, Option.bind_eq_some_iff]

theorem Sct.ofJson?_of_fields {s : Sct} {version id timestamp extensions signature : Json}
    (h : j.fields? ["version", "id", "timestamp", "extensions", "signature"] =
      some [version, id, timestamp, extensions, signature]) :
    ofJson? j = some s ↔ Version.ofJson? version = some s.version ∧ LogId.ofJson? id = some s.id ∧
      timestamp.word? = some s.timestamp ∧ extensions.bytes? = some s.extensions ∧
        DigitallySigned.ofJson? signature = some s.signature := by
  obtain ⟨version, _, _, _, _⟩ := s
  simp [ofJson?, h, Option.bind_eq_some_iff, Version.exists_eq_some_iff version]

theorem Precert.ofJson?_of_fields {p : Precert} {issuerKeyHash tbsCertificate : Json}
    (h : j.fields? ["issuerKeyHash", "tbsCertificate"] = some [issuerKeyHash, tbsCertificate]) :
    ofJson? j = some p ↔ KeyHash.ofJson? issuerKeyHash = some p.issuerKeyHash ∧
      tbsCertificate.bytes? = some p.tbsCertificate := by
  cases p
  simp [ofJson?, h, Option.bind_eq_some_iff]

theorem TimestampedEntry.ofJson?_of_fields {e : TimestampedEntry} {timestamp signedEntry : Json}
    (h : j.fields? ["timestamp", "signedEntry"] = some [timestamp, signedEntry]) :
    ofJson? j = some e ↔ timestamp.word? = some e.timestamp ∧
      SignedEntry.ofJson? signedEntry = some e.signedEntry := by
  cases e
  simp [ofJson?, h, Option.bind_eq_some_iff]

theorem Leaf.ofJson?_of_fields {l : Leaf} {version timestampedEntry : Json}
    (h : j.fields? ["version", "timestampedEntry"] = some [version, timestampedEntry]) :
    ofJson? j = some l ↔ Version.ofJson? version = some l.version ∧
      TimestampedEntry.ofJson? timestampedEntry = some l.timestampedEntry := by
  obtain ⟨version, _⟩ := l
  simp [ofJson?, h, Option.bind_eq_some_iff, Version.exists_eq_some_iff version]

theorem X509Chain.ofJson?_of_fields {c : X509Chain} {leafCertificate certificateChain : Json}
    (h : j.fields? ["leafCertificate", "certificateChain"] = some [leafCertificate, certificateChain]) :
    ofJson? j = some c ↔ leafCertificate.bytes? = some c.leafCertificate ∧
      certificateChain.byteStrings? = some c.certificateChain := by
  cases c
  simp [ofJson?, h, Option.bind_eq_some_iff]

theorem PrecertChain.ofJson?_of_fields {c : PrecertChain} {precert precertificateChain : Json}
    (h : j.fields? ["preCert", "precertificateChain"] = some [precert, precertificateChain]) :
    ofJson? j = some c ↔ Precert.ofJson? precert = some c.precert ∧
      precertificateChain.byteStrings? = some c.precertificateChain := by
  cases c
  simp [ofJson?, h, Option.bind_eq_some_iff]

theorem AuditProof.ofJson?_of_fields {p : AuditProof} {version treeSize leafIndex pathNodes : Json}
    (h : j.fields? ["version", "treeSize", "leafIndex", "pathNode"] =
      some [version, treeSize, leafIndex, pathNodes]) :
    ofJson? j = some p ↔ Version.ofJson? version = some p.version ∧ treeSize.word? = some p.treeSize ∧
      leafIndex.word? = some p.leafIndex ∧ pathNodes.byteStrings? = some p.pathNodes := by
  obtain ⟨version, _, _, _⟩ := p
  simp [ofJson?, h, Option.bind_eq_some_iff, Version.exists_eq_some_iff version]

end

/-! ### Shapes -/

def DigitallySigned.shape : Shape :=
  .fields [("hashAlgorithm", .name), ("signatureAlgorithm", .name), ("signature", .text)]

def LogId.shape : Shape := .fields [("keyId", .text)]

def Sct.shape : Shape :=
  .fields [
    ("version", .name),
    ("id", LogId.shape),
    ("timestamp", .word),
    ("extensions", .text),
    ("signature", DigitallySigned.shape)]

def Precert.shape : Shape := .fields [("issuerKeyHash", .text), ("tbsCertificate", .text)]

def SignedEntry.shape : Shape := .choice [("x509", .text), ("pre_cert", Precert.shape)]

def TimestampedEntry.shape : Shape := .fields [("timestamp", .word), ("signedEntry", SignedEntry.shape)]

def Leaf.shape : Shape := .fields [("version", .name), ("timestampedEntry", TimestampedEntry.shape)]

def X509Chain.shape : Shape := .fields [("leafCertificate", .text), ("certificateChain", .texts)]

def PrecertChain.shape : Shape := .fields [("preCert", Precert.shape), ("precertificateChain", .texts)]

def Chain.shape : Shape := .choice [("x509", X509Chain.shape), ("precert", PrecertChain.shape)]

def AuditProof.shape : Shape :=
  .fields [("version", .name), ("treeSize", .word), ("leafIndex", .word), ("pathNode", .texts)]

/-! ### Reading back -/

/-- What is written has the shape, and is read back however it is presented. -/
structure RoundTrips {α : Type} (shape : Shape) (write : α → Json) (read : Json → Option α) : Prop where
  self (value : α) : shape.Presents (write value) (write value)
  presented {value : α} {given : Json} : shape.Presents (write value) given → read given = some value

namespace Json

theorem word_roundTrips : RoundTrips .word ofWord word? where
  self _ := .word _
  presented h := by
    cases h
    exact word?_eq_some_iff.2 rfl

theorem bytes_roundTrips : RoundTrips .text ofBytes bytes? where
  self _ := .text _
  presented h := by
    cases h
    exact bytes?_eq_some_iff.2 rfl

theorem byteStrings_roundTrips : RoundTrips .texts ofByteStrings byteStrings? where
  self items := by
    rw [ofByteStrings_eq]
    exact .texts _
  presented h := byteStrings?_eq_some_iff.2 h.texts_eq

/-- An enumeration whose names are read as what they name. -/
theorem name_roundTrips {α : Type} {name : α → String} {ofName? : String → Option α}
    (named : ∀ s a, ofName? s = some a ↔ s = name a) :
    RoundTrips .name (fun a => .string (name a)) (fun j => j.name?.bind ofName?) where
  self _ := .name _
  presented h := by
    cases h <;> exact (named _ _).2 rfl

end Json

theorem KeyHash.roundTrips : RoundTrips .text (@toJson owner) ofJson? where
  self _ := .text _
  presented h := by
    cases h
    exact ofJson?_eq_some_iff.2 rfl

theorem Version.roundTrips : RoundTrips .name toJson ofJson? := Json.name_roundTrips ofName?_eq_some_iff

theorem HashAlgorithm.roundTrips : RoundTrips .name toJson ofJson? :=
  Json.name_roundTrips ofName?_eq_some_iff

theorem SignatureAlgorithm.roundTrips : RoundTrips .name toJson ofJson? :=
  Json.name_roundTrips ofName?_eq_some_iff

theorem EntryType.roundTrips : RoundTrips .name toJson ofJson? := Json.name_roundTrips ofName?_eq_some_iff

theorem DigitallySigned.roundTrips : RoundTrips shape toJson ofJson? where
  self s := .self <| .cons (HashAlgorithm.roundTrips.self _) <| .cons (SignatureAlgorithm.roundTrips.self _) <|
    .cons (Json.bytes_roundTrips.self _) .nil
  presented h := by
    obtain ⟨_, hash, _, algorithm, _, signature, fields⟩ := h.fields? (by decide)
    exact (ofJson?_of_fields fields).2 ⟨HashAlgorithm.roundTrips.presented hash,
      SignatureAlgorithm.roundTrips.presented algorithm, Json.bytes_roundTrips.presented signature⟩

theorem LogId.roundTrips : RoundTrips shape toJson ofJson? where
  self id := .self <| .cons (KeyHash.roundTrips.self _) <| .nil
  presented h := by
    obtain ⟨_, keyId, fields⟩ := h.fields? (by decide)
    exact (ofJson?_of_fields fields).2 (KeyHash.roundTrips.presented keyId)

theorem Sct.roundTrips : RoundTrips shape toJson ofJson? where
  self s := .self <| .cons (Version.roundTrips.self _) <| .cons (LogId.roundTrips.self _) <|
    .cons (Json.word_roundTrips.self _) <| .cons (Json.bytes_roundTrips.self _) <|
      .cons (DigitallySigned.roundTrips.self _) .nil
  presented h := by
    obtain ⟨_, version, _, id, _, timestamp, _, extensions, _, signature, fields⟩ := h.fields? (by decide)
    exact (ofJson?_of_fields fields).2 ⟨Version.roundTrips.presented version, LogId.roundTrips.presented id,
      Json.word_roundTrips.presented timestamp, Json.bytes_roundTrips.presented extensions,
      DigitallySigned.roundTrips.presented signature⟩

theorem Precert.roundTrips : RoundTrips shape toJson ofJson? where
  self p := .self <| .cons (KeyHash.roundTrips.self _) <| .cons (Json.bytes_roundTrips.self _) .nil
  presented h := by
    obtain ⟨_, issuerKeyHash, _, tbsCertificate, fields⟩ := h.fields? (by decide)
    exact (ofJson?_of_fields fields).2 ⟨KeyHash.roundTrips.presented issuerKeyHash,
      Json.bytes_roundTrips.presented tbsCertificate⟩

theorem SignedEntry.roundTrips : RoundTrips shape toJson ofJson? where
  self
    | .x509 _ => .choice (by simp) (Json.bytes_roundTrips.self _)
    | .precert p => .choice (by simp) (Precert.roundTrips.self p)
  presented {e _} h := by
    cases e with
    | x509 certificate =>
      obtain ⟨value, presented, rfl⟩ := h.alternative (by decide) (List.mem_cons_self ..)
      exact congrArg (Option.map SignedEntry.x509) (Json.bytes_roundTrips.presented presented)
    | precert p =>
      obtain ⟨value, presented, rfl⟩ := h.alternative (by decide) (List.mem_cons_of_mem _ (List.mem_cons_self ..))
      exact congrArg (Option.map SignedEntry.precert) (Precert.roundTrips.presented presented)

theorem TimestampedEntry.roundTrips : RoundTrips shape toJson ofJson? where
  self e := .self <| .cons (Json.word_roundTrips.self _) <| .cons (SignedEntry.roundTrips.self _) .nil
  presented h := by
    obtain ⟨_, timestamp, _, signedEntry, fields⟩ := h.fields? (by decide)
    exact (ofJson?_of_fields fields).2 ⟨Json.word_roundTrips.presented timestamp,
      SignedEntry.roundTrips.presented signedEntry⟩

theorem Leaf.roundTrips : RoundTrips shape toJson ofJson? where
  self l := .self <| .cons (Version.roundTrips.self _) <| .cons (TimestampedEntry.roundTrips.self _) .nil
  presented h := by
    obtain ⟨_, version, _, timestampedEntry, fields⟩ := h.fields? (by decide)
    exact (ofJson?_of_fields fields).2 ⟨Version.roundTrips.presented version,
      TimestampedEntry.roundTrips.presented timestampedEntry⟩

theorem X509Chain.roundTrips : RoundTrips shape toJson ofJson? where
  self c := .self <| .cons (Json.bytes_roundTrips.self _) <| .cons (Json.byteStrings_roundTrips.self _) .nil
  presented h := by
    obtain ⟨_, leafCertificate, _, certificateChain, fields⟩ := h.fields? (by decide)
    exact (ofJson?_of_fields fields).2 ⟨Json.bytes_roundTrips.presented leafCertificate,
      Json.byteStrings_roundTrips.presented certificateChain⟩

theorem PrecertChain.roundTrips : RoundTrips shape toJson ofJson? where
  self c := .self <| .cons (Precert.roundTrips.self _) <| .cons (Json.byteStrings_roundTrips.self _) .nil
  presented h := by
    obtain ⟨_, precert, _, precertificateChain, fields⟩ := h.fields? (by decide)
    exact (ofJson?_of_fields fields).2 ⟨Precert.roundTrips.presented precert,
      Json.byteStrings_roundTrips.presented precertificateChain⟩

theorem Chain.roundTrips : RoundTrips shape toJson ofJson? where
  self
    | .x509 c => .choice (by simp) (X509Chain.roundTrips.self c)
    | .precert c => .choice (by simp) (PrecertChain.roundTrips.self c)
  presented {c _} h := by
    cases c with
    | x509 c =>
      obtain ⟨value, presented, rfl⟩ := h.alternative (by decide) (List.mem_cons_self ..)
      exact congrArg (Option.map Chain.x509) (X509Chain.roundTrips.presented presented)
    | precert c =>
      obtain ⟨value, presented, rfl⟩ := h.alternative (by decide) (List.mem_cons_of_mem _ (List.mem_cons_self ..))
      exact congrArg (Option.map Chain.precert) (PrecertChain.roundTrips.presented presented)

theorem AuditProof.roundTrips : RoundTrips shape toJson ofJson? where
  self p := .self <| .cons (Version.roundTrips.self _) <| .cons (Json.word_roundTrips.self _) <|
    .cons (Json.word_roundTrips.self _) <| .cons (Json.byteStrings_roundTrips.self _) .nil
  presented h := by
    obtain ⟨_, version, _, treeSize, _, leafIndex, _, pathNodes, fields⟩ := h.fields? (by decide)
    exact (ofJson?_of_fields fields).2 ⟨Version.roundTrips.presented version,
      Json.word_roundTrips.presented treeSize,
      Json.word_roundTrips.presented leafIndex, Json.byteStrings_roundTrips.presented pathNodes⟩

/-! ### Every form -/

/-- Every record and every enumeration is read back from its JSON form, however that is presented. -/
theorem forms_read_back :
    RoundTrips Sct.shape Sct.toJson Sct.ofJson? ∧
    RoundTrips DigitallySigned.shape DigitallySigned.toJson DigitallySigned.ofJson? ∧
    RoundTrips LogId.shape LogId.toJson LogId.ofJson? ∧
    RoundTrips Leaf.shape Leaf.toJson Leaf.ofJson? ∧
    RoundTrips TimestampedEntry.shape TimestampedEntry.toJson TimestampedEntry.ofJson? ∧
    RoundTrips SignedEntry.shape SignedEntry.toJson SignedEntry.ofJson? ∧
    RoundTrips Precert.shape Precert.toJson Precert.ofJson? ∧
    RoundTrips X509Chain.shape X509Chain.toJson X509Chain.ofJson? ∧
    RoundTrips PrecertChain.shape PrecertChain.toJson PrecertChain.ofJson? ∧
    RoundTrips Chain.shape Chain.toJson Chain.ofJson? ∧
    RoundTrips AuditProof.shape AuditProof.toJson AuditProof.ofJson? ∧
    RoundTrips .text (@KeyHash.toJson .log) KeyHash.ofJson? ∧
    RoundTrips .text (@KeyHash.toJson .issuer) KeyHash.ofJson? ∧
    RoundTrips .name Version.toJson Version.ofJson? ∧
    RoundTrips .name HashAlgorithm.toJson HashAlgorithm.ofJson? ∧
    RoundTrips .name SignatureAlgorithm.toJson SignatureAlgorithm.ofJson? ∧
    RoundTrips .name EntryType.toJson EntryType.ofJson? :=
  ⟨Sct.roundTrips, DigitallySigned.roundTrips, LogId.roundTrips, Leaf.roundTrips, TimestampedEntry.roundTrips,
    SignedEntry.roundTrips, Precert.roundTrips, X509Chain.roundTrips, PrecertChain.roundTrips, Chain.roundTrips,
    AuditProof.roundTrips, KeyHash.roundTrips, KeyHash.roundTrips, Version.roundTrips, HashAlgorithm.roundTrips,
    SignatureAlgorithm.roundTrips, EntryType.roundTrips⟩

/-- A signature with its fields backwards, a comment before them, and a name as a key. -/
theorem forms_read_back_backwards :
    DigitallySigned.ofJson? (.object [("comment", .bool true), ("signature", .ofBytes [1, 2, 3]),
        ("signatureAlgorithm", .object [("ecdsa", .null)]), ("hashAlgorithm", .string "sha256")]) =
      some ⟨.sha256, .ecdsa, [1, 2, 3]⟩ := by
  refine forms_read_back.2.1.presented (.object (.cons (.name _) <| .cons (.key _) <| .cons (.text _) .nil)
    (List.reverse_perm [_, _, _, _]) ?_)
  exact List.forall_mem_singleton.2 (by decide)

end Transparency
