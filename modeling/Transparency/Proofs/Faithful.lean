import Transparency.Proofs.Presentation

/-! What is written for a record is what it was read from.

Records may be given as arrays and among other fields, and names as keys; a `Plain` value uses none of these
liberties. What is read from it is written as it again, but for the order of keys (`forms_faithful`): there is
no second spelling of a text, a name or an integer. -/
namespace Transparency

/-! ### Values that differ in the order of keys -/

mutual

/-- Equal but for the order of keys. -/
inductive Json.Alike : Json → Json → Prop where
  | same (j : Json) : Alike j j
  | array {items others : List Json} : AlikeItems items others → Alike (.array items) (.array others)
  | object {fields listed given : List (String × Json)} : AlikeFields fields listed → listed.Perm given →
      Alike (.object fields) (.object given)

inductive Json.AlikeItems : List Json → List Json → Prop where
  | nil : AlikeItems [] []
  | cons {item other : Json} {items others : List Json} : Alike item other → AlikeItems items others →
      AlikeItems (item :: items) (other :: others)

/-- The same keys in the same order. -/
inductive Json.AlikeFields : List (String × Json) → List (String × Json) → Prop where
  | nil : AlikeFields [] []
  | cons {name : String} {value other : Json} {fields others : List (String × Json)} : Alike value other →
      AlikeFields fields others → AlikeFields ((name, value) :: fields) ((name, other) :: others)

end

/-! ### Plain values -/

namespace Shape

mutual

/-- Every record is an object with exactly its own fields, and every name is a string. -/
inductive Plain : Shape → Json → Prop where
  | word (j : Json) : Plain .word j
  | text (j : Json) : Plain .text j
  | texts (j : Json) : Plain .texts j
  | name (name : String) : Plain .name (.string name)
  | fields {members : List (String × Shape)} {listed given : List (String × Json)} :
      PlainFields members listed → listed.Perm given → Plain (.fields members) (.object given)
  | choice {alternatives : List (String × Shape)} {name : String} {shape : Shape} {value : Json} :
      (name, shape) ∈ alternatives → Plain shape value → Plain (.choice alternatives) (.object [(name, value)])

/-- The fields of `members` in their order, with plain values. -/
inductive PlainFields : List (String × Shape) → List (String × Json) → Prop where
  | nil : PlainFields [] []
  | cons {name : String} {shape : Shape} {members : List (String × Shape)} {value : Json}
      {listed : List (String × Json)} : Plain shape value → PlainFields members listed →
        PlainFields ((name, shape) :: members) ((name, value) :: listed)

end

theorem PlainFields.names {members : List (String × Shape)} {listed : List (String × Json)} :
    PlainFields members listed → listed.map Prod.fst = members.map Prod.fst
  | .nil => rfl
  | .cons _ others => by rw [List.map_cons, List.map_cons, others.names]

theorem PlainFields.forSome {members : List (String × Shape)} {listed : List (String × Json)}
    {P : List Json → Prop} :
    PlainFields members listed → P (listed.map Prod.snd) →
      ForSome (fun member value => Plain member.2 value) members P
  | .nil, holds => holds
  | .cons plain others, holds => ⟨_, plain, others.forSome holds⟩

/-- The fields of a plain record are found, and there are no others. -/
theorem Plain.fields? {members : List (String × Shape)} {j : Json} (distinct : (members.map Prod.fst).Nodup)
    (h : Plain (.fields members) j) :
    ForSome (fun member value => Plain member.2 value) members fun values =>
      j.fields? (members.map Prod.fst) = some values ∧
        ∃ given, j = .object given ∧ ((members.map Prod.fst).zip values).Perm given := by
  cases h with
  | @fields _ listed _ all perm =>
    refine all.forSome ⟨?_, _, rfl, ?_⟩
    · rw [← all.names] at distinct ⊢
      refine Json.fields?_of_perm distinct ?_ fun _ none => absurd none List.not_mem_nil
      rw [List.append_nil]
      exact perm.symm
    · have zipped : (listed.map Prod.fst).zip (listed.map Prod.snd) = listed := (List.zip_of_prod rfl rfl).symm
      rw [← all.names, zipped]
      exact perm

end Shape

/-! ### Writing what was read -/

/-- What is read from a plain value is written as it. -/
def Faithful {α : Type} (shape : Shape) (write : α → Json) (read : Json → Option α) : Prop :=
  ∀ {j : Json} {value : α}, read j = some value → shape.Plain j → (write value).Alike j

namespace Json

theorem word_faithful : Faithful .word ofWord word? := by
  intro j word read _
  rw [word?_eq_some_iff.1 read]
  exact .same _

theorem bytes_faithful : Faithful .text ofBytes bytes? := by
  intro j bytes read _
  rw [bytes?_eq_some_iff.1 read]
  exact .same _

theorem byteStrings_faithful : Faithful .texts ofByteStrings byteStrings? := by
  intro j items read _
  rw [byteStrings?_eq_some_iff.1 read]
  exact .same _

theorem name_faithful {α : Type} {name : α → String} {ofName? : String → Option α}
    (named : ∀ s a, ofName? s = some a ↔ s = name a) :
    Faithful .name (fun a => .string (name a)) (fun j => j.name?.bind ofName?) := by
  intro j a read plain
  cases plain with
  | name s =>
    rw [(named s a).1 read]
    exact .same _

end Json

theorem KeyHash.faithful {owner : KeyOwner} : Faithful .text (@toJson owner) ofJson? := by
  intro j hash read _
  rw [ofJson?_eq_some_iff.1 read]
  exact .same _

theorem Version.faithful : Faithful .name toJson ofJson? := Json.name_faithful ofName?_eq_some_iff

theorem HashAlgorithm.faithful : Faithful .name toJson ofJson? := Json.name_faithful ofName?_eq_some_iff

theorem SignatureAlgorithm.faithful : Faithful .name toJson ofJson? := Json.name_faithful ofName?_eq_some_iff

theorem EntryType.faithful : Faithful .name toJson ofJson? := Json.name_faithful ofName?_eq_some_iff

theorem DigitallySigned.faithful : Faithful shape toJson ofJson? := by
  intro j s read plain
  obtain ⟨_, hash, _, algorithm, _, signature, fields, _, rfl, perm⟩ := plain.fields? (by decide)
  obtain ⟨hashRead, algorithmRead, signatureRead⟩ := (ofJson?_of_fields fields).1 read
  exact .object (.cons (HashAlgorithm.faithful hashRead hash) <|
    .cons (SignatureAlgorithm.faithful algorithmRead algorithm) <|
    .cons (Json.bytes_faithful signatureRead signature) .nil) perm

theorem LogId.faithful : Faithful shape toJson ofJson? := by
  intro j id read plain
  obtain ⟨_, keyId, fields, _, rfl, perm⟩ := plain.fields? (by decide)
  have keyIdRead := (ofJson?_of_fields fields).1 read
  exact .object (.cons (KeyHash.faithful keyIdRead keyId) .nil) perm

theorem Sct.faithful : Faithful shape toJson ofJson? := by
  intro j s read plain
  obtain ⟨_, version, _, id, _, timestamp, _, extensions, _, signature, fields, _, rfl, perm⟩ :=
    plain.fields? (by decide)
  obtain ⟨versionRead, idRead, timestampRead, extensionsRead, signatureRead⟩ :=
    (ofJson?_of_fields fields).1 read
  exact .object (.cons (Version.faithful versionRead version) <| .cons (LogId.faithful idRead id) <|
    .cons (Json.word_faithful timestampRead timestamp) <|
    .cons (Json.bytes_faithful extensionsRead extensions) <|
    .cons (DigitallySigned.faithful signatureRead signature) .nil) perm

theorem Precert.faithful : Faithful shape toJson ofJson? := by
  intro j p read plain
  obtain ⟨_, issuerKeyHash, _, tbsCertificate, fields, _, rfl, perm⟩ := plain.fields? (by decide)
  obtain ⟨issuerKeyHashRead, tbsCertificateRead⟩ := (ofJson?_of_fields fields).1 read
  exact .object (.cons (KeyHash.faithful issuerKeyHashRead issuerKeyHash) <|
    .cons (Json.bytes_faithful tbsCertificateRead tbsCertificate) .nil) perm

theorem SignedEntry.faithful : Faithful shape toJson ofJson? := by
  intro j e read plain
  cases plain with
  | choice alternative plain =>
    rcases List.mem_pair.1 alternative with same | same
    · cases same
      obtain ⟨certificate, certificateRead, rfl⟩ := Option.map_eq_some_iff.1 read
      exact .object (.cons (Json.bytes_faithful certificateRead plain) .nil) (.refl _)
    · cases same
      obtain ⟨p, pRead, rfl⟩ := Option.map_eq_some_iff.1 read
      exact .object (.cons (Precert.faithful pRead plain) .nil) (.refl _)

theorem TimestampedEntry.faithful : Faithful shape toJson ofJson? := by
  intro j e read plain
  obtain ⟨_, timestamp, _, signedEntry, fields, _, rfl, perm⟩ := plain.fields? (by decide)
  obtain ⟨timestampRead, signedEntryRead⟩ := (ofJson?_of_fields fields).1 read
  exact .object (.cons (Json.word_faithful timestampRead timestamp) <|
    .cons (SignedEntry.faithful signedEntryRead signedEntry) .nil) perm

theorem Leaf.faithful : Faithful shape toJson ofJson? := by
  intro j l read plain
  obtain ⟨_, version, _, timestampedEntry, fields, _, rfl, perm⟩ := plain.fields? (by decide)
  obtain ⟨versionRead, timestampedEntryRead⟩ := (ofJson?_of_fields fields).1 read
  exact .object (.cons (Version.faithful versionRead version) <|
    .cons (TimestampedEntry.faithful timestampedEntryRead timestampedEntry) .nil) perm

theorem X509Chain.faithful : Faithful shape toJson ofJson? := by
  intro j c read plain
  obtain ⟨_, leafCertificate, _, certificateChain, fields, _, rfl, perm⟩ := plain.fields? (by decide)
  obtain ⟨leafCertificateRead, certificateChainRead⟩ := (ofJson?_of_fields fields).1 read
  exact .object (.cons (Json.bytes_faithful leafCertificateRead leafCertificate) <|
    .cons (Json.byteStrings_faithful certificateChainRead certificateChain) .nil) perm

theorem PrecertChain.faithful : Faithful shape toJson ofJson? := by
  intro j c read plain
  obtain ⟨_, precert, _, precertificateChain, fields, _, rfl, perm⟩ := plain.fields? (by decide)
  obtain ⟨precertRead, precertificateChainRead⟩ := (ofJson?_of_fields fields).1 read
  exact .object (.cons (Precert.faithful precertRead precert) <|
    .cons (Json.byteStrings_faithful precertificateChainRead precertificateChain) .nil) perm

theorem Chain.faithful : Faithful shape toJson ofJson? := by
  intro j c read plain
  cases plain with
  | choice alternative plain =>
    rcases List.mem_pair.1 alternative with same | same
    · cases same
      obtain ⟨c, cRead, rfl⟩ := Option.map_eq_some_iff.1 read
      exact .object (.cons (X509Chain.faithful cRead plain) .nil) (.refl _)
    · cases same
      obtain ⟨c, cRead, rfl⟩ := Option.map_eq_some_iff.1 read
      exact .object (.cons (PrecertChain.faithful cRead plain) .nil) (.refl _)

theorem AuditProof.faithful : Faithful shape toJson ofJson? := by
  intro j p read plain
  obtain ⟨_, version, _, treeSize, _, leafIndex, _, pathNodes, fields, _, rfl, perm⟩ :=
    plain.fields? (by decide)
  obtain ⟨versionRead, treeSizeRead, leafIndexRead, pathNodesRead⟩ := (ofJson?_of_fields fields).1 read
  exact .object (.cons (Version.faithful versionRead version) <|
    .cons (Json.word_faithful treeSizeRead treeSize) <| .cons (Json.word_faithful leafIndexRead leafIndex) <|
    .cons (Json.byteStrings_faithful pathNodesRead pathNodes) .nil) perm

/-! ### Every form -/

theorem Json.byteStrings?_texts_iff {texts : List String} {items : List Bytes} :
    (Json.array (texts.map .string)).byteStrings? = some items ↔ texts = items.map Text.Base64.encode := by
  rw [byteStrings?_eq_some_iff, ofByteStrings_eq, array.injEq]
  exact (List.map_injective_iff.2 fun _ _ => string.inj).eq_iff

/-- A hash is read from the base64 text of its bytes, of which there must be as many as a hash has. -/
theorem KeyHash.ofJson?_string_iff {owner : KeyOwner} {text : String} {bytes : Bytes} :
    (∃ hash : KeyHash owner, ofJson? (.string text) = some hash ∧ hash.bytes = bytes) ↔
      text = Text.Base64.encode bytes ∧ bytes.length = 32 := by
  constructor
  · rintro ⟨hash, read, rfl⟩
    exact ⟨Json.string.inj (ofJson?_eq_some_iff.1 read), hash.length_eq⟩
  · rintro ⟨rfl, length⟩
    exact ⟨⟨bytes, length⟩, ofJson?_eq_some_iff.2 rfl, rfl⟩

/-- Every record and every enumeration is written as the plain value that it was read from, and every text
that is read is the written one. -/
theorem forms_faithful :
    (Faithful Sct.shape Sct.toJson Sct.ofJson? ∧
      Faithful DigitallySigned.shape DigitallySigned.toJson DigitallySigned.ofJson? ∧
      Faithful LogId.shape LogId.toJson LogId.ofJson? ∧
      Faithful Leaf.shape Leaf.toJson Leaf.ofJson? ∧
      Faithful TimestampedEntry.shape TimestampedEntry.toJson TimestampedEntry.ofJson? ∧
      Faithful SignedEntry.shape SignedEntry.toJson SignedEntry.ofJson? ∧
      Faithful Precert.shape Precert.toJson Precert.ofJson? ∧
      Faithful X509Chain.shape X509Chain.toJson X509Chain.ofJson? ∧
      Faithful PrecertChain.shape PrecertChain.toJson PrecertChain.ofJson? ∧
      Faithful Chain.shape Chain.toJson Chain.ofJson? ∧
      Faithful AuditProof.shape AuditProof.toJson AuditProof.ofJson? ∧
      Faithful .text (@KeyHash.toJson .log) KeyHash.ofJson? ∧
      Faithful .text (@KeyHash.toJson .issuer) KeyHash.ofJson? ∧
      Faithful .name Version.toJson Version.ofJson? ∧
      Faithful .name HashAlgorithm.toJson HashAlgorithm.ofJson? ∧
      Faithful .name SignatureAlgorithm.toJson SignatureAlgorithm.ofJson? ∧
      Faithful .name EntryType.toJson EntryType.ofJson?) ∧
    (∀ text bytes, (Json.string text).bytes? = some bytes ↔ text = Text.Base64.encode bytes) ∧
    (∀ texts items, (Json.array (texts.map .string)).byteStrings? = some items ↔
      texts = items.map Text.Base64.encode) ∧
    ∀ (owner : KeyOwner) (text : String) (bytes : Bytes),
      (∃ hash : KeyHash owner, KeyHash.ofJson? (.string text) = some hash ∧ hash.bytes = bytes) ↔
        text = Text.Base64.encode bytes ∧ bytes.length = 32 := by
  refine ⟨⟨Sct.faithful, DigitallySigned.faithful, LogId.faithful, Leaf.faithful, TimestampedEntry.faithful,
    SignedEntry.faithful, Precert.faithful, X509Chain.faithful, PrecertChain.faithful, Chain.faithful,
    AuditProof.faithful, KeyHash.faithful, KeyHash.faithful, Version.faithful, HashAlgorithm.faithful,
    SignatureAlgorithm.faithful, EntryType.faithful⟩, fun text bytes => ?_,
    fun texts items => Json.byteStrings?_texts_iff, fun owner text bytes => KeyHash.ofJson?_string_iff⟩
  rw [Json.bytes?_eq_some_iff, Json.ofBytes, Json.string.injEq]

/-- A signature with its fields backwards is written as it, with its fields in order. -/
theorem forms_faithful_backwards :
    let j := Json.object [("signature", .ofBytes [1, 2, 3]), ("signatureAlgorithm", .string "ecdsa"),
      ("hashAlgorithm", .string "sha256")]
    let s := DigitallySigned.mk .sha256 .ecdsa [1, 2, 3]
    DigitallySigned.ofJson? j = some s ∧ DigitallySigned.shape.Plain j ∧ s.toJson.Alike j := by
  intro j s
  have read : DigitallySigned.ofJson? j = some s :=
    (DigitallySigned.ofJson?_of_fields rfl).2 ⟨rfl, rfl, Json.bytes?_eq_some_iff.2 rfl⟩
  have plain : DigitallySigned.shape.Plain j :=
    .fields (.cons (.name _) <| .cons (.name _) <| .cons (.text _) .nil) (List.reverse_perm [_, _, _]).symm
  exact ⟨read, plain, forms_faithful.1.2.1 read plain⟩

end Transparency
