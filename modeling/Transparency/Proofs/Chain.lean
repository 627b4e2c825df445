import Transparency.Proofs.Grammar
import Transparency.Proofs.Memory

/-! Chains fill their stream.

The certificates of a chain stand behind the number of their bytes and go on to the end of the stream, so
a chain is decoded from exactly the bytes that encode it, and from no others (`chain_decoded_iff_encoded`).

The loop over the certificates is followed both ways: what it reads from a body is laid out in that body
(`fields_sound`), and what is laid out it reads (`fields_complete`). Its bound is never reached, since each
certificate takes bytes for its length. -/
namespace Transparency.Wire

namespace Decoder
variable {α : Type}

/-! ### Certificates up to the end -/

theorem isSpent_ofBytes {r : Reader} {bytes : Bytes} (h : r.source = .ofBytes bytes) :
    r.source.isSpent = true ↔ bytes = [] := by
  rw [Source.isSpent_iff, h, Source.unread_ofBytes]

/-- Nothing is left: the loop is over, whatever its bound. -/
theorem fields_of_spent (max : UInt64) (bound : Nat) (done : List Bytes) {r : Reader}
    (h : r.source = .ofBytes []) : fields max bound done r = .ok done.reverse r := by
  cases bound with
  | zero => rfl
  | succ bound =>
    have spent : r.source.isSpent = true := (isSpent_ofBytes h).2 rfl
    show (if r.source.isSpent then _ else _ : Decoder _) r = _
    rw [if_pos spent]
    rfl

theorem fields_of_more (max : UInt64) (bound : Nat) (done : List Bytes) {r : Reader} {bytes : Bytes}
    (h : r.source = .ofBytes bytes) (more : bytes ≠ []) :
    fields max (bound + 1) done r =
      (field max >>= fun data => fields max bound (data :: done)) r := by
  have unspent : ¬ r.source.isSpent = true := fun spent => more ((isSpent_ofBytes h).1 spent)
  show (if r.source.isSpent then _ else _ : Decoder _) r = _
  rw [if_neg unspent]

theorem fields_sound {max : UInt64} (prefixed : 0 < bytesNeeded max) {bound : Nat} {done chain : List Bytes}
    {body : Bytes} {r s : Reader} (h : r.source = .ofBytes body) (enough : body.length ≤ bound)
    (run : fields max bound done r = .ok chain s) :
    ∃ items, chain = done.reverse ++ items ∧ (∀ item ∈ items, item.length ≤ max.toNat) ∧
      body = items.flatMap (framed max) := by
  induction bound generalizing done body r with
  | zero =>
    obtain rfl := List.length_eq_zero_iff.1 (Nat.le_zero.1 enough)
    cases run
    exact ⟨[], (List.append_nil _).symm, by simp, rfl⟩
  | succ bound ih =>
    by_cases spent : body = []
    · subst spent
      rw [fields_of_spent _ _ _ h] at run
      cases run
      exact ⟨[], (List.append_nil _).symm, by simp, rfl⟩
    · rw [fields_of_more _ _ _ h spent] at run
      obtain ⟨data, m, first, others⟩ := ok_of_bind run
      obtain ⟨code, rest, rfl, settles, passes⟩ := Streaming.code_of_ok h first
      obtain ⟨fits, rfl⟩ := settles_field_iff.1 settles
      rw [List.length_append, length_framed] at enough
      obtain ⟨items, rfl, fits', rfl⟩ := ih passes.source (by omega) others
      exact ⟨data :: items, by simp, List.forall_mem_cons.2 ⟨fits, fits'⟩, rfl⟩

theorem fields_complete {max : UInt64} (prefixed : 0 < bytesNeeded max) {bound : Nat}
    {done items : List Bytes} {r : Reader} (fits : ∀ item ∈ items, item.length ≤ max.toNat)
    (h : r.source = .ofBytes (items.flatMap (framed max)))
    (enough : (items.flatMap (framed max)).length ≤ bound) :
    ∃ s, fields max bound done r = .ok (done.reverse ++ items) s := by
  induction items generalizing done bound r with
  | nil =>
    rw [List.append_nil]
    exact ⟨r, fields_of_spent max bound done h⟩
  | cons first rest ih =>
    have length := length_framed max first
    rw [List.flatMap_cons] at h enough
    rw [List.length_append] at enough
    have more : framed max first ++ rest.flatMap (framed max) ≠ [] := by
      intro empty
      rw [(List.append_eq_nil_iff.1 empty).1, List.length_nil] at length
      omega
    obtain ⟨bound, rfl⟩ : ∃ n, bound = n + 1 := ⟨bound - 1, by omega⟩
    obtain ⟨fitsFirst, fitsRest⟩ := List.forall_mem_cons.1 fits
    have settles := settles_field_iff.2 ⟨fitsFirst, rfl⟩
    obtain ⟨m, run, passes⟩ := settles r _ h
    obtain ⟨s, run'⟩ := @ih bound (first :: done) m fitsRest passes.source (by omega)
    refine ⟨s, ?_⟩
    rw [fields_of_more _ _ _ h more, bind_of_ok run, run', List.reverse_cons, List.append_assoc]
    rfl

/-! ### The chain in its stream -/

theorem ofChain_ok_iff {type : EntryType} {d : Decoder α} {r s : Reader} {value : α} :
    ofChain type d r = .ok value s ↔ d r = .ok value s := by
  unfold ofChain
  split
  · rename_i failed
    rw [failed]
    exact ⟨fun h => (nomatch h), fun h => (nomatch h)⟩
  · exact Iff.rfl

theorem within_ok_iff {body : Bytes} {d : Decoder α} {r s : Reader} {value : α} :
    within body d r = .ok value s ↔
      ∃ inner, d {Reader.ofBytes body with notes := r.notes} = .ok value inner ∧
        s = {r with notes := inner.notes} := by
  unfold within
  constructor
  · intro h
    split at h
    · rename_i run
      cases h
      exact ⟨_, run, rfl⟩
    · cases h
  · intro parts
    obtain ⟨inner, run, rfl⟩ := parts
    rw [run]

/-- A decoded chain fits, and its layout was all that the stream held. -/
theorem certificates_sound {type : EntryType} {bytes : Bytes} {chain : List Bytes} {r s : Reader}
    (h : r.source = .ofBytes bytes) (run : certificates type r = .ok chain s) :
    ChainFits chain ∧ bytes = chainLayout chain ∧ r.Passes bytes [] s := by
  obtain ⟨declared, m, first, run⟩ := ok_of_bind run
  obtain ⟨code, rest, rfl, settles, passes⟩ := Streaming.code_of_ok h (ofChain_ok_iff.1 first)
  obtain ⟨width, toNat⟩ := (settles_number_iff (bytesNeeded_le _)).1 settles
  obtain ⟨body, m', second, run⟩ := ok_of_bind run
  obtain ⟨_, drawn, passes'⟩ := upTo_ofBytes (declared.toNat + 1) passes.source
  rw [ofChain_ok_iff.1 second] at drawn
  cases drawn
  split at run
  · cases run
  split at run
  · cases run
  rename_i notMore notLess
  have full : (rest.take (declared.toNat + 1)).length = declared.toNat := by omega
  rw [List.length_take] at full
  -- The byte behind the declared ones was asked for and did not come.
  rw [List.take_of_length_le (by omega)] at run passes'
  rw [List.drop_of_length_le (by omega)] at passes'
  have length : rest.length = declared.toNat := by omega
  obtain ⟨items, _, inside, noted⟩ := ok_of_bind run
  obtain ⟨inner, decoded, rfl⟩ := within_ok_iff.1 inside
  obtain ⟨_, rfl, fits, rfl⟩ := fields_sound (by decide) rfl (Nat.le_refl _) decoded
  cases noted
  have small : declared.toNat < 256 ^ bytesNeeded maxChainLength := by
    rw [toNat, ← width]
    exact bigEndian_lt code
  have whole := passes.trans passes'
  refine ⟨⟨fits, ?_⟩, ?_, whole.source, whole.position, whole.lost⟩
  · rw [chainBody, length]
    exact Nat.le_of_lt_succ small
  · rw [chainLayout, framed, chainBody, length, eq_digits_of_bigEndian width toNat.symm]

theorem certificates_complete (type : EntryType) {chain : List Bytes} {r : Reader} (fits : ChainFits chain)
    (h : r.source = .ofBytes (chainLayout chain)) : ∃ s, certificates type r = .ok chain s := by
  obtain ⟨declared, toNat, settles⟩ := settles_length fits.body
  obtain ⟨m, first, passes⟩ := settles r _ h
  obtain ⟨m', second, passes'⟩ := upTo_ofBytes ((chainBody chain).length + 1) passes.source
  rw [List.take_of_length_le (Nat.le_succ _)] at second
  obtain ⟨inner, decoded⟩ : ∃ inner, fields maxCertificateLength (chainBody chain).length []
      {Reader.ofBytes (chainBody chain) with notes := m'.notes} = .ok chain inner :=
    fields_complete (by decide) fits.certificates rfl (Nat.le_refl _)
  have inside := within_ok_iff.2 ⟨inner, decoded, rfl⟩
  refine ⟨{m' with notes := .chainRead type chain.length :: inner.notes}, ?_⟩
  rw [certificates, bind_of_ok (ofChain_ok_iff.2 first), toNat, bind_of_ok (ofChain_ok_iff.2 second),
    if_neg (Nat.lt_irrefl _), if_neg (Nat.lt_irrefl _), bind_of_ok inside]
  rfl

theorem certificates_iff {type : EntryType} {bytes : Bytes} {chain : List Bytes} :
    (∃ r, certificates type (.ofBytes bytes) = .ok chain r) ↔
      (Encoder.certificates chain).toBytes = .ok bytes := by
  rw [Encoder.certificates_toBytes_iff]
  constructor
  · intro parts
    obtain ⟨r, run⟩ := parts
    obtain ⟨fits, layout, -⟩ := certificates_sound rfl run
    exact ⟨fits, layout⟩
  · intro parts
    obtain ⟨fits, rfl⟩ := parts
    exact certificates_complete type fits rfl

theorem x509Chain_ok_iff {certificate : Bytes} {chain : X509Chain} {r s : Reader} :
    x509Chain certificate r = .ok chain s ↔
      chain.leafCertificate = certificate ∧ certificates .x509 r = .ok chain.certificateChain s := by
  constructor
  · intro h
    obtain ⟨items, m, run, last⟩ := ok_of_bind h
    cases last
    exact ⟨rfl, run⟩
  · intro parts
    obtain ⟨rfl, run⟩ := parts
    exact bind_of_ok run

theorem precertChain_ok_iff {p : Precert} {chain : PrecertChain} {r s : Reader} :
    precertChain p r = .ok chain s ↔
      chain.precert = p ∧ certificates .precert r = .ok chain.precertificateChain s := by
  constructor
  · intro h
    obtain ⟨items, m, run, last⟩ := ok_of_bind h
    cases last
    exact ⟨rfl, run⟩
  · intro parts
    obtain ⟨rfl, run⟩ := parts
    exact bind_of_ok run

end Decoder

/-- `r` has taken all of `bytes`, whose first number counts the bytes of `chain` with its lengths. -/
structure Exhausts (bytes : Bytes) (chain : List Bytes) (r : Reader) : Prop where
  unread : r.unread = []
  position : r.position = bytes.length
  declared : ∃ declared s, Decoder.number (bytesNeeded maxChainLength) (.ofBytes bytes) = .ok declared s ∧
    declared.toNat = (chain.map fun certificate => 3 + certificate.length).sum

theorem Exhausts.of_certificates {type : EntryType} {bytes : Bytes} {chain : List Bytes} {r : Reader}
    (run : Decoder.certificates type (.ofBytes bytes) = .ok chain r) : Exhausts bytes chain r := by
  obtain ⟨fits, layout, passes⟩ := Decoder.certificates_sound rfl run
  have position : r.position = bytes.length := passes.position.trans (Nat.zero_add _)
  refine ⟨by rw [Reader.unread, passes.source, Source.unread_ofBytes], position, ?_⟩
  obtain ⟨declared, toNat, settles⟩ := Decoder.settles_length fits.body
  obtain ⟨s, first, -⟩ := settles (.ofBytes bytes) _ (by rw [layout]; rfl)
  exact ⟨declared, s, first, toNat.trans (length_chainBody chain)⟩

/-- **A chain is decoded from the bytes that encode it and from no others**, beside the certificate or
precertificate of its leaf, which comes from elsewhere. -/
theorem chain_decoded_iff_encoded (bytes : Bytes) :
    (∀ certificate chain, (∃ r, Decoder.x509Chain certificate (.ofBytes bytes) = .ok chain r) ↔
        chain.leafCertificate = certificate ∧ encodeX509Chain chain = .ok bytes) ∧
      (∀ precert chain, (∃ r, Decoder.precertChain precert (.ofBytes bytes) = .ok chain r) ↔
        chain.precert = precert ∧ encodePrecertChain chain = .ok bytes) ∧
      (∀ certificate chain r, Decoder.x509Chain certificate (.ofBytes bytes) = .ok chain r →
        Exhausts bytes chain.certificateChain r) ∧
      (∀ precert chain r, Decoder.precertChain precert (.ofBytes bytes) = .ok chain r →
        Exhausts bytes chain.precertificateChain r) := by
  refine ⟨fun certificate chain => ?_, fun precert chain => ?_, fun certificate chain r run => ?_,
    fun precert chain r run => ?_⟩
  · simp only [Decoder.x509Chain_ok_iff, exists_and_left, Decoder.certificates_iff]
    rfl
  · simp only [Decoder.precertChain_ok_iff, exists_and_left, Decoder.certificates_iff]
    rfl
  · exact Exhausts.of_certificates (Decoder.x509Chain_ok_iff.1 run).2
  · exact Exhausts.of_certificates (Decoder.precertChain_ok_iff.1 run).2

/-- An empty certificate and one of a single byte. -/
theorem chain_decoded_iff_encoded_seven :
    encodeX509Chain ⟨[5], [[], [9]]⟩ = .ok [0, 0, 7, 0, 0, 0, 0, 0, 1, 9] ∧
      ∃ r, Decoder.x509Chain [5] (.ofBytes [0, 0, 7, 0, 0, 0, 0, 0, 1, 9]) = .ok ⟨[5], [[], [9]]⟩ r ∧
        Exhausts [0, 0, 7, 0, 0, 0, 0, 0, 1, 9] [[], [9]] r := by
  have encoded : encodeX509Chain ⟨[5], [[], [9]]⟩ = .ok [0, 0, 7, 0, 0, 0, 0, 0, 1, 9] := rfl
  obtain ⟨forth, -, exhausts, -⟩ := chain_decoded_iff_encoded [0, 0, 7, 0, 0, 0, 0, 0, 1, 9]
  obtain ⟨r, run⟩ := (forth [5] ⟨[5], [[], [9]]⟩).2 ⟨rfl, encoded⟩
  exact ⟨encoded, r, run, exhausts [5] ⟨[5], [[], [9]]⟩ r run⟩

end Transparency.Wire
