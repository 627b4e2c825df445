import Transparency.Text.Utf8

/-! UTF-8 is read as it is written.

Every character has one sequence of bytes (`Sequence`), which is the one that is written for it and the only one
that is read as it. So what is decoded from a byte string are the characters of which it is the text, if there
are any (`decode_ok_iff`). -/
namespace Transparency.Text.Utf8

/-! ### Sequences -/

/-- The bytes of a character. -/
inductive Sequence : Bytes → Char → Prop where
  | one {a : UInt8} : a.toNat < 0x80 → Sequence [a] (Char.ofNat a.toNat)
  | two {a b : UInt8} : 0xC2 ≤ a.toNat → a.toNat ≤ 0xDF → isContinuation b = true → Sequence [a, b] (char2 a b)
  | three {a b c : UInt8} : 0xE0 ≤ a.toNat → a.toNat ≤ 0xEF → isSecond a b = true → isContinuation c = true →
      Sequence [a, b, c] (char3 a b c)
  | four {a b c d : UInt8} : 0xF0 ≤ a.toNat → a.toNat ≤ 0xF4 → isSecond a b = true → isContinuation c = true →
      isContinuation d = true → Sequence [a, b, c, d] (char4 a b c d)

theorem isContinuation_iff {b : UInt8} : isContinuation b = true ↔ 0x80 ≤ b.toNat ∧ b.toNat ≤ 0xBF := by
  simp [isContinuation, UInt8.le_iff_toNat_le]

theorem isSecond_iff {a b : UInt8} : isSecond a b = true ↔
    0x80 ≤ b.toNat ∧ b.toNat ≤ 0xBF ∧ (a.toNat = 0xE0 → 0xA0 ≤ b.toNat) ∧ (a.toNat = 0xF0 → 0x90 ≤ b.toNat) ∧
      (a.toNat = 0xED → b.toNat ≤ 0x9F) ∧ (a.toNat = 0xF4 → b.toNat ≤ 0x8F) := by
  simp only [isSecond, Bool.and_eq_true, decide_eq_true_eq, UInt8.le_iff_toNat_le, ← UInt8.toNat_inj,
    apply_ite UInt8.toNat, UInt8.reduceToNat]
  grind

theorem val_ofNat {n : Nat} (valid : n.isValidChar) : (Char.ofNat n).val.toNat = n := by
  rw [Char.ofNat, dif_pos valid]
  rfl

theorem ofNat_eq_of_toNat {a : UInt8} {n : Nat} (same : n = a.toNat) : UInt8.ofNat n = a := by
  rw [same, UInt8.ofNat_toNat]

/-- It is what is written. -/
theorem Sequence.encode {code : Bytes} {c : Char} (h : Sequence code c) : String.utf8EncodeChar c = code := by
  cases h with
  | @one a small =>
    have value : (Char.ofNat a.toNat).val.toNat = a.toNat := val_ofNat (.inl (by omega))
    simp only [String.utf8EncodeChar, value]
    rw [if_pos (by omega), UInt8.ofNat_toNat]
  | @two a b low high continuation =>
    rw [isContinuation_iff] at continuation
    have value : (char2 a b).val.toNat = a.toNat % 32 * 64 + b.toNat % 64 := val_ofNat (.inl (by
      unfold payload
      omega))
    simp only [String.utf8EncodeChar, value]
    rw [if_neg (by omega), if_pos (by omega), ofNat_eq_of_toNat (a := a) (by omega),
      ofNat_eq_of_toNat (a := b) (by omega)]
  | @three a b c low high second continuation =>
    rw [isContinuation_iff] at continuation
    rw [isSecond_iff] at second
    have value : (char3 a b c).val.toNat = (a.toNat % 16 * 64 + b.toNat % 64) * 64 + c.toNat % 64 := by
      refine val_ofNat ?_
      unfold payload Nat.isValidChar
      omega
    simp only [String.utf8EncodeChar, value]
    rw [if_neg (by omega), if_neg (by omega), if_pos (by omega), ofNat_eq_of_toNat (a := a) (by omega),
      ofNat_eq_of_toNat (a := b) (by omega), ofNat_eq_of_toNat (a := c) (by omega)]
  | @four a b c d low high second continuation last =>
    rw [isContinuation_iff] at continuation last
    rw [isSecond_iff] at second
    have value : (char4 a b c d).val.toNat =
        ((a.toNat % 8 * 64 + b.toNat % 64) * 64 + c.toNat % 64) * 64 + d.toNat % 64 := by
      refine val_ofNat ?_
      unfold payload Nat.isValidChar
      omega
    simp only [String.utf8EncodeChar, value]
    rw [if_neg (by omega), if_neg (by omega), if_neg (by omega), ofNat_eq_of_toNat (a := a) (by omega),
      ofNat_eq_of_toNat (a := b) (by omega), ofNat_eq_of_toNat (a := c) (by omega),
      ofNat_eq_of_toNat (a := d) (by omega)]

theorem ofNat_eq_of_val {c : Char} {n : Nat} (same : n = c.val.toNat) : Char.ofNat n = c := by
  rw [same]
  exact Char.ofNat_toNat c

/-- What is written for a character are its bytes. -/
theorem Sequence.of_char (c : Char) : Sequence (String.utf8EncodeChar c) c := by
  have valid : c.val.toNat.isValidChar := c.valid
  generalize value : c.val.toNat = v at valid
  unfold Nat.isValidChar at valid
  simp only [String.utf8EncodeChar, value]
  split
  next =>
    have byte := toNat_ofNat_byte (n := v) (by omega)
    have char : Char.ofNat (UInt8.ofNat v).toNat = c := ofNat_eq_of_val (by omega)
    exact char ▸ .one (by omega)
  split
  next =>
    have first := toNat_ofNat_byte (n := v / 64 % 32 + 192) (by omega)
    have last := toNat_ofNat_byte (n := v % 64 + 128) (by omega)
    have char : char2 (UInt8.ofNat (v / 64 % 32 + 192)) (UInt8.ofNat (v % 64 + 128)) = c := by
      refine ofNat_eq_of_val ?_
      unfold payload
      omega
    exact char ▸ .two (by omega) (by omega) (isContinuation_iff.2 (by omega))
  split
  next =>
    have first := toNat_ofNat_byte (n := v / 4096 % 16 + 224) (by omega)
    have second := toNat_ofNat_byte (n := v / 64 % 64 + 128) (by omega)
    have last := toNat_ofNat_byte (n := v % 64 + 128) (by omega)
    have char : char3 (UInt8.ofNat (v / 4096 % 16 + 224)) (UInt8.ofNat (v / 64 % 64 + 128))
        (UInt8.ofNat (v % 64 + 128)) = c := by
      refine ofNat_eq_of_val ?_
      unfold payload
      omega
    exact char ▸ .three (by omega) (by omega) (isSecond_iff.2 (by omega)) (isContinuation_iff.2 (by omega))
  next =>
    have first := toNat_ofNat_byte (n := v / 262144 % 8 + 240) (by omega)
    have second := toNat_ofNat_byte (n := v / 4096 % 64 + 128) (by omega)
    have third := toNat_ofNat_byte (n := v / 64 % 64 + 128) (by omega)
    have last := toNat_ofNat_byte (n := v % 64 + 128) (by omega)
    have char : char4 (UInt8.ofNat (v / 262144 % 8 + 240)) (UInt8.ofNat (v / 4096 % 64 + 128))
        (UInt8.ofNat (v / 64 % 64 + 128)) (UInt8.ofNat (v % 64 + 128)) = c := by
      refine ofNat_eq_of_val ?_
      unfold payload
      omega
    exact char ▸ .four (by omega) (by omega) (isSecond_iff.2 (by omega)) (isContinuation_iff.2 (by omega))
      (isContinuation_iff.2 (by omega))

/-! ### Texts -/

theorem not_ascii {a : UInt8} (large : 0x80 ≤ a.toNat) : ¬ a < 0x80 :=
  UInt8.not_lt.2 (UInt8.le_iff_toNat_le.2 large)

theorem leads_iff {low high a : UInt8} :
    (low ≤ a && a ≤ high) = true ↔ low.toNat ≤ a.toNat ∧ a.toNat ≤ high.toNat := by
  simp [UInt8.le_iff_toNat_le]

/-- The bytes of a character are read as it. -/
theorem Sequence.scan {code : Bytes} {c : Char} (h : Sequence code c) (index : Nat) (done : List Char)
    (rest : Bytes) : scan index done (code ++ rest) = Utf8.scan (index + code.length) (c :: done) rest := by
  cases h with
  | @one a small =>
    have ascii : a < 0x80 := UInt8.lt_iff_toNat_lt.2 small
    rw [Utf8.scan.eq_def]
    simp only [List.singleton_append, ascii, if_true, List.length_singleton]
  | @two a b low high continuation =>
    have ascii : ¬ a < 0x80 := not_ascii (Nat.le_trans (by decide) low)
    have lead : (0xC2 ≤ a && a ≤ 0xDF) = true := leads_iff.2 ⟨low, high⟩
    rw [Utf8.scan.eq_def]
    simp only [List.cons_append, List.nil_append, ascii, lead, continuation, if_true, if_false]
    rfl
  | @three a b c low high second continuation =>
    have ascii : ¬ a < 0x80 := not_ascii (Nat.le_trans (by decide) low)
    have lead2 : ¬ (0xC2 ≤ a && a ≤ 0xDF) = true := fun lead =>
      absurd (Nat.le_trans low (leads_iff.1 lead).2) (by decide)
    have lead : (0xE0 ≤ a && a ≤ 0xEF) = true := leads_iff.2 ⟨low, high⟩
    rw [Utf8.scan.eq_def]
    simp only [List.cons_append, List.nil_append, ascii, lead2, lead, second, continuation, if_true, if_false]
    rfl
  | @four a b c d low high second continuation last =>
    have ascii : ¬ a < 0x80 := not_ascii (Nat.le_trans (by decide) low)
    have lead2 : ¬ (0xC2 ≤ a && a ≤ 0xDF) = true := fun lead =>
      absurd (Nat.le_trans low (leads_iff.1 lead).2) (by decide)
    have lead3 : ¬ (0xE0 ≤ a && a ≤ 0xEF) = true := fun lead =>
      absurd (Nat.le_trans low (leads_iff.1 lead).2) (by decide)
    have lead : (0xF0 ≤ a && a ≤ 0xF4) = true := leads_iff.2 ⟨low, high⟩
    rw [Utf8.scan.eq_def]
    simp only [List.cons_append, List.nil_append, ascii, lead2, lead3, lead, second, continuation, last, if_true,
      if_false]
    rfl

/-- Whatever the characters so far, those of a text are read from it. -/
theorem scan_encode (chars : List Char) (index : Nat) (done : List Char) :
    scan index done (encode chars) = .ok (done.reverse ++ chars) := by
  induction chars generalizing index done with
  | nil => rw [List.append_nil]; rfl
  | cons c rest ih =>
    have text : encode (c :: rest) = String.utf8EncodeChar c ++ encode rest := List.flatMap_cons
    rw [text, (Sequence.of_char c).scan, ih, List.reverse_cons, List.append_assoc, List.singleton_append]

/-- One more character in front. -/
theorem encode_cons {code rest : Bytes} {c : Char} {done chars tail : List Char} (h : Sequence code c)
    (read : chars = (c :: done).reverse ++ tail) (text : rest = encode tail) :
    chars = done.reverse ++ c :: tail ∧ code ++ rest = encode (c :: tail) := by
  rw [List.reverse_cons, List.append_assoc, List.singleton_append] at read
  refine ⟨read, ?_⟩
  rw [text, ← h.encode]
  exact List.flatMap_cons.symm

theorem scan_ok {index : Nat} {done chars : List Char} {bytes : Bytes} (h : scan index done bytes = .ok chars) :
    ∃ rest, chars = done.reverse ++ rest ∧ bytes = encode rest := by
  fun_induction Utf8.scan index done bytes with
  | case1 index done =>
    cases h
    exact ⟨[], (List.append_nil _).symm, rfl⟩
  | case2 index done a rest ascii ih =>
    obtain ⟨tail, read, text⟩ := ih h
    exact ⟨_, encode_cons (.one ascii) read text⟩
  | case4 index done a ascii lead b rest continuation ih =>
    obtain ⟨tail, read, text⟩ := ih h
    simp only [Bool.and_eq_true, decide_eq_true_eq] at lead
    exact ⟨_, encode_cons (.two lead.1 lead.2 continuation) read text⟩
  | case8 index done a ascii lead2 lead b second c rest continuation ih =>
    obtain ⟨tail, read, text⟩ := ih h
    simp only [Bool.and_eq_true, decide_eq_true_eq] at lead
    exact ⟨_, encode_cons (.three lead.1 lead.2 second continuation) read text⟩
  | case14 index done a ascii lead2 lead3 lead b second c continuation d rest last ih =>
    obtain ⟨tail, read, text⟩ := ih h
    simp only [Bool.and_eq_true, decide_eq_true_eq] at lead
    exact ⟨_, encode_cons (.four lead.1 lead.2 second continuation last) read text⟩
  | _ => cases h

/-- **The characters that are read are those of which the bytes are the text.** -/
theorem decode_ok_iff {bytes : Bytes} {chars : List Char} : decode bytes = .ok chars ↔ bytes = encode chars := by
  constructor
  · intro h
    obtain ⟨rest, rfl, text⟩ := scan_ok h
    exact text
  · rintro rfl
    exact scan_encode chars 0 []

theorem encode_injective {a b : List Char} (same : encode a = encode b) : a = b := by
  have read := decode_ok_iff.2 same
  rw [decode_ok_iff.2 rfl] at read
  exact Except.ok.inj read

theorem encode_cons_ascii {c : Char} (ascii : c.toNat < 128) (rest : List Char) :
    encode (c :: rest) = UInt8.ofNat c.toNat :: encode rest := by
  have one : String.utf8EncodeChar c = [UInt8.ofNat c.toNat] := if_pos (Nat.le_of_lt_succ ascii)
  have text : encode (c :: rest) = String.utf8EncodeChar c ++ encode rest := List.flatMap_cons
  rw [text, one, List.singleton_append]

end Transparency.Text.Utf8
