import Transparency.Text.Base64
import Transparency.Text.Utf8

/-! Base64 texts and the bytes that they spell.

A byte string is spelt by its sextets, a symbol each, and padding. `decode` accepts the texts that spell some
bytes, and gives those bytes (`decode_ok_iff`): under `Padding.canonical` that is the written text alone, and
otherwise its last padding bytes may be missing. -/
namespace Transparency

/-! ### Results -/

section
variable {ε α β : Type}

theorem Except.bind_ok_iff {out : Except ε α} {f : α → Except ε β} {value : β} :
    (out >>= f) = .ok value ↔ ∃ a, out = .ok a ∧ f a = .ok value := by
  cases out <;> simp [bind, Except.bind]

/-- What only builds on a value fails as that does. -/
theorem Except.bind_ok_error_iff {out : Except ε α} {f : α → β} {error : ε} :
    (out >>= fun a => .ok (f a)) = .error error ↔ out = .error error := by
  cases out <;> simp [bind, Except.bind]

/-- A condition that must not hold. -/
theorem Except.unless_ok_iff {c : Prop} [Decidable c] {error : ε} {rest : Unit → Except ε α} {value : α} :
    (if c then (throw error : Except ε Unit) >>= rest else rest ()) = .ok value ↔
      ¬ c ∧ rest () = .ok value := by
  by_cases h : c
  · simp [h, throw, throwThe, MonadExceptOf.throw, bind, Except.bind]
  · simp [h]

theorem Except.toOption_eq_some_iff {out : Except ε α} {value : α} :
    out.toOption = some value ↔ out = .ok value := by
  cases out <;> simp [Except.toOption]

theorem Except.toOption_bind (out : Except ε α) (f : α → Except ε β) :
    (out >>= f).toOption = out.toOption.bind fun a => (f a).toOption := by
  cases out <;> rfl

theorem Except.mapError_ok_iff {δ : Type} {out : Except ε α} {f : ε → δ} {value : α} :
    out.mapError f = .ok value ↔ out = .ok value := by
  constructor
  · intro h
    cases out <;> cases h
    rfl
  · rintro rfl
    rfl

end

namespace Text.Base64

/-! ### Symbols -/

/-- The byte of the symbol of a value. -/
def code (value : Nat) : UInt8 := UInt8.ofNat (symbol value).toNat

theorem eq_code_of_value? : ∀ n < 256, ∀ v ∈ value? (UInt8.ofNat n), v < 64 ∧ UInt8.ofNat n = code v := by
  decide +kernel

theorem value?_eq_some_iff {byte : UInt8} {v : Nat} : value? byte = some v ↔ v < 64 ∧ byte = code v := by
  constructor
  · intro h
    have known := eq_code_of_value? byte.toNat (UInt8.toNat_lt byte) v
    rw [UInt8.ofNat_toNat] at known
    exact known h
  · intro parts
    obtain ⟨small, rfl⟩ := parts
    exact value?_symbol v small

theorem code_ne_pad : ∀ v < 64, code v ≠ pad := by
  decide +kernel

theorem symbol_ascii : ∀ v < 64, (symbol v).toNat < 128 := by
  decide +kernel

/-! ### Sextets -/

/-- The bits of a byte string six by six, with zeros behind the last. -/
def sextetsOf : Bytes → List Nat
  | [] => []
  | [a] => [a.toNat / 4, a.toNat % 4 * 16]
  | [a, b] => [a.toNat / 4, a.toNat % 4 * 16 + b.toNat / 16, b.toNat % 16 * 4]
  | a :: b :: c :: rest =>
    a.toNat / 4 :: (a.toNat % 4 * 16 + b.toNat / 16) :: (b.toNat % 16 * 4 + c.toNat / 64) ::
      c.toNat % 64 :: sextetsOf rest

/-- How much padding follows the symbols of so many bytes. -/
def pads (length : Nat) : Nat := (3 - length % 3) % 3

theorem pads_add_three (length : Nat) : pads (length + 3) = pads length := by
  rw [pads, pads, Nat.add_mod_right]

theorem sextetsOf_lt (bytes : Bytes) : ∀ v ∈ sextetsOf bytes, v < 64 := by
  fun_induction sextetsOf bytes with
  | case1 => simp
  | case2 a =>
    have := UInt8.toNat_lt a
    simp only [List.forall_mem_cons, List.not_mem_nil, false_imp_iff, implies_true, and_true]
    omega
  | case3 a b =>
    have := UInt8.toNat_lt a
    have := UInt8.toNat_lt b
    simp only [List.forall_mem_cons, List.not_mem_nil, false_imp_iff, implies_true, and_true]
    omega
  | case4 a b c rest ih =>
    have := UInt8.toNat_lt a
    have := UInt8.toNat_lt b
    have := UInt8.toNat_lt c
    simp only [List.forall_mem_cons]
    exact ⟨by omega, by omega, by omega, by omega, ih⟩

/-- What is written: the symbols of the sextets, and padding. -/
theorem groups_eq (done : List Char) (bytes : Bytes) :
    groups done bytes =
      done.reverse ++ ((sextetsOf bytes).map symbol ++ List.replicate (pads bytes.length) '=') := by
  fun_induction groups done bytes with
  | case1 done => simp [sextetsOf, pads]
  | case2 done a n =>
    have := UInt8.toNat_lt a
    have high : n / 64 = a.toNat / 4 := by omega
    have low : n % 64 = a.toNat % 4 * 16 := by omega
    simp [sextetsOf, pads, high, low, List.replicate]
  | case3 done a b n =>
    have := UInt8.toNat_lt a
    have := UInt8.toNat_lt b
    have high : n / 4096 = a.toNat / 4 := by omega
    have middle : n / 64 % 64 = a.toNat % 4 * 16 + b.toNat / 16 := by omega
    have low : n % 64 = b.toNat % 16 * 4 := by omega
    simp [sextetsOf, pads, high, middle, low]
  | case4 done a b c rest n ih =>
    have := UInt8.toNat_lt a
    have := UInt8.toNat_lt b
    have := UInt8.toNat_lt c
    have first : n / 262144 = a.toNat / 4 := by omega
    have second : n / 4096 % 64 = a.toNat % 4 * 16 + b.toNat / 16 := by omega
    have third : n / 64 % 64 = b.toNat % 16 * 4 + c.toNat / 64 := by omega
    have fourth : n % 64 = c.toNat % 64 := by omega
    rw [ih, first, second, third, fourth]
    simp [sextetsOf, pads_add_three]

/-- What is written for some bytes, without padding. -/
def symbols (bytes : Bytes) : List Char := (sextetsOf bytes).map symbol

theorem toList_encode (bytes : Bytes) :
    (encode bytes).toList = symbols bytes ++ List.replicate (pads bytes.length) '=' := by
  rw [encode, String.toList_ofList, groups_eq]
  rfl

theorem encode_symbols (bytes : Bytes) (count : Nat) :
    Utf8.encode (symbols bytes ++ List.replicate count '=') =
      (sextetsOf bytes).map code ++ List.replicate count pad := by
  have ascii : ∀ c ∈ symbols bytes ++ List.replicate count '=', c.toNat < 128 := by
    intro c member
    simp only [symbols, List.mem_append, List.mem_map, List.mem_replicate] at member
    rcases member with ⟨v, sextet, rfl⟩ | ⟨-, rfl⟩
    · exact symbol_ascii v (sextetsOf_lt bytes v sextet)
    · decide
  rw [Utf8.encode_ascii ascii]
  simp only [symbols, List.map_append, List.map_map, List.map_replicate]
  rfl

theorem ofString_encode (bytes : Bytes) :
    Utf8.ofString (encode bytes) = (sextetsOf bytes).map code ++ List.replicate (pads bytes.length) pad := by
  rw [Utf8.ofString_eq_encode, toList_encode, encode_symbols]

/-! ### Spellings -/

/-- `text` is what is written for `bytes`, if need be without the end of its padding. -/
def Spells (padding : Padding) (text bytes : Bytes) : Prop :=
  ∃ count ≤ pads bytes.length, text = (sextetsOf bytes).map code ++ List.replicate count pad ∧
    (padding = .canonical → count = pads bytes.length)

theorem spells_canonical_iff {text bytes : Bytes} :
    Spells .canonical text bytes ↔ text = Utf8.ofString (encode bytes) := by
  rw [ofString_encode]
  constructor
  · intro parts
    obtain ⟨count, -, rfl, full⟩ := parts
    rw [full rfl]
  · intro same
    exact ⟨_, Nat.le_refl _, same, fun _ => rfl⟩

/-- Three bytes are four symbols, whatever follows them. -/
theorem spells_group_iff {padding : Padding} {text : Bytes} {a b c : UInt8} {rest : Bytes} {p q r s : UInt8} :
    Spells padding (p :: q :: r :: s :: text) (a :: b :: c :: rest) ↔
      [p, q, r, s] = (sextetsOf [a, b, c]).map code ∧ Spells padding text rest := by
  simp only [Spells, sextetsOf, List.length_cons, pads_add_three, List.map_cons, List.map_nil, List.cons_append,
    List.cons.injEq]
  constructor
  · intro parts
    obtain ⟨count, bound, ⟨hp, hq, hr, hs, rfl⟩, full⟩ := parts
    exact ⟨⟨hp, hq, hr, hs, trivial⟩, count, bound, rfl, full⟩
  · intro parts
    obtain ⟨⟨hp, hq, hr, hs, -⟩, count, bound, rfl, full⟩ := parts
    exact ⟨count, bound, ⟨hp, hq, hr, hs, rfl⟩, full⟩

/-! ### Reading -/

theorem sextet_ok_iff {byte : UInt8} {index v : Nat} :
    sextet byte index = .ok v ↔ v < 64 ∧ byte = code v := by
  rw [← value?_eq_some_iff, sextet]
  cases value? byte <;> simp

theorem sextets_ok_iff {index : Nat} {text : Bytes} {values : List Nat} :
    sextets index text = .ok values ↔ (∀ v ∈ values, v < 64) ∧ text = values.map code := by
  induction text generalizing index values with
  | nil => cases values <;> simp [sextets]
  | cons byte rest ih =>
    simp only [sextets, Except.bind_ok_iff, sextet_ok_iff, ih, Except.ok.injEq]
    constructor
    · intro parts
      obtain ⟨v, ⟨small, rfl⟩, others, ⟨smalls, rfl⟩, rfl⟩ := parts
      exact ⟨List.forall_mem_cons.2 ⟨small, smalls⟩, rfl⟩
    · intro parts
      obtain ⟨smalls, same⟩ := parts
      cases values with
      | nil => cases same
      | cons v others =>
        obtain ⟨small, smalls⟩ := List.forall_mem_cons.1 smalls
        cases same
        exact ⟨v, ⟨small, rfl⟩, others, ⟨smalls, rfl⟩, rfl⟩

/-- Symbols end where the padding begins. -/
theorem split_code_pad {values : List Nat} (small : ∀ v ∈ values, v < 64) (count : Nat) :
    (values.map code ++ List.replicate count pad).takeWhile (· ≠ pad) = values.map code ∧
      (values.map code ++ List.replicate count pad).dropWhile (· ≠ pad) = List.replicate count pad := by
  have symbols : ∀ byte ∈ values.map code, decide (byte ≠ pad) = true := by
    intro byte member
    obtain ⟨v, sextet, rfl⟩ := List.mem_map.1 member
    exact decide_eq_true (code_ne_pad v (small v sextet))
  rw [List.takeWhile_append_of_pos symbols, List.dropWhile_append_of_pos symbols]
  cases count <;> simp [List.replicate_succ]

/-- A tail is symbols with padding behind them, and its last symbol leaves no bits over. -/
theorem tail_ok_iff {padding : Padding} {start : Nat} {text bytes : Bytes} :
    tail padding start text = .ok bytes ↔ ∃ values count,
      text = values.map code ++ List.replicate count pad ∧ (∀ v ∈ values, v < 64) ∧
        (text = [] ∨ 2 ≤ values.length) ∧ (padding = .canonical → (values.length + count) % 4 = 0) ∧
          tailBytes values = (bytes, 0) := by
  unfold tail
  simp only [Except.bind_ok_iff, Except.unless_ok_iff, sextets_ok_iff]
  constructor
  · intro parts
    obtain ⟨values, ⟨small, symbols⟩, padded, enough, whole, exact, last⟩ := parts
    have split := List.takeWhile_append_dropWhile (p := (· ≠ pad)) (l := text)
    rw [symbols] at split enough whole
    rw [List.length_map] at enough whole
    have filled : text.dropWhile (· ≠ pad) = List.replicate (text.dropWhile (· ≠ pad)).length pad := by
      refine List.eq_replicate_iff.2 ⟨rfl, fun byte member => Decidable.byContradiction fun other => ?_⟩
      exact padded ⟨List.ne_nil_of_mem member, .inr (List.any_eq_true.2 ⟨byte, member, decide_eq_true other⟩)⟩
    rw [filled] at split
    refine ⟨values, _, split.symm, small, ?_, fun canonical => ?_, ?_⟩
    · by_cases none : text = []
      · exact .inl none
      · exact .inr (Nat.le_of_not_lt fun few => enough ⟨none, few⟩)
    · exact Decidable.byContradiction fun part => whole ⟨canonical, part⟩
    · exact Prod.ext (Except.ok.inj last) (Decidable.not_not.1 exact)
  · intro parts
    obtain ⟨values, count, same, small, enough, whole, exact⟩ := parts
    obtain ⟨symbols, padded⟩ := split_code_pad small count
    rw [← same] at symbols padded
    rw [symbols, padded]
    refine ⟨values, ⟨small, rfl⟩, ?_⟩
    rw [exact, List.length_map, List.length_replicate]
    refine ⟨?_, ?_, ?_, ?_, rfl⟩
    · intro parts
      obtain ⟨some, few | foreign⟩ := parts
      · refine absurd few (Nat.not_lt.2 (enough.resolve_left fun none => some ?_))
        rw [none] at padded
        exact padded.symm
      · simp at foreign
    · intro parts
      obtain ⟨some, few⟩ := parts
      exact absurd few (Nat.not_lt.2 (enough.resolve_left some))
    · intro parts
      exact parts.2 (whole parts.1)
    · simp

/-- The bytes of a tail have its symbols as their sextets. -/
theorem sextetsOf_of_tailBytes {values : List Nat} {bytes : Bytes} (small : ∀ v ∈ values, v < 64)
    (few : values.length ≤ 4) (enough : values = [] ∨ 2 ≤ values.length)
    (exact : tailBytes values = (bytes, 0)) : sextetsOf bytes = values ∧ bytes.length ≤ 3 := by
  match values with
  | [] =>
    cases exact
    exact ⟨rfl, by decide⟩
  | [x] => simp at enough
  | [x, y] =>
    simp only [List.forall_mem_cons] at small
    simp only [tailBytes, Prod.mk.injEq] at exact
    obtain ⟨rfl, spare⟩ := exact
    have byte := toNat_ofNat_byte (n := x * 4 + y / 16) (by omega)
    refine ⟨?_, by simp⟩
    simp only [sextetsOf, byte, List.cons.injEq, and_true]
    omega
  | [x, y, z] =>
    simp only [List.forall_mem_cons] at small
    simp only [tailBytes, Prod.mk.injEq] at exact
    obtain ⟨rfl, spare⟩ := exact
    have high := toNat_ofNat_byte (n := ((x * 64 + y) * 64 + z) / 1024) (by omega)
    have low := toNat_ofNat_byte (n := ((x * 64 + y) * 64 + z) / 4 % 256) (by omega)
    refine ⟨?_, by simp⟩
    simp only [sextetsOf, high, low, List.cons.injEq, and_true]
    omega
  | [x, y, z, w] =>
    simp only [List.forall_mem_cons] at small
    simp only [tailBytes, Prod.mk.injEq] at exact
    obtain ⟨rfl, -⟩ := exact
    have high := toNat_ofNat_byte (n := (((x * 64 + y) * 64 + z) * 64 + w) / 65536) (by omega)
    have middle := toNat_ofNat_byte (n := (((x * 64 + y) * 64 + z) * 64 + w) / 256 % 256) (by omega)
    have low := toNat_ofNat_byte (n := (((x * 64 + y) * 64 + z) * 64 + w) % 256) (by omega)
    refine ⟨?_, by simp⟩
    simp only [sextetsOf, high, middle, low, List.cons.injEq, and_true]
    omega

theorem tailBytes_sextetsOf {bytes : Bytes} (few : bytes.length ≤ 3) :
    tailBytes (sextetsOf bytes) = (bytes, 0) := by
  match bytes with
  | [] => rfl
  | [a] =>
    have := UInt8.toNat_lt a
    have whole : a.toNat / 4 * 4 + a.toNat % 4 * 16 / 16 = a.toNat := by omega
    simp only [sextetsOf, tailBytes, whole, UInt8.ofNat_toNat, Prod.mk.injEq, true_and]
    omega
  | [a, b] =>
    have := UInt8.toNat_lt a
    have := UInt8.toNat_lt b
    generalize total : (a.toNat / 4 * 64 + (a.toNat % 4 * 16 + b.toNat / 16)) * 64 + b.toNat % 16 * 4 = n
    have high : n / 1024 = a.toNat := by omega
    have low : n / 4 % 256 = b.toNat := by omega
    simp only [sextetsOf, tailBytes, total, high, low, UInt8.ofNat_toNat, Prod.mk.injEq, true_and]
    omega
  | [a, b, c] =>
    have := UInt8.toNat_lt a
    have := UInt8.toNat_lt b
    have := UInt8.toNat_lt c
    generalize total : ((a.toNat / 4 * 64 + (a.toNat % 4 * 16 + b.toNat / 16)) * 64 +
      (b.toNat % 16 * 4 + c.toNat / 64)) * 64 + c.toNat % 64 = n
    have high : n / 65536 = a.toNat := by omega
    have middle : n / 256 % 256 = b.toNat := by omega
    have low : n % 256 = c.toNat := by omega
    simp only [sextetsOf, tailBytes, total, high, middle, low, UInt8.ofNat_toNat]

/-- Symbols and padding fill whole groups. -/
theorem length_sextetsOf_add_pads (bytes : Bytes) :
    (sextetsOf bytes).length + pads bytes.length = 4 * ((bytes.length + 2) / 3) := by
  fun_induction sextetsOf bytes with
  | case1 => rfl
  | case2 a => simp [pads]
  | case3 a b => simp [pads]
  | case4 a b c rest ih =>
    simp only [List.length_cons, Nat.add_assoc, Nat.reduceAdd, pads_add_three]
    omega

theorem pads_le_two (length : Nat) : pads length ≤ 2 := by
  rw [pads]
  omega

/-- What fits one group are up to three bytes. -/
theorem Spells.short_iff {padding : Padding} {text bytes : Bytes} (h : Spells padding text bytes) :
    text.length ≤ 4 ↔ bytes.length ≤ 3 := by
  obtain ⟨count, bound, rfl, -⟩ := h
  have whole := length_sextetsOf_add_pads bytes
  have two := pads_le_two bytes.length
  rw [List.length_append, List.length_map, List.length_replicate]
  omega

theorem tail_ok_iff_spells {padding : Padding} {start : Nat} {text bytes : Bytes} (few : text.length ≤ 4) :
    tail padding start text = .ok bytes ↔ Spells padding text bytes := by
  have groups := length_sextetsOf_add_pads bytes
  have two := pads_le_two bytes.length
  rw [tail_ok_iff]
  constructor
  · intro parts
    obtain ⟨values, count, same, small, enough, whole, exact⟩ := parts
    have length := congrArg List.length same
    rw [List.length_append, List.length_map, List.length_replicate] at length
    have some : values = [] ∨ 2 ≤ values.length := by
      refine enough.imp_left fun none => List.length_eq_zero_iff.1 ?_
      rw [none] at length
      exact Nat.eq_zero_of_add_eq_zero_right length.symm
    have none : values.length = 0 → count = 0 := by
      intro empty
      have nothing := enough.resolve_right (by omega)
      rw [nothing] at length
      exact Nat.eq_zero_of_add_eq_zero_left length.symm
    obtain ⟨rfl, up⟩ := sextetsOf_of_tailBytes small (by omega) some exact
    refine ⟨count, by omega, same, fun canonical => ?_⟩
    have full := whole canonical
    omega
  · intro spells
    have up := spells.short_iff.1 few
    obtain ⟨count, bound, same, full⟩ := spells
    refine ⟨_, count, same, sextetsOf_lt bytes, ?_, fun canonical => ?_, tailBytes_sextetsOf up⟩
    · by_cases none : bytes.length = 0
      · rw [List.length_eq_zero_iff.1 none] at same bound
        rw [Nat.le_zero.1 bound] at same
        exact .inl same
      · exact .inr (by omega)
    · rw [full canonical]
      omega

/-- Four symbols are three bytes. -/
theorem exists_of_spells_group {padding : Padding} {p q r s t : UInt8} {text bytes : Bytes}
    (h : Spells padding (p :: q :: r :: s :: t :: text) bytes) :
    ∃ a b c rest, bytes = a :: b :: c :: rest ∧ [p, q, r, s] = (sextetsOf [a, b, c]).map code ∧
      Spells padding (t :: text) rest := by
  match bytes with
  | a :: b :: c :: rest => exact ⟨a, b, c, rest, rfl, spells_group_iff.1 h⟩
  | [] | [_] | [_, _] =>
    have few := h.short_iff.2 (by simp)
    simp only [List.length_cons] at few
    omega

/-- What is read on from a place is what the text from there spells. -/
theorem scan_ok_iff {padding : Padding} {index : Nat} {done text out : Bytes} :
    scan padding index done text = .ok out ↔
      ∃ bytes, out = done.reverse ++ bytes ∧ Spells padding text bytes := by
  fun_induction scan padding index done text generalizing out with
  | case1 index done p q r s t rest ih =>
    simp only [Except.bind_ok_iff, sextet_ok_iff, ih]
    constructor
    · intro parts
      obtain ⟨x, ⟨hx, rfl⟩, y, ⟨hy, rfl⟩, z, ⟨hz, rfl⟩, w, ⟨hw, rfl⟩, bytes, rfl, spells⟩ := parts
      have small : ∀ v ∈ [x, y, z, w], v < 64 := by simp [hx, hy, hz, hw]
      obtain ⟨sextets, -⟩ := sextetsOf_of_tailBytes small (by simp) (.inr (by simp)) rfl
      refine ⟨_ :: _ :: _ :: bytes, ?_, spells_group_iff.2 ⟨congrArg (List.map code) sextets.symm, spells⟩⟩
      simp
    · intro parts
      obtain ⟨bytes, rfl, spells⟩ := parts
      obtain ⟨a, b, c, rest, rfl, symbols, others⟩ := exists_of_spells_group spells
      have small := sextetsOf_lt [a, b, c]
      have bytes := @tailBytes_sextetsOf [a, b, c] (by simp)
      simp only [sextetsOf, List.forall_mem_cons, List.map_cons, List.cons.injEq] at small symbols
      simp only [sextetsOf, tailBytes, Prod.mk.injEq, List.cons.injEq] at bytes
      refine ⟨_, ⟨small.1, symbols.1⟩, _, ⟨small.2.1, symbols.2.1⟩, _, ⟨small.2.2.1, symbols.2.2.1⟩, _,
        ⟨small.2.2.2.1, symbols.2.2.2.1⟩, rest, ?_, others⟩
      rw [bytes.1.1, bytes.1.2.1, bytes.1.2.2.1]
      simp
  | case2 index done text long =>
    have few : text.length ≤ 4 := by
      match text with
      | [] | [_] | [_, _] | [_, _, _] | [_, _, _, _] => simp
      | p :: q :: r :: s :: t :: rest => exact (long p q r s t rest rfl).elim
    simp only [Except.bind_ok_iff, tail_ok_iff_spells few]
    constructor
    · intro parts
      obtain ⟨bytes, spells, last⟩ := parts
      cases last
      exact ⟨bytes, List.reverseAux_eq, spells⟩
    · intro parts
      obtain ⟨bytes, rfl, spells⟩ := parts
      exact ⟨bytes, spells, congrArg Except.ok List.reverseAux_eq⟩

/-- The look at the last byte alone refuses nothing that would be read. -/
theorem Spells.length_mod {padding : Padding} {text bytes : Bytes} (h : Spells padding text bytes) :
    text.length % 4 ≠ 1 := by
  obtain ⟨count, bound, rfl, -⟩ := h
  have whole := length_sextetsOf_add_pads bytes
  have two := pads_le_two bytes.length
  rw [List.length_append, List.length_map, List.length_replicate]
  omega

/-- A text is read as the bytes that it spells. -/
theorem decode_ok_iff {padding : Padding} {text bytes : Bytes} :
    decode padding text = .ok bytes ↔ Spells padding text bytes := by
  have scanned : scan padding 0 [] text = .ok bytes ↔ Spells padding text bytes := by
    rw [scan_ok_iff]
    simp
  rw [← scanned]
  unfold decode
  constructor
  · intro h
    split at h
    · dsimp only at h
      split at h
      · obtain ⟨_, -, h⟩ := Except.bind_ok_iff.1 h
        exact h
      · exact h
    · exact h
  · intro h
    rw [if_neg (scanned.1 h).length_mod]
    exact h

/-- Under canonical padding every byte string has one text. -/
theorem decode_canonical_iff {text : String} {bytes : Bytes} :
    decode .canonical (Utf8.ofString text) = .ok bytes ↔ text = encode bytes := by
  rw [decode_ok_iff, spells_canonical_iff, Utf8.ofString_inj]

theorem decode_encode_iff {chars : List Char} {bytes : Bytes} :
    decode .canonical (Utf8.encode chars) = .ok bytes ↔ chars = (encode bytes).toList := by
  have text : Utf8.encode chars = Utf8.ofString (String.ofList chars) := by
    rw [Utf8.ofString_eq_encode, String.toList_ofList]
  rw [text, decode_canonical_iff, ← String.toList_inj, String.toList_ofList]

end Text.Base64

end Transparency
