import Transparency.Json.Pretty

/-! Pretty text tells JSON values apart.

The text of a value ends where the value does: a number at the first character that belongs to no number, a
string at the first quote that is not escaped, the others at their closing bracket or word. So whatever follows
it, the value is known from its text (`chars_cancel`), and no two values have the same text. -/
namespace Transparency.Json

/-- A stretch of characters of one kind ends where the kind does. -/
theorem stretch_cancel {kind : Char → Bool} {a b rest rest' : List Char} (ofKindA : ∀ c ∈ a, kind c = true)
    (ofKindB : ∀ c ∈ b, kind c = true) (ends : rest.takeWhile kind = []) (ends' : rest'.takeWhile kind = [])
    (same : a ++ rest = b ++ rest') : a = b ∧ rest = rest' := by
  have stretches := congrArg (List.takeWhile kind) same
  rw [List.takeWhile_append_of_pos ofKindA, List.takeWhile_append_of_pos ofKindB, ends, ends', List.append_nil,
    List.append_nil] at stretches
  subst stretches
  exact ⟨rfl, List.append_cancel_left same⟩

/-! ### Numbers -/

/-- The characters of numbers. -/
def isNumeral (c : Char) : Bool := c.isDigit || c = '-' || c = '.'

theorem digits_inj {n m : Nat} (same : Nat.toDigits 10 n = Nat.toDigits 10 m) : n = m := by
  rw [← Nat.ofDigitChars_toDigits (b := 10) (n := n) (by decide) (by decide), same,
    Nat.ofDigitChars_toDigits (by decide) (by decide)]

theorem isDigit_of_mem_digits {n : Nat} {c : Char} (member : c ∈ Nat.toDigits 10 n) : c.isDigit = true :=
  Nat.isDigit_of_mem_toDigits (by decide) (by decide) member

theorem integerChars_inj {n m : Int} (same : integerChars n = integerChars m) : n = m := by
  have signed : ∀ n m : Nat, Nat.toDigits 10 n ≠ '-' :: Nat.toDigits 10 m := by
    intro n m same
    have minus : '-' ∈ Nat.toDigits 10 n := by
      rw [same]
      exact List.mem_cons_self ..
    exact absurd (isDigit_of_mem_digits minus) (by decide)
  cases n with
  | ofNat n =>
    cases m with
    | ofNat m => rw [digits_inj same]
    | negSucc m => exact absurd same (signed _ _)
  | negSucc n =>
    cases m with
    | ofNat m => exact absurd same.symm (signed _ _)
    | negSucc m => rw [Nat.succ_inj.1 (digits_inj (List.cons.inj same).2)]

theorem isNumeral_of_mem_integerChars {n : Int} : ∀ c ∈ integerChars n, isNumeral c = true := by
  intro c member
  cases n with
  | ofNat n => simp [isNumeral, isDigit_of_mem_digits member]
  | negSucc n =>
    rcases List.mem_cons.1 member with rfl | member
    · decide
    · simp [isNumeral, isDigit_of_mem_digits member]

/-- The digits of a decimal, before and after its point. -/
def decimalDigits (mantissa : Int) (places : Nat) : List Char :=
  let digits := Nat.toDigits 10 mantissa.natAbs
  List.replicate (places + 1 - digits.length) '0' ++ digits

theorem isDigit_of_mem_decimalDigits {mantissa : Int} {places : Nat} {c : Char}
    (member : c ∈ decimalDigits mantissa places) : c.isDigit = true := by
  rcases List.mem_append.1 member with zero | digit
  · rw [List.eq_of_mem_replicate zero]
    decide
  · exact isDigit_of_mem_digits digit

/-- Zeros in front do not count. -/
theorem ofDigitChars_decimalDigits (mantissa : Int) (places : Nat) :
    Nat.ofDigitChars 10 (decimalDigits mantissa places) 0 = mantissa.natAbs := by
  have zeros (n : Nat) : Nat.ofDigitChars 10 (List.replicate n '0') 0 = 0 := by
    induction n with
    | zero => rfl
    | succ n ih => exact ih
  rw [decimalDigits, Nat.ofDigitChars_append, zeros, Nat.ofDigitChars_toDigits (by decide) (by decide)]

/-- The part before the point, which has a digit at least, and the part after it. -/
theorem decimalChars_eq (mantissa : Int) (places : Nat) :
    ∃ first whole rest, first :: whole ++ rest = decimalDigits mantissa places ∧ rest.length = places ∧
      decimalChars mantissa places = (if mantissa < 0 then ['-'] else []) ++ first :: whole ++ '.' :: rest := by
  have long : places < (decimalDigits mantissa places).length := by
    simp only [decimalDigits, List.length_append, List.length_replicate]
    omega
  generalize digits : decimalDigits mantissa places = all at long
  have cut := List.take_append_drop (all.length - places) all
  have whole : (all.take (all.length - places)).length = all.length - places :=
    List.length_take_of_le (Nat.sub_le _ _)
  cases taken : all.take (all.length - places) with
  | nil =>
    rw [taken, List.length_nil] at whole
    omega
  | cons first others =>
    refine ⟨first, others, all.drop (all.length - places), taken ▸ cut, ?_, ?_⟩
    · rw [List.length_drop]
      omega
    · have text : decimalChars mantissa places = if mantissa < 0 then
          '-' :: (all.take (all.length - places) ++ '.' :: all.drop (all.take (all.length - places)).length)
          else all.take (all.length - places) ++ '.' :: all.drop (all.take (all.length - places)).length := by
        rw [← digits]
        rfl
      rw [text, whole, taken]
      split <;> rfl

theorem decimalChars_inj {n m : Int} {p q : Nat} (same : decimalChars n p = decimalChars m q) :
    n = m ∧ p = q := by
  obtain ⟨a, whole, rest, digits, rfl, text⟩ := decimalChars_eq n p
  obtain ⟨b, whole', rest', digits', rfl, text'⟩ := decimalChars_eq m q
  have ofDigits : ∀ c ∈ a :: whole, c.isDigit = true := fun c member =>
    isDigit_of_mem_decimalDigits (digits ▸ List.mem_append_left rest member)
  have ofDigits' : ∀ c ∈ b :: whole', c.isDigit = true := fun c member =>
    isDigit_of_mem_decimalDigits (digits' ▸ List.mem_append_left rest' member)
  have parts (unsigned : a :: whole ++ '.' :: rest = b :: whole' ++ '.' :: rest') :
      n.natAbs = m.natAbs ∧ rest = rest' := by
    obtain ⟨wholes, rests⟩ := stretch_cancel ofDigits ofDigits' rfl rfl unsigned
    have rests := (List.cons.inj rests).2
    refine ⟨?_, rests⟩
    rw [← ofDigitChars_decimalDigits n, ← ofDigitChars_decimalDigits m, ← digits, ← digits', wholes, rests]
  have unsigned (c : Char) (digit : c.isDigit = true) : c ≠ '-' := by
    rintro rfl
    exact absurd digit (by decide)
  rw [text, text'] at same
  by_cases negative : n < 0 <;> by_cases negative' : m < 0 <;>
    simp only [negative, negative', if_true, if_false, List.cons_append, List.nil_append] at same
  · obtain ⟨values, rests⟩ := parts (List.cons.inj same).2
    exact ⟨by omega, congrArg _ rests⟩
  · exact absurd (List.cons.inj same).1.symm (unsigned b (ofDigits' b (List.mem_cons_self ..)))
  · exact absurd (List.cons.inj same).1 (unsigned a (ofDigits a (List.mem_cons_self ..)))
  · obtain ⟨values, rests⟩ := parts same
    exact ⟨by omega, congrArg _ rests⟩

theorem isNumeral_of_mem_decimalChars {mantissa : Int} {places : Nat} :
    ∀ c ∈ decimalChars mantissa places, isNumeral c = true := by
  obtain ⟨first, whole, rest, digits, -, text⟩ := decimalChars_eq mantissa places
  intro c member
  have digit (inDigits : c ∈ first :: whole ++ rest) : isNumeral c = true := by
    rw [digits] at inDigits
    simp [isNumeral, isDigit_of_mem_decimalDigits inDigits]
  rw [text] at member
  rcases List.mem_append.1 member with before | after
  · rcases List.mem_append.1 before with sign | inWhole
    · split at sign
      · rw [List.mem_singleton.1 sign]
        decide
      · cases sign
    · exact digit (List.mem_append_left rest inWhole)
  · rcases List.mem_cons.1 after with rfl | inRest
    · decide
    · exact digit (List.mem_append_right _ inRest)

/-- Only a decimal has a point. -/
theorem integerChars_ne_decimalChars (n mantissa : Int) (places : Nat) :
    integerChars n ≠ decimalChars mantissa places := by
  intro same
  obtain ⟨first, whole, rest, -, -, text⟩ := decimalChars_eq mantissa places
  have point : '.' ∈ integerChars n := by
    rw [same, text]
    simp
  cases n with
  | ofNat n => exact absurd (isDigit_of_mem_digits point) (by decide)
  | negSucc n =>
    rcases List.mem_cons.1 point with minus | point
    · exact absurd minus (by decide)
    · exact absurd (isDigit_of_mem_digits point) (by decide)

/-! ### Strings -/

/-- The value of a hexadecimal digit. -/
def nibble (digit : Char) : Nat := if digit.isDigit then digit.toNat - 48 else digit.toNat - 87

/-- The character that a text begins with, escaped or not, and what follows it. -/
def unescape : List Char → Option (Char × List Char)
  | '\\' :: 'n' :: rest => some ('\n', rest)
  | '\\' :: 'r' :: rest => some ('\r', rest)
  | '\\' :: 't' :: rest => some ('\t', rest)
  | '\\' :: 'b' :: rest => some (Char.ofNat 0x08, rest)
  | '\\' :: 'f' :: rest => some (Char.ofNat 0x0C, rest)
  | '\\' :: 'u' :: _ :: _ :: high :: low :: rest => some (Char.ofNat (16 * nibble high + nibble low), rest)
  | '\\' :: c :: rest => some (c, rest)
  | c :: rest => some (c, rest)
  | [] => none

theorem nibble_digitChar : ∀ n < 16, nibble (Nat.digitChar n) = n := by
  decide

theorem unescape_escaped (c : Char) (rest : List Char) : unescape (escaped c ++ rest) = some (c, rest) := by
  unfold escaped
  split
  next quote => rw [quote]; rfl
  split
  next backslash => rw [backslash]; rfl
  split
  next same => rw [same]; rfl
  split
  next same => rw [same]; rfl
  split
  next same => rw [same]; rfl
  split
  next same => rw [← Char.ofNat_toNat c, same]; rfl
  split
  next same => rw [← Char.ofNat_toNat c, same]; rfl
  split
  next control =>
    have high := nibble_digitChar (c.toNat / 16) (by omega)
    have low := nibble_digitChar (c.toNat % 16) (by omega)
    show some (Char.ofNat (16 * nibble _ + nibble _), rest) = _
    rw [high, low, Nat.div_add_mod, Char.ofNat_toNat]
  next plain _ _ _ _ _ _ =>
    show unescape (c :: rest) = _
    unfold unescape
    split <;> simp_all

/-- No character is written with a quote in front. -/
theorem escaped_ne_quote (c : Char) (text rest : List Char) : escaped c ++ text ≠ '"' :: rest := by
  unfold escaped
  split
  · simp
  next plain =>
    repeat' split
    all_goals simp [plain]

theorem escapes_cancel {a b rest rest' : List Char}
    (same : a.flatMap escaped ++ '"' :: rest = b.flatMap escaped ++ '"' :: rest') : a = b ∧ rest = rest' := by
  induction a generalizing b with
  | nil =>
    cases b with
    | nil => exact ⟨rfl, (List.cons.inj same).2⟩
    | cons d others =>
      rw [List.flatMap_cons, List.append_assoc] at same
      exact absurd same.symm (escaped_ne_quote d _ rest)
  | cons c others ih =>
    cases b with
    | nil =>
      rw [List.flatMap_cons, List.append_assoc] at same
      exact absurd same (escaped_ne_quote c _ rest')
    | cons d others' =>
      rw [List.flatMap_cons, List.flatMap_cons, List.append_assoc, List.append_assoc] at same
      have firsts := congrArg unescape same
      rw [unescape_escaped, unescape_escaped, Option.some.injEq, Prod.mk.injEq] at firsts
      obtain ⟨rfl, behind⟩ := firsts
      obtain ⟨rfl, rests⟩ := ih behind
      exact ⟨rfl, rests⟩

theorem stringChars_cancel {s t : String} {rest rest' : List Char}
    (same : stringChars s ++ rest = stringChars t ++ rest') : s = t ∧ rest = rest' := by
  have quoted (s : String) (rest : List Char) :
      stringChars s ++ rest = '"' :: (s.toList.flatMap escaped ++ '"' :: rest) := by
    simp [stringChars]
  rw [quoted, quoted] at same
  obtain ⟨chars, rests⟩ := escapes_cancel (List.cons.inj same).2
  exact ⟨String.toList_inj.1 chars, rests⟩

/-! ### Values -/

/-- The kinds of characters that values begin with. -/
inductive Kind where
  | null
  | yes
  | no
  | number
  | string
  | array
  | object
deriving DecidableEq

def Kind.ofChar (c : Char) : Kind :=
  if isNumeral c then .number
  else if c = '"' then .string
  else if c = '[' then .array
  else if c = '{' then .object
  else if c = 't' then .yes
  else if c = 'f' then .no
  else .null

def kind : Json → Kind
  | .null => .null
  | .bool true => .yes
  | .bool false => .no
  | .integer _ | .decimal _ _ => .number
  | .string _ => .string
  | .array _ => .array
  | .object _ => .object

theorem integerChars_ne_nil (n : Int) : integerChars n ≠ [] := by
  cases n with
  | ofNat n => exact Nat.toDigits_ne_nil
  | negSucc n => exact List.cons_ne_nil _ _

theorem decimalChars_ne_nil (mantissa : Int) (places : Nat) : decimalChars mantissa places ≠ [] := by
  obtain ⟨first, whole, rest, -, -, text⟩ := decimalChars_eq mantissa places
  rw [text]
  simp

theorem kind_of_number {number : List Char} (nonempty : number ≠ [])
    (numerals : ∀ c ∈ number, isNumeral c = true) :
    ∃ c text, number = c :: text ∧ Kind.ofChar c = .number := by
  cases number with
  | nil => exact absurd rfl nonempty
  | cons c text => exact ⟨c, text, rfl, if_pos (numerals c (List.mem_cons_self ..))⟩

/-- The first character of a value tells its kind. -/
theorem kind_of_chars (depth : Nat) (j : Json) :
    ∃ c text, j.chars depth = c :: text ∧ Kind.ofChar c = j.kind := by
  cases j with
  | null => exact ⟨_, _, rfl, rfl⟩
  | bool value => cases value <;> exact ⟨_, _, rfl, rfl⟩
  | integer value =>
    exact kind_of_number (integerChars_ne_nil value) isNumeral_of_mem_integerChars
  | decimal mantissa places =>
    exact kind_of_number (decimalChars_ne_nil mantissa places) isNumeral_of_mem_decimalChars
  | string value => exact ⟨_, _, rfl, rfl⟩
  | array items => cases items <;> exact ⟨_, _, rfl, rfl⟩
  | object fields => rcases fields with _ | ⟨⟨key, value⟩, rest⟩ <;> exact ⟨_, _, rfl, rfl⟩

theorem kind_eq_of_chars {depth : Nat} {a b : Json} {rest rest' : List Char}
    (same : a.chars depth ++ rest = b.chars depth ++ rest') : a.kind = b.kind := by
  obtain ⟨c, text, charsA, kindA⟩ := kind_of_chars depth a
  obtain ⟨d, text', charsB, kindB⟩ := kind_of_chars depth b
  rw [charsA, charsB] at same
  rw [← kindA, ← kindB, (List.cons.inj same).1]

/-- After an item comes a comma or a new line. -/
theorem itemChars_ends (depth : Nat) (items : List Json) (rest : List Char) :
    (itemChars depth items ++ '\n' :: rest).takeWhile isNumeral = [] := by
  cases items <;> rfl

theorem fieldChars_ends (depth : Nat) (fields : List (String × Json)) (rest : List Char) :
    (fieldChars depth fields ++ '\n' :: rest).takeWhile isNumeral = [] := by
  rcases fields with _ | ⟨⟨key, value⟩, others⟩ <;> rfl

mutual

/-- **A value is known from its text**, whatever follows that does not go on with a number. -/
theorem chars_cancel : ∀ (a b : Json) {depth : Nat} {rest rest' : List Char},
    rest.takeWhile isNumeral = [] → rest'.takeWhile isNumeral = [] →
      a.chars depth ++ rest = b.chars depth ++ rest' → a = b ∧ rest = rest'
  | a, b, depth, rest, rest', ends, ends', same =>
    match a, b, kind_eq_of_chars same with
    | .null, .null, _ => ⟨rfl, List.append_cancel_left same⟩
    | .bool true, .bool true, _ => ⟨rfl, List.append_cancel_left same⟩
    | .bool false, .bool false, _ => ⟨rfl, List.append_cancel_left same⟩
    | .integer n, .integer m, _ => by
      obtain ⟨texts, rests⟩ :=
        stretch_cancel isNumeral_of_mem_integerChars isNumeral_of_mem_integerChars ends ends' same
      exact ⟨congrArg _ (integerChars_inj texts), rests⟩
    | .integer n, .decimal m q, _ => by
      obtain ⟨texts, -⟩ :=
        stretch_cancel isNumeral_of_mem_integerChars isNumeral_of_mem_decimalChars ends ends' same
      exact absurd texts (integerChars_ne_decimalChars n m q)
    | .decimal n p, .integer m, _ => by
      obtain ⟨texts, -⟩ :=
        stretch_cancel isNumeral_of_mem_decimalChars isNumeral_of_mem_integerChars ends ends' same
      exact absurd texts.symm (integerChars_ne_decimalChars m n p)
    | .decimal n p, .decimal m q, _ => by
      obtain ⟨texts, rests⟩ :=
        stretch_cancel isNumeral_of_mem_decimalChars isNumeral_of_mem_decimalChars ends ends' same
      obtain ⟨rfl, rfl⟩ := decimalChars_inj texts
      exact ⟨rfl, rests⟩
    | .string s, .string t, _ => by
      obtain ⟨rfl, rests⟩ := stringChars_cancel same
      exact ⟨rfl, rests⟩
    | .array [], .array [], _ => ⟨rfl, List.append_cancel_left same⟩
    | .array [], .array (_ :: _), _ => absurd (List.cons.inj (List.cons.inj same).2).1 (by decide)
    | .array (_ :: _), .array [], _ => absurd (List.cons.inj (List.cons.inj same).2).1 (by decide)
    | .array (item :: items), .array (other :: others), _ => by
      have behind : itemChars (depth + 1) (item :: items) ++ (newLine depth ++ ']' :: rest) =
          itemChars (depth + 1) (other :: others) ++ (newLine depth ++ ']' :: rest') := by
        simpa [chars, itemChars, newLine] using same
      obtain ⟨items, closed⟩ := itemChars_cancel (item :: items) (other :: others) behind
      exact ⟨congrArg _ items, (List.cons.inj (List.append_cancel_left closed)).2⟩
    | .object [], .object [], _ => ⟨rfl, List.append_cancel_left same⟩
    | .object [], .object (_ :: _), _ => absurd (List.cons.inj (List.cons.inj same).2).1 (by decide)
    | .object (_ :: _), .object [], _ => absurd (List.cons.inj (List.cons.inj same).2).1 (by decide)
    | .object (field :: fields), .object (other :: others), _ => by
      have behind : fieldChars (depth + 1) (field :: fields) ++ (newLine depth ++ '}' :: rest) =
          fieldChars (depth + 1) (other :: others) ++ (newLine depth ++ '}' :: rest') := by
        simpa [chars, fieldChars, newLine] using same
      obtain ⟨fields, closed⟩ := fieldChars_cancel (field :: fields) (other :: others) behind
      exact ⟨congrArg _ fields, (List.cons.inj (List.append_cancel_left closed)).2⟩

theorem itemChars_cancel : ∀ (items others : List Json) {depth : Nat} {rest rest' : List Char},
    itemChars depth items ++ '\n' :: rest = itemChars depth others ++ '\n' :: rest' →
      items = others ∧ rest = rest'
  | [], [], _, _, _, same => ⟨rfl, (List.cons.inj same).2⟩
  | [], _ :: _, _, _, _, same => absurd (List.cons.inj same).1 (by decide)
  | _ :: _, [], _, _, _, same => absurd (List.cons.inj same).1 (by decide)
  | item :: items, other :: others, depth, rest, rest', same => by
    have first : item.chars depth ++ (itemChars depth items ++ '\n' :: rest) =
        other.chars depth ++ (itemChars depth others ++ '\n' :: rest') := by
      simpa [itemChars, newLine] using same
    obtain ⟨rfl, behind⟩ :=
      chars_cancel item other (itemChars_ends _ items _) (itemChars_ends _ others _) first
    obtain ⟨rfl, rests⟩ := itemChars_cancel items others behind
    exact ⟨rfl, rests⟩

theorem fieldChars_cancel : ∀ (fields others : List (String × Json)) {depth : Nat} {rest rest' : List Char},
    fieldChars depth fields ++ '\n' :: rest = fieldChars depth others ++ '\n' :: rest' →
      fields = others ∧ rest = rest'
  | [], [], _, _, _, same => ⟨rfl, (List.cons.inj same).2⟩
  | [], _ :: _, _, _, _, same => absurd (List.cons.inj same).1 (by decide)
  | _ :: _, [], _, _, _, same => absurd (List.cons.inj same).1 (by decide)
  | (key, value) :: fields, (key', other) :: others, depth, rest, rest', same => by
    have named :
        stringChars key ++ ':' :: ' ' :: (value.chars depth ++ (fieldChars depth fields ++ '\n' :: rest)) =
          stringChars key' ++ ':' :: ' ' :: (other.chars depth ++ (fieldChars depth others ++ '\n' :: rest')) := by
      simpa [fieldChars, newLine] using same
    obtain ⟨rfl, valued⟩ := stringChars_cancel named
    have first := (List.cons.inj (List.cons.inj valued).2).2
    obtain ⟨rfl, behind⟩ :=
      chars_cancel value other (fieldChars_ends _ fields _) (fieldChars_ends _ others _) first
    obtain ⟨rfl, rests⟩ := fieldChars_cancel fields others behind
    exact ⟨rfl, rests⟩

end

theorem pretty_injective : Function.Injective pretty := by
  intro a b same
  have texts : a.chars 0 ++ [] = b.chars 0 ++ [] := congrArg (· ++ []) (String.ofList_injective same)
  exact (chars_cancel a b rfl rfl texts).1

end Transparency.Json
