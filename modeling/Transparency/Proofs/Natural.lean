import Transparency.Text.Natural

/-! Decimal texts and the numbers that they are of.

`parse` accepts the digits of every number below 2⁶⁴, with zeros in front and a plus sign or without, and gives that
number (`parse_ok_iff`). -/
namespace Transparency.Text.Natural

/-- `text` is `n` in decimal digits, one at least, perhaps with a plus sign in front. -/
def Numeral (text : List Char) (n : UInt64) : Prop :=
  ∃ digits, (text = digits ∨ text = '+' :: digits) ∧ digits ≠ [] ∧ (∀ c ∈ digits, c.isDigit = true) ∧
    Nat.ofDigitChars 10 digits 0 = n.toNat

theorem le_ofDigitChars (digits : List Char) (value : Nat) : value ≤ Nat.ofDigitChars 10 digits value := by
  induction digits generalizing value with
  | nil => exact Nat.le_refl _
  | cons c rest ih =>
    rw [Nat.ofDigitChars_cons]
    exact Nat.le_trans (by omega) (ih _)

theorem scan_digit {c : Char} (digit : c.isDigit = true) (value : Nat) (rest : List Char) :
    scan value (c :: rest) =
      if value * 10 + (c.toNat - 48) < UInt64.size then scan (value * 10 + (c.toNat - 48)) rest
      else .error .tooLarge :=
  if_pos digit

theorem scan_stray {c : Char} (stray : ¬ c.isDigit = true) (value : Nat) (rest : List Char) :
    scan value (c :: rest) = .error .invalidDigit :=
  if_neg stray

theorem scan_ok_iff {value : Nat} {text : List Char} {n : UInt64} (small : value < UInt64.size) :
    scan value text = .ok n ↔ (∀ c ∈ text, c.isDigit = true) ∧ Nat.ofDigitChars 10 text value = n.toNat := by
  induction text generalizing value with
  | nil =>
    have word : UInt64.ofNat value = n ↔ value = n.toNat := by
      rw [← UInt64.toNat_inj, UInt64.toNat_ofNat_of_lt' small]
    show Except.ok (UInt64.ofNat value) = .ok n ↔ _
    simp [word]
  | cons c rest ih =>
    have step : Nat.ofDigitChars 10 (c :: rest) value =
        Nat.ofDigitChars 10 rest (value * 10 + (c.toNat - 48)) := by
      rw [Nat.ofDigitChars_cons, Nat.mul_comm]
      rfl
    rw [List.forall_mem_cons, step]
    by_cases digit : c.isDigit = true
    · rw [scan_digit digit]
      by_cases fits : value * 10 + (c.toNat - 48) < UInt64.size
      · rw [if_pos fits, ih fits]
        simp only [digit, true_and]
      · -- What is too large already stays so, whatever digits follow.
        rw [if_neg fits]
        have large := le_ofDigitChars rest (value * 10 + (c.toNat - 48))
        have bound := n.toNat_lt_size
        exact iff_of_false nofun fun parts => by omega
    · rw [scan_stray digit]
      exact iff_of_false nofun fun parts => digit parts.1.1

theorem parse_ok_iff {text : List Char} {n : UInt64} : parse text = .ok n ↔ Numeral text n := by
  have scanned (digits : List Char) : scan 0 digits = .ok n ↔ (∀ c ∈ digits, c.isDigit = true) ∧
      Nat.ofDigitChars 10 digits 0 = n.toNat := scan_ok_iff (by decide)
  constructor
  · intro h
    unfold parse at h
    split at h
    next => cases h
    next => cases h
    next digits more =>
      obtain ⟨all, value⟩ := (scanned _).1 h
      exact ⟨digits, .inr rfl, more, all, value⟩
    next some _ _ =>
      obtain ⟨all, value⟩ := (scanned _).1 h
      exact ⟨text, .inl rfl, some, all, value⟩
  · rintro ⟨digits, rfl | rfl, some, all, value⟩
    · unfold parse
      split
      next => exact absurd rfl some
      next => exact absurd (all _ (List.mem_cons_self ..)) (by decide)
      next => exact absurd (all _ (List.mem_cons_self ..)) (by decide)
      next => exact (scanned _).2 ⟨all, value⟩
    · unfold parse
      split
      next none => cases none
      next none => exact absurd (List.cons.inj none).2 some
      next same =>
        cases same
        exact (scanned _).2 ⟨all, value⟩
      next _ _ plus => exact absurd rfl (plus digits)

end Transparency.Text.Natural
