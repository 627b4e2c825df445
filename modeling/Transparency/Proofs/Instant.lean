import Transparency.Proofs.Calendar
import Transparency.Time.Instant

/-! The text of an instant, against the calendar.

What a text shows is read off its digits (`Instant.Shown`), and how many milliseconds after the first of January 1970
that is, is counted from the lengths of years and months (`Instant.millis`). The text of a number of
milliseconds shows the instant that is so many after 1970, so no two numbers have one text (`format_exact`). -/
namespace Transparency.Time

/-! ### Numbers -/

/-- `text` is `n` in `width` decimal digits. -/
structure Decimal (width : Nat) (text : List Char) (n : Nat) : Prop where
  length : text.length = width
  digit : ∀ c ∈ text, c.isDigit = true
  value : Nat.ofDigitChars 10 text 0 = n

theorem decimal_toDigits (n : Nat) : Decimal (Nat.toDigits 10 n).length (Nat.toDigits 10 n) n where
  length := rfl
  digit _ member := Nat.isDigit_of_mem_toDigits (by decide) (by decide) member
  value := Nat.ofDigitChars_toDigits (by decide) (by decide)

theorem decimal_padded {width n : Nat} (positive : 0 < width) (small : n < 10 ^ width) :
    Decimal width (padded width n) n := by
  have short := (Nat.length_toDigits_le_iff (by decide) positive).2 small
  obtain ⟨-, digit, value⟩ := decimal_toDigits n
  refine ⟨?_, ?_, ?_⟩
  · rw [padded, List.length_append, List.length_replicate, Nat.sub_add_cancel short]
  · intro c member
    rcases List.mem_append.1 member with zero | member
    · rw [List.eq_of_mem_replicate zero]
      decide
    · exact digit c member
  · rw [padded, Nat.ofDigitChars_append, Nat.ofDigitChars_replicate_zero, Nat.mul_zero, value]

theorem Decimal.unique {width width' n m : Nat} {text : List Char} (h : Decimal width text n)
    (h' : Decimal width' text m) : n = m :=
  h.value.symm.trans h'.value

/-- A number of known width behind a mark is known from the end of a text. -/
theorem Decimal.cancel {width n m : Nat} {text text' before before' : List Char} {mark : Char}
    (h : Decimal width text n) (h' : Decimal width text' m)
    (same : before ++ mark :: text = before' ++ mark :: text') : before = before' ∧ n = m := by
  have length : (mark :: text).length = (mark :: text').length := by
    rw [List.length_cons, List.length_cons, h.length, h'.length]
  obtain ⟨left, right⟩ := List.append_inj' same length
  cases right
  exact ⟨left, h.unique h'⟩

/-! ### Years -/

/-- Four digits up to the year 9999, and afterwards a plus sign and no more digits than the year needs. -/
def YearShown (text : List Char) (year : Nat) : Prop :=
  year ≤ 9999 ∧ Decimal 4 text year ∨
    9999 < year ∧ ∃ width digits, text = '+' :: digits ∧ Decimal width digits year ∧ 10 ^ (width - 1) ≤ year

theorem yearShown_yearText (year : Nat) : YearShown (yearText year) year := by
  unfold yearText
  by_cases four : year ≤ 9999
  · rw [if_pos four]
    exact .inl ⟨four, decimal_padded (by decide) (by omega)⟩
  · rw [if_neg four]
    have long : ¬ (Nat.toDigits 10 year).length ≤ 1 := by
      rw [Nat.length_toDigits_le_iff (by decide) (by decide)]
      omega
    have needed : ¬ year < 10 ^ ((Nat.toDigits 10 year).length - 1) := by
      rw [← Nat.length_toDigits_le_iff (by decide) (by omega)]
      omega
    exact .inr ⟨by omega, _, _, rfl, decimal_toDigits year, Nat.le_of_not_lt needed⟩

theorem YearShown.unique {text : List Char} {year other : Nat} (h : YearShown text year)
    (h' : YearShown text other) : year = other := by
  -- A plus sign is no digit.
  have signed {width : Nat} {digits : List Char} {n : Nat} (h : Decimal width ('+' :: digits) n) : False :=
    absurd (h.digit _ List.mem_cons_self) (by decide)
  rcases h with ⟨-, h⟩ | ⟨-, width, digits, rfl, h, -⟩
  · rcases h' with ⟨-, h'⟩ | ⟨-, width, digits, rfl, -⟩
    · exact h.unique h'
    · exact (signed h).elim
  · rcases h' with ⟨-, h'⟩ | ⟨-, width, digits', same, h', -⟩
    · exact (signed h').elim
    · cases same
      exact h.unique h'

/-! ### Instants -/

namespace Instant

/-- An instant that the calendar and the clock have. -/
structure Valid (i : Instant) : Prop where
  date : i.date.Valid
  hour : i.hour < 24
  minute : i.minute < 60
  second : i.second < 60
  milli : i.milli < 1000

/-- The milliseconds since the first of January 1970, of days of equal length. -/
def millis (i : Instant) : Nat :=
  (((i.date.sinceEpoch * 24 + i.hour) * 60 + i.minute) * 60 + i.second) * 1000 + i.milli

/-- `text` has the form `YYYY-MM-DDTHH:MM:SS.mmmZ` with the numbers of `i`. -/
def Shown (text : List Char) (i : Instant) : Prop :=
  ∃ year month day hour minute second milli,
    text = year ++ '-' :: month ++ '-' :: day ++ 'T' :: hour ++ ':' :: minute ++ ':' :: second ++
      '.' :: milli ++ ['Z'] ∧
    YearShown year i.date.year ∧ Decimal 2 month i.date.month ∧ Decimal 2 day i.date.day ∧
      Decimal 2 hour i.hour ∧ Decimal 2 minute i.minute ∧ Decimal 2 second i.second ∧ Decimal 3 milli i.milli

theorem shown_text {i : Instant} (h : i.Valid) : Shown i.text i := by
  have two {n : Nat} (small : n < 100) : Decimal 2 (padded 2 n) n := decimal_padded (by decide) small
  have month : i.date.month < 100 := by have := h.date.month; omega
  have day : i.date.day < 100 := by
    have := h.date.day
    have := monthLength_le i.date.year i.date.month
    omega
  exact ⟨_, _, _, _, _, _, _, rfl, yearShown_yearText _, two month, two day, two (by have := h.hour; omega),
    two (by have := h.minute; omega), two (by have := h.second; omega), decimal_padded (by decide) h.milli⟩

/-- A text shows one instant at most. -/
theorem Shown.unique {text : List Char} {i j : Instant} (h : Shown text i) (h' : Shown text j) : i = j := by
  obtain ⟨_, _, _, _, _, _, _, rfl, year, month, day, hour, minute, second, milli⟩ := h
  obtain ⟨_, _, _, _, _, _, _, same, year', month', day', hour', minute', second', milli'⟩ := h'
  obtain ⟨same, millis⟩ := milli.cancel milli' (List.append_cancel_right same)
  obtain ⟨same, seconds⟩ := second.cancel second' same
  obtain ⟨same, minutes⟩ := minute.cancel minute' same
  obtain ⟨same, hours⟩ := hour.cancel hour' same
  obtain ⟨same, days⟩ := day.cancel day' same
  obtain ⟨rfl, months⟩ := month.cancel month' same
  have years := year.unique year'
  obtain ⟨⟨_, _, _⟩, _, _, _, _⟩ := i
  obtain ⟨⟨_, _, _⟩, _, _, _, _⟩ := j
  simp_all

theorem ofMillis_valid (n : Nat) : (ofMillis n).Valid where
  date := (Date.ofDay_epoch _).1
  hour := Nat.mod_lt _ (by decide)
  minute := Nat.mod_lt _ (by decide)
  second := Nat.mod_lt _ (by decide)
  milli := Nat.mod_lt _ (by decide)

theorem millis_ofMillis (n : Nat) : (ofMillis n).millis = n := by
  have days : (ofMillis n).date.sinceEpoch = n / 86400000 := (Date.ofDay_epoch _).2.2
  rw [millis, days]
  show (((n / 86400000 * 24 + n / 3600000 % 24) * 60 + n / 60000 % 60) * 60 + n / 1000 % 60) * 1000 + n % 1000 = n
  omega

end Instant

/-- The years that have dates end with the day 95026236 after the first of January 1970. -/
theorem year_le_lastYear_iff (n : Nat) : (Instant.ofMillis n).date.year ≤ lastYear ↔ n ≤ 8210266876799999 := by
  refine Date.ofDay_year_le_iff.trans ?_
  unfold lastYear epoch
  omega

/-- What has a date fits in 64 bits with a sign. -/
theorem format?_eq_some_iff {millis : UInt64} {text : String} :
    format? millis = some text ↔
      millis.toNat ≤ 8210266876799999 ∧ String.ofList (Instant.ofMillis millis.toNat).text = text := by
  have fits (dated : millis.toNat ≤ 8210266876799999) : millis.toNat < UInt64.size / 2 :=
    Nat.lt_of_le_of_lt dated (by decide)
  simp only [format?, signed?, Instant.ofMillis?, Option.bind_eq_bind, Option.bind_eq_some_iff, Option.pure_def,
    Option.ite_none_right_eq_some, Option.some.injEq, year_le_lastYear_iff]
  constructor
  · rintro ⟨_, ⟨-, rfl⟩, _, ⟨dated, rfl⟩, rfl⟩
    exact ⟨dated, rfl⟩
  · rintro ⟨dated, rfl⟩
    exact ⟨_, ⟨fits dated, rfl⟩, _, ⟨dated, rfl⟩, rfl⟩

/-- The text of a timestamp shows its instant. -/
theorem shown_of_format? {millis : UInt64} {text : String} (h : format? millis = some text) :
    (Instant.ofMillis millis.toNat).Shown text.toList := by
  obtain ⟨-, rfl⟩ := format?_eq_some_iff.1 h
  rw [String.toList_ofList]
  exact Instant.shown_text (Instant.ofMillis_valid _)

/-- **The text of a timestamp shows the instant that is so many milliseconds after 1970** in the calendar that is
only added up. A timestamp has a text up to the end of the year 262142. -/
theorem format_exact :
    (∀ millis : UInt64, (∃ text, format? millis = some text) ↔ millis.toNat ≤ 8210266876799999) ∧
    (∀ (millis : UInt64) text, format? millis = some text → ∃ i : Instant, i.Shown text.toList ∧
      (∀ j : Instant, j.Shown text.toList → j = i) ∧ i.Valid ∧ 1970 ≤ i.date.year ∧ i.millis = millis.toNat) ∧
    ∀ (millis other : UInt64) text, format? millis = some text → format? other = some text → millis = other := by
  refine ⟨fun millis => ?_, fun millis text formatted => ?_, fun millis other text formatted formatted' => ?_⟩
  · simp only [format?_eq_some_iff, exists_and_left, exists_eq', and_true]
  · have shown := shown_of_format? formatted
    exact ⟨_, shown, fun j other => other.unique shown, Instant.ofMillis_valid _, (Date.ofDay_epoch _).2.1,
      Instant.millis_ofMillis _⟩
  · have same := (shown_of_format? formatted).unique (shown_of_format? formatted')
    apply UInt64.toNat_inj.1
    rw [← Instant.millis_ofMillis millis.toNat, same, Instant.millis_ofMillis]

/-- The last millisecond of a leap day that a century ends with, and the first year with a sign. -/
theorem format_exact_leap_day : format? 951868799999 = some "2000-02-29T23:59:59.999Z" ∧
    (∃ i : Instant, i.Shown "2000-02-29T23:59:59.999Z".toList ∧ i.Valid ∧ i.millis = 951868799999) ∧
      format? 253402300800000 = some "+10000-01-01T00:00:00.000Z" := by
  have leapDay : format? 951868799999 = some "2000-02-29T23:59:59.999Z" := by decide +kernel
  obtain ⟨i, shown, -, valid, -, millis⟩ := format_exact.2.1 _ _ leapDay
  exact ⟨leapDay, ⟨i, shown, valid, millis⟩, by decide +kernel⟩

end Transparency.Time
