/-! The Gregorian calendar, extended to all years from 1 on.

Days are numbered from the first of January of the year 1. `Date.ofDay` divides by the lengths of four
centuries, a century, four years and a year in turn: the last century of four and the last year of four
may be a day longer than the others, so a quotient of four there belongs to the last one. -/
namespace Transparency.Time

structure Date where
  year : Nat
  month : Nat
  day : Nat
deriving DecidableEq, Repr

def isLeap (year : Nat) : Bool := year % 4 = 0 && (year % 100 ≠ 0 || year % 400 = 0)

/-- The lengths of the months from January on. -/
def monthLengths (year : Nat) : List Nat :=
  [31, if isLeap year then 29 else 28, 31, 30, 31, 30, 31, 31, 30, 31, 30, 31]

/-- The month and the day in it, `day` days after the start of `month`, given the lengths of the months
from there on. -/
def monthAndDay (month day : Nat) : List Nat → Nat × Nat
  | [] => (month, day + 1)
  | length :: rest =>
    if day < length then (month, day + 1) else monthAndDay (month + 1) (day - length) rest

def Date.ofDay (day : Nat) : Date :=
  let quarter := day / 146097
  let day := day % 146097
  let century := min 3 (day / 36524)
  let day := day - century * 36524
  let olympiad := day / 1461
  let day := day % 1461
  let last := min 3 (day / 365)
  let day := day - last * 365
  let year := 400 * quarter + 100 * century + 4 * olympiad + last + 1
  let (month, day) := monthAndDay 1 day (monthLengths year)
  ⟨year, month, day⟩

/-- The number of the first of January 1970. -/
def epoch : Nat := 719162

end Transparency.Time
