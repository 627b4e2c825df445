import Transparency.Time.Calendar

/-! Instants in milliseconds since 1970, without leap seconds, and their text.

The text has the form `YYYY-MM-DDTHH:MM:SS.mmmZ`. A year above 9999 has all its digits and a plus
sign. There are texts as far as the dates go, up to the end of the year 262142. -/
namespace Transparency.Time

structure Instant where
  date : Date
  hour : Nat
  minute : Nat
  second : Nat
  milli : Nat
deriving DecidableEq, Repr

def Instant.ofMillis (millis : Nat) : Instant where
  date := .ofDay (epoch + millis / 86400000)
  hour := millis / 3600000 % 24
  minute := millis / 60000 % 60
  second := millis / 1000 % 60
  milli := millis % 1000

/-- Decimal digits, with zeros in front up to `width`. -/
def padded (width n : Nat) : List Char :=
  let digits := Nat.toDigits 10 n
  List.replicate (width - digits.length) '0' ++ digits

def yearText (year : Nat) : List Char :=
  if year ≤ 9999 then padded 4 year else '+' :: Nat.toDigits 10 year

def Instant.text (i : Instant) : List Char :=
  yearText i.date.year ++ '-' :: padded 2 i.date.month ++ '-' :: padded 2 i.date.day ++
    'T' :: padded 2 i.hour ++ ':' :: padded 2 i.minute ++ ':' :: padded 2 i.second ++
    '.' :: padded 3 i.milli ++ ['Z']

/-- The last year with dates. -/
def lastYear : Nat := 262142

/-- The instant so many milliseconds after 1970, if it has a date. -/
def Instant.ofMillis? (millis : Nat) : Option Instant :=
  let instant := ofMillis millis
  if instant.date.year ≤ lastYear then some instant else none

/-- A number that fits in 64 bits with a sign. -/
def signed? (n : UInt64) : Option Nat := if n.toNat < UInt64.size / 2 then some n.toNat else none

def format? (millis : UInt64) : Option String := do
  let instant ← Instant.ofMillis? (← signed? millis)
  return String.ofList instant.text

end Transparency.Time
