import Transparency.Json.Value

/-! JSON text with one item or field to the line, indented by two spaces a level. -/
namespace Transparency.Json

/-! ### Numbers and strings -/

def integerChars : Int → List Char
  | .ofNat n => Nat.toDigits 10 n
  | .negSucc n => '-' :: Nat.toDigits 10 (n + 1)

def decimalChars (mantissa : Int) (places : Nat) : List Char :=
  let digits := Nat.toDigits 10 mantissa.natAbs
  let digits := List.replicate (places + 1 - digits.length) '0' ++ digits
  let whole := digits.take (digits.length - places)
  let text := whole ++ '.' :: digits.drop whole.length
  if mantissa < 0 then '-' :: text else text

/-- A character of a string. Quotes, backslashes and control characters are escaped. -/
def escaped (c : Char) : List Char :=
  if c = '"' then ['\\', '"']
  else if c = '\\' then ['\\', '\\']
  else if c = '\n' then ['\\', 'n']
  else if c = '\r' then ['\\', 'r']
  else if c = '\t' then ['\\', 't']
  else if c.toNat = 0x08 then ['\\', 'b']
  else if c.toNat = 0x0C then ['\\', 'f']
  else if c.toNat < 0x20 then
    ['\\', 'u', '0', '0', Nat.digitChar (c.toNat / 16), Nat.digitChar (c.toNat % 16)]
  else [c]

def stringChars (s : String) : List Char := '"' :: s.toList.flatMap escaped ++ ['"']

/-! ### Values -/

/-- A new line at `depth` levels. -/
def newLine (depth : Nat) : List Char := '\n' :: List.replicate (2 * depth) ' '

mutual

/-- The text of a value that stands at `depth` levels. -/
def chars (depth : Nat) : Json → List Char
  | .null => ['n', 'u', 'l', 'l']
  | .bool true => ['t', 'r', 'u', 'e']
  | .bool false => ['f', 'a', 'l', 's', 'e']
  | .integer value => integerChars value
  | .decimal mantissa places => decimalChars mantissa places
  | .string value => stringChars value
  | .array [] => ['[', ']']
  | .array (item :: rest) =>
    '[' :: newLine (depth + 1) ++ item.chars (depth + 1) ++ itemChars (depth + 1) rest ++
      newLine depth ++ [']']
  | .object [] => ['{', '}']
  | .object ((key, value) :: rest) =>
    '{' :: newLine (depth + 1) ++ stringChars key ++ ':' :: ' ' :: value.chars (depth + 1) ++
      fieldChars (depth + 1) rest ++ newLine depth ++ ['}']

/-- The items after the first. -/
def itemChars (depth : Nat) : List Json → List Char
  | [] => []
  | item :: rest => ',' :: newLine depth ++ item.chars depth ++ itemChars depth rest

/-- The fields after the first. -/
def fieldChars (depth : Nat) : List (String × Json) → List Char
  | [] => []
  | (key, value) :: rest =>
    ',' :: newLine depth ++ stringChars key ++ ':' :: ' ' :: value.chars depth ++
      fieldChars depth rest

end

def pretty (value : Json) : String := String.ofList (value.chars 0)

end Transparency.Json
