/-! Natural numbers below 2⁶⁴ as decimal text: an optional plus sign, then digits. -/
namespace Transparency.Text.Natural

inductive Error where
  | empty
  | invalidDigit
  | tooLarge
deriving DecidableEq, Repr

def Error.message : Error → String
  | .empty => "cannot parse integer from empty string"
  | .invalidDigit => "invalid digit found in string"
  | .tooLarge => "number too large to fit in target type"

/-- Reads on from left to right with the value so far. Of a character that is no digit and a value that
grows too large, the one that comes first is reported, and at one place the character. -/
def scan (value : Nat) : List Char → Except Error UInt64
  | [] => .ok (UInt64.ofNat value)
  | c :: rest =>
    if c.isDigit then
      let next := value * 10 + (c.toNat - 48)
      if next < 2 ^ 64 then scan next rest else .error .tooLarge
    else .error .invalidDigit

def parse (text : List Char) : Except Error UInt64 :=
  match text with
  | [] => .error .empty
  | ['+'] => .error .invalidDigit
  | '+' :: digits => scan 0 digits
  | digits => scan 0 digits

end Transparency.Text.Natural
