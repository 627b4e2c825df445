/-! Decimal numbers: a sign, digits with a point before, in or behind them, and an exponent. Infinity and
what is not a number count as well, in any case. -/
namespace Transparency.Text.Decimal

def unsigned : List Char → List Char
  | '+' :: rest | '-' :: rest => rest
  | text => text

def isExponent : List Char → Bool
  | [] => true
  | c :: rest => (c = 'e' || c = 'E') && !(unsigned rest).isEmpty && (unsigned rest).all Char.isDigit

def isDecimal (text : List Char) : Bool :=
  let text := unsigned text
  if ["inf", "infinity", "nan"].contains (String.ofList (text.map Char.toLower)) then true
  else
    let whole := text.takeWhile Char.isDigit
    match text.drop whole.length with
    | '.' :: rest =>
      let fraction := rest.takeWhile Char.isDigit
      !(whole.isEmpty && fraction.isEmpty) && isExponent (rest.drop fraction.length)
    | rest => !whole.isEmpty && isExponent rest

end Transparency.Text.Decimal
