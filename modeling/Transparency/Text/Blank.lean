import Transparency.Text.Ranges

/-! White space: the Unicode property, and text without it at either end. -/
namespace Transparency.Text.Blank

/-- The characters with the property White_Space. -/
def ranges : Ranges :=
  [(0x09, 0x0D), (0x20, 0x20), (0x85, 0x85), (0xA0, 0xA0), (0x1680, 0x1680), (0x2000, 0x200A),
    (0x2028, 0x2029), (0x202F, 0x202F), (0x205F, 0x205F), (0x3000, 0x3000)]

def isBlank (c : Char) : Bool := ranges.contains c

/-- The text from its first to its last character that is not blank. -/
def trim (text : List Char) : List Char :=
  ((text.dropWhile isBlank).reverse.dropWhile isBlank).reverse

end Transparency.Text.Blank
