/-! Sets of characters, as ranges of their code points. -/
namespace Transparency.Text

/-- The first and the last code point of each run, ascending and apart. -/
abbrev Ranges := List (Nat × Nat)

def Ranges.contains (ranges : Ranges) (c : Char) : Bool :=
  ranges.any fun (first, last) => first ≤ c.toNat && c.toNat ≤ last

end Transparency.Text
