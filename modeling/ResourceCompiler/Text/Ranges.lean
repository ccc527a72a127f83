/-!
# Classes of characters as ranges
-/

namespace ResourceCompiler.Text

/-- Whether a character lies in one of the ranges; both ends belong to a range. -/
def inRanges (ranges : List (Nat × Nat)) (c : Char) : Bool :=
  ranges.any fun (first, last) => first ≤ c.toNat && c.toNat ≤ last

end ResourceCompiler.Text
