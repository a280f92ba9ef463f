/-!
Sets of characters given by ascending ranges of code points, both ends included.
-/

namespace SageNotation.Text

def inRanges (ranges : List (Nat × Nat)) (character : Char) : Bool :=
  ranges.any fun range => range.1 ≤ character.toNat && character.toNat ≤ range.2

end SageNotation.Text
