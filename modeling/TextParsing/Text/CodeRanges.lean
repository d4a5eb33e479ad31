/-!
Classes of characters given as ascending ranges of character codes, both ends included.
-/

namespace TextParsing.Text

def inRanges (ranges : List (Nat × Nat)) (c : Char) : Bool :=
  ranges.any fun (first, last) => first ≤ c.toNat && c.toNat ≤ last

theorem inRanges_append (rs ss : List (Nat × Nat)) (c : Char) :
    inRanges (rs ++ ss) c = (inRanges rs c || inRanges ss c) := List.any_append

end TextParsing.Text
