/-!
Classes of characters that are given as ranges of code points.
-/

set_option autoImplicit false
set_option relaxedAutoImplicit false

namespace Formula.Text

/-- Whether one of some ranges, both ends included and in increasing order, holds a character. The
first range that does not end before the character is the only one that can hold it. -/
def inRanges (ranges : List (Nat × Nat)) (character : Char) : Bool :=
  match ranges.find? fun range ↦ character.toNat ≤ range.2 with
  | some range => range.1 ≤ character.toNat
  | none => false

end Formula.Text
