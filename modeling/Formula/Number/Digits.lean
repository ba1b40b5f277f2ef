/-!
Decimal digits and the numbers they denote.
-/

set_option autoImplicit false
set_option relaxedAutoImplicit false

namespace Formula.Number

/-- The value of a digit in any base up to sixteen. -/
def digitValue (digit : Char) : Nat :=
  if digit.isDigit then digit.toNat - '0'.toNat
  else if digit.isLower then digit.toNat - 'a'.toNat + 10
  else digit.toNat - 'A'.toNat + 10

/-- The number that a list of digits denotes in a base, the first digit counting most. -/
def ofDigits (base : Nat) (digits : List Char) : Nat :=
  digits.foldl (fun value digit ↦ base * value + digitValue digit) 0

example : ofDigits 10 ['2', '5', '6'] = 256 := by decide
example : ofDigits 16 ['f', 'F'] = 255 := by decide

end Formula.Number
