/-!
Binary floating-point numbers of 64 bits, as exact integers: a finite number is a significand below
two to the 53rd times a power of two. Reading a decimal rounds to the nearest number and takes the
even significand of two that are equally near.
-/

set_option autoImplicit false
set_option relaxedAutoImplicit false

namespace Formula.Number

/-- A binary floating-point number. Zero has a sign like every other finite number. -/
inductive Binary64 where
  | notANumber
  | infinity (negative : Bool)
  | finite (negative : Bool) (significand : Nat) (exponent : Int)
  deriving DecidableEq, Repr, Inhabited

namespace Binary64

/-- The number of bits of a significand. -/
def precision : Nat := 53

/-- The least exponent of a finite number. -/
def minExponent : Int := -1074

/-- The greatest exponent of a finite number. -/
def maxExponent : Int := 971

/-- A ratio rounded to the nearest natural number; a tie goes to the even one. -/
def roundRatio (numerator denominator : Nat) : Nat :=
  let floor := numerator / denominator
  let twiceRest := 2 * (numerator % denominator)
  if twiceRest < denominator then floor
  else if denominator < twiceRest then floor + 1
  else floor + floor % 2

/-- A ratio over a power of two, as a ratio of natural numbers. -/
def scaleDown (numerator denominator : Nat) (exponent : Int) : Nat × Nat :=
  if exponent < 0 then (numerator * Nat.pow 2 exponent.natAbs, denominator)
  else (numerator, denominator * Nat.pow 2 exponent.natAbs)

/-- The exponent with which the significand of a ratio has full precision, but not less than the
least exponent. -/
def exponentOf (numerator denominator : Nat) : Int :=
  let guess : Int := (Nat.log2 numerator : Int) - Nat.log2 denominator - (precision - 1)
  let (scaled, unit) := scaleDown numerator denominator guess
  let exponent := if scaled < unit * Nat.pow 2 (precision - 1) then guess - 1 else guess
  max exponent minExponent

/-- The number nearest to a ratio of positive natural numbers. -/
def ofRatio (negative : Bool) (numerator denominator : Nat) : Binary64 :=
  let exponent := exponentOf numerator denominator
  let (scaled, unit) := scaleDown numerator denominator exponent
  let significand := roundRatio scaled unit
  let carried := significand == Nat.pow 2 precision
  let significand := if carried then Nat.pow 2 (precision - 1) else significand
  let exponent := if carried then exponent + 1 else exponent
  if maxExponent < exponent then .infinity negative else .finite negative significand exponent

/-- The number nearest to a natural number times a power of ten. Powers that are certainly too
great or too small are decided by the number of digits alone. -/
def ofDecimal (negative : Bool) (number : Nat) (power : Int) : Binary64 :=
  if number = 0 then .finite negative 0 minExponent
  else
    let digits : Int := (Nat.toDigits 10 number).length
    if 400 < digits + power then .infinity negative
    else if digits + power < -400 then .finite negative 0 minExponent
    else if power < 0 then ofRatio negative number (Nat.pow 10 power.natAbs)
    else ofRatio negative (number * Nat.pow 10 power.natAbs) 1

/-! ### Whole numbers -/

/-- The greatest natural number of 64 bits. -/
def maxWord : Nat := Nat.pow 2 64 - 1

/-- The nearest natural number of 64 bits. A half goes up, and numbers out of reach go to the
nearer end; what is not a number goes to zero. -/
def toWord : Binary64 → Nat
  | notANumber => 0
  | infinity true => 0
  | infinity false => maxWord
  | finite true _ _ => 0
  | finite false significand exponent =>
    if exponent < 0 then
      let unit := Nat.pow 2 exponent.natAbs
      min maxWord ((2 * significand + unit) / (2 * unit))
    else min maxWord (significand * Nat.pow 2 exponent.natAbs)

example : ofDecimal false 1 0 = .finite false (Nat.pow 2 52) (-52) := by decide +kernel
example : (ofDecimal false 25 (-1)).toWord = 3 := by decide +kernel
example : (ofDecimal true 1 0).toWord = 0 := by decide +kernel
example : (ofDecimal false 1 30).toWord = maxWord := by decide +kernel

end Binary64

end Formula.Number
