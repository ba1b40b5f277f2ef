import Formula.Number.Binary64

/-!
The shortest decimal text of a binary floating-point number: of all decimals that are nearer to it
than to any other such number, one with the fewest digits, and of those the nearest.
-/

set_option autoImplicit false
set_option relaxedAutoImplicit false

namespace Formula.Number.Binary64

/-! ### Digits -/

/-- The decimals that are read as one number: those between two ends, in units of which the number
itself has `4 * significand`. The lower end is nearer where the significand is the least one of
full precision, and the ends belong to the interval if the significand is even. -/
structure Interval where
  lower : Nat
  middle : Nat
  upper : Nat
  closed : Bool
  deriving Repr, Inhabited

/-- The interval of a finite number. -/
def interval (significand : Nat) (exponent : Int) : Interval where
  lower :=
    if significand = Nat.pow 2 (precision - 1) && minExponent < exponent then 4 * significand - 1
    else 4 * significand - 2
  middle := 4 * significand
  upper := 4 * significand + 2
  closed := significand % 2 == 0

/-- Whether a value lies in an interval that is stretched by a factor. -/
def Interval.holds (bounds : Interval) (factor value : Nat) : Bool :=
  if bounds.closed then bounds.lower * factor ≤ value && value ≤ bounds.upper * factor
  else bounds.lower * factor < value && value < bounds.upper * factor

/-- A power of ten as a ratio. -/
def tenTo (power : Int) : Nat × Nat :=
  if power < 0 then (1, Nat.pow 10 power.natAbs) else (Nat.pow 10 power.natAbs, 1)

/-- A quarter of a power of two as a ratio. -/
def quarterOf (exponent : Int) : Nat × Nat :=
  if exponent - 2 < 0 then (1, Nat.pow 2 (exponent - 2).natAbs)
  else (Nat.pow 2 (exponent - 2).natAbs, 1)

/-- The multiple of a power of ten that is read as the number, if there is one. Only the two
neighbours of the number can be; of two that are, the nearer one is taken, and the greater one if
they are equally near. -/
def multiple? (bounds : Interval) (exponent power : Int) : Option Nat :=
  let (unit, unitOver) := quarterOf exponent
  let (ten, tenOver) := tenTo power
  let factor := unit * tenOver
  let step := ten * unitOver
  let below := bounds.middle * factor / step
  let above := below + 1
  let fits (count : Nat) : Bool := bounds.holds factor (count * step)
  let nearerBelow := bounds.middle * factor - below * step < above * step - bounds.middle * factor
  if fits below && (nearerBelow || !fits above) then some below
  else if fits above then some above
  else none

/-- Looks for the digits on finer and finer grids, at most the given number of them. -/
def digitsFrom (bounds : Interval) (exponent : Int) : Nat → Int → Nat × Int
  | 0, power => (bounds.middle, power)
  | grids + 1, power =>
    match multiple? bounds exponent power with
    | some count => (count, power)
    | none => digitsFrom bounds exponent grids (power - 1)

/-- The number of digits before the point of a finite number, or a power of ten that is greater
than the number. -/
def magnitude (significand : Nat) (exponent : Int) : Int :=
  if exponent < 0 then
    let whole := significand / Nat.pow 2 exponent.natAbs
    if whole = 0 then
      let scaled := Nat.pow 2 exponent.natAbs / significand
      1 - ((Nat.toDigits 10 scaled).length : Int)
    else (Nat.toDigits 10 whole).length
  else (Nat.toDigits 10 (significand * Nat.pow 2 exponent.natAbs)).length

/-- The shortest digits of a positive finite number, and the power of ten of the last one. A
decimal of seventeen digits always fits, so the search never runs out of grids. -/
def shortest (significand : Nat) (exponent : Int) : Nat × Int :=
  digitsFrom (interval significand exponent) exponent 20 (magnitude significand exponent)

/-! ### Text -/

/-- Digits with a power of ten, written without an exponent: zeros fill the places up to the
point. -/
def positional (digits : Nat) (power : Int) : String :=
  let written := Nat.toDigits 10 digits
  if 0 ≤ power then String.ofList (written ++ List.replicate power.natAbs '0')
  else
    let places := power.natAbs
    let padded := List.replicate (places + 1 - written.length) '0' ++ written
    let whole := padded.length - places
    String.ofList (padded.take whole ++ '.' :: padded.drop whole)

/-- The text of a number: its shortest digits without an exponent, and no point in a whole
number. -/
def toText : Binary64 → String
  | notANumber => "NaN"
  | infinity negative => (if negative then "-" else "") ++ "inf"
  | finite negative significand exponent =>
    (if negative then "-" else "") ++
      if significand = 0 then "0"
      else
        let (digits, power) := shortest significand exponent
        positional digits power

example : (ofDecimal false 15 (-1)).toText = "1.5" := by decide +kernel
example : (ofDecimal true 2 0).toText = "-2" := by decide +kernel
example : (ofDecimal false 1 (-7)).toText = "0.0000001" := by decide +kernel

end Formula.Number.Binary64
