import Formula.Number.Digits
import Formula.Toml.Text
import Formula.Toml.Value

/-!
TOML values that hold no others: strings, numbers, truth values, dates and times.
-/

set_option autoImplicit false
set_option relaxedAutoImplicit false

namespace Formula.Toml.Read

open Number

/-! ### Digits -/

/-- The digits of a text that may be grouped by single underscores, and what is left of it. -/
def groupedDigits (isAllowed : Char → Bool) : List Char → List Char × List Char
  | [] => ([], [])
  | '_' :: next :: rest =>
    if isAllowed next then
      let (digits, left) := groupedDigits isAllowed rest
      (next :: digits, left)
    else ([], '_' :: next :: rest)
  | character :: rest =>
    if isAllowed character then
      let (digits, left) := groupedDigits isAllowed rest
      (character :: digits, left)
    else ([], character :: rest)

/-- One or more digits, the first of which is no underscore. -/
def digits (isAllowed : Char → Bool) : Read (List Char) := do
  let first ← one isAllowed
  let (others, left) := groupedDigits isAllowed (← get)
  set left
  return first :: others

/-- A sign, if one comes next: whether the number is negative. -/
def sign : Read Bool := do
  if ← takes ['-'] then return true
  let _ ← takes ['+']
  return false

/-- The digits of a whole number: a lone zero, or digits that start with another one. -/
def wholeDigits : Read (List Char) := do
  if ← takes ['0'] then return ['0']
  digits Char.isDigit

/-! ### Numbers -/

/-- A whole number with a sign, if 64 bits can hold it. -/
def signed (isNegative : Bool) (magnitude : Nat) : Read Value := do
  let number : Int := if isNegative then -magnitude else magnitude
  guard (-Int.pow 2 63 ≤ number && number < Int.pow 2 63)
  return .integer number

/-- An integer in base ten with an optional sign, or in base two, eight or sixteen without one. -/
def integer : Read Value := do
  if ← takes ['0', 'x'] then
    signed false (ofDigits 16 (← digits isHexDigit))
  else if ← takes ['0', 'o'] then
    signed false (ofDigits 8 (← digits fun character ↦ '0' ≤ character && character ≤ '7'))
  else if ← takes ['0', 'b'] then
    signed false (ofDigits 2 (← digits fun character ↦ character == '0' || character == '1'))
  else
    let isNegative ← sign
    signed isNegative (ofDigits 10 (← wholeDigits))

/-- The digits after a point, if one comes next. -/
def fraction : Read (List Char) := do
  if ← takes ['.'] then digits Char.isDigit else return []

/-- The power of ten after an exponent mark, if one comes next. -/
def exponent : Read (Option Int) := do
  match ← peek? with
  | some 'e' | some 'E' =>
    let _ ← one fun _ ↦ true
    let isNegative ← sign
    let magnitude := ofDigits 10 (← digits Char.isDigit)
    return some (if isNegative then -magnitude else magnitude)
  | _ => return none

/-- A float in digits: a whole number with a fraction, an exponent or both. One that is too great
is refused, while one that is too small becomes negative infinity. -/
def decimal : Read Value := do
  let isNegative ← sign
  let whole ← wholeDigits
  let places ← fraction
  let power? ← exponent
  guard (places != [] || power?.isSome)
  let value := Binary64.ofDecimal isNegative (ofDigits 10 (whole ++ places))
    (power?.getD 0 - places.length)
  guard (value != .infinity false)
  return .float value

/-- A float in words. -/
def wordFloat : Read Value := do
  let isNegative ← sign
  if ← takes ['i', 'n', 'f'] then return .float (.infinity isNegative)
  word ['n', 'a', 'n']
  return .float .notANumber

/-! ### Scalars -/

/-- A value that holds no others. -/
def scalar : Read Value := do
  match ← peek? with
  | some '"' | some '\'' => return .text (← string)
  | some 't' => word ['t', 'r', 'u', 'e']; return .truth true
  | some 'f' => word ['f', 'a', 'l', 's', 'e']; return .truth false
  | _ => (.moment <$> moment) <|> decimal <|> wordFloat <|> integer

end Formula.Toml.Read
