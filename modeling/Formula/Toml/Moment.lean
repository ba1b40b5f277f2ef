import Formula.Number.Digits
import Formula.Toml.Read

/-!
Dates and times. A moment is a date, a time of day, or both, and then it may also tell its distance
from universal time. It is written in one form, however it was read.
-/

set_option autoImplicit false
set_option relaxedAutoImplicit false

namespace Formula.Toml

/-- A day of the calendar. -/
structure Date where
  year : Nat
  month : Nat
  day : Nat
  deriving DecidableEq, Repr, Inhabited

/-- A time of day. -/
structure Time where
  hour : Nat
  minute : Nat
  second : Nat
  nanosecond : Nat
  deriving DecidableEq, Repr, Inhabited

/-- The distance of a time from universal time: none at all, or a number of minutes. -/
inductive Offset where
  | universal
  | minutes (count : Int)
  deriving DecidableEq, Repr, Inhabited

/-- A date with a time and a distance from universal time, each of which may be missing. -/
structure Moment where
  date : Option Date
  time : Option Time
  offset : Option Offset
  deriving DecidableEq, Repr, Inhabited

/-! ### Writing -/

/-- The digits of a number, with zeros in front up to a width. -/
def paddedDigits (width number : Nat) : List Char :=
  (Nat.toDigits 10 number).leftpad width '0'

/-- A date as a moment writes it. -/
def Date.characters (date : Date) : List Char :=
  paddedDigits 4 date.year ++ '-' :: paddedDigits 2 date.month ++ '-' :: paddedDigits 2 date.day

/-- The point and the digits of a part of a second, without zeros at their end. -/
def fractionCharacters (nanosecond : Nat) : List Char :=
  if nanosecond = 0 then []
  else '.' :: ((paddedDigits 9 nanosecond).reverse.dropWhile (· == '0')).reverse

/-- A time as a moment writes it. -/
def Time.characters (time : Time) : List Char :=
  paddedDigits 2 time.hour ++ ':' :: paddedDigits 2 time.minute ++ ':' ::
    paddedDigits 2 time.second ++ fractionCharacters time.nanosecond

/-- A distance as a moment writes it; no minutes have a positive sign. -/
def Offset.characters : Offset → List Char
  | universal => ['Z']
  | minutes count =>
    (if count < 0 then '-' else '+') :: paddedDigits 2 (count.natAbs / 60) ++
      ':' :: paddedDigits 2 (count.natAbs % 60)

/-- The text of a moment. -/
def Moment.text (moment : Moment) : String :=
  let day := moment.date.elim [] Date.characters
  let mark := if moment.date.isSome && moment.time.isSome then ['T'] else []
  let hour := moment.time.elim [] Time.characters
  String.ofList (day ++ mark ++ hour ++ moment.offset.elim [] Offset.characters)

/-! ### Reading -/

namespace Read

open Number

/-- A number of two digits that is at least and at most something. -/
def twoDigits (least most : Nat) : Read Nat := do
  let value := ofDigits 10 (← exactly Char.isDigit 2)
  guard (least ≤ value && value ≤ most)
  return value

/-- The number of days of a month. -/
def daysIn (year month : Nat) : Nat :=
  if month = 2 then
    if year % 4 = 0 && (year % 100 != 0 || year % 400 = 0) then 29 else 28
  else if month = 4 || month = 6 || month = 9 || month = 11 then 30
  else 31

/-- A date. -/
def date : Read Date := do
  let year := ofDigits 10 (← exactly Char.isDigit 4)
  char '-'
  let month ← twoDigits 1 12
  char '-'
  let day ← twoDigits 1 (daysIn year month)
  return { year, month, day }

/-- The nanoseconds that some places after the point of a second make, of which nine count. -/
def nanoseconds (places : List Char) : Nat :=
  ofDigits 10 (places.take 9) * Nat.pow 10 (9 - places.length)

/-- A time of day. A minute may have one second more than sixty. -/
def time : Read Time := do
  let hour ← twoDigits 0 23
  char ':'
  let minute ← twoDigits 0 59
  char ':'
  let second ← twoDigits 0 60
  let nanosecond ← if ← takes ['.'] then do
      let first ← one Char.isDigit
      let others ← takeAll Char.isDigit
      pure (nanoseconds (first :: others))
    else pure 0
  return { hour, minute, second, nanosecond }

/-- A distance from universal time, which is less than a day. -/
def offset : Read Offset := do
  match ← one fun _ ↦ true with
  | 'Z' | 'z' => return .universal
  | mark =>
    guard (mark == '+' || mark == '-')
    let hour ← twoDigits 0 23
    char ':'
    let minute ← twoDigits 0 59
    let distance : Int := (60 * hour + minute : Nat)
    return .minutes (if mark == '-' then -distance else distance)

/-- A date, and a time with its distance if they follow. -/
def dateAndTime : Read Moment := do
  let day ← date
  let rest? ← optional do
    let _ ← one fun character ↦ character == 'T' || character == 't' || character == ' '
    let hour ← time
    return (hour, ← optional offset)
  return ⟨day, rest?.map Prod.fst, rest?.bind Prod.snd⟩

/-- A date, a time, or both. -/
def moment : Read Moment :=
  dateAndTime <|> do return ⟨none, ← time, none⟩

end Read

/-- The moment that a whole text holds. -/
def Moment.ofText? (text : String) : Option Moment :=
  match Read.moment.run text.toList with
  | some (moment, []) => some moment
  | _ => none

end Formula.Toml
