import Formula.Number.Digits
import Formula.Settings.Setting

/-!
Paths to settings. A path starts with a name and goes on with names after points and indices in
square brackets, which count from the end of a list if they are negative:

    path  := name step*
    step  := '.' name | '[' blank* '-'? digit+ blank* ']'
    name  := one or more of letters, digits, spaces, '_' and '-'
-/

set_option autoImplicit false
set_option relaxedAutoImplicit false

namespace Formula

namespace Path

/-- A step from a setting to one of its parts. -/
inductive Step where
  | name (name : String)
  | index (position : Int)
  deriving DecidableEq, Repr, Inhabited

/-- The reasons for which a text is no path. -/
inductive Fault where
  /-- The path does not start with a name. -/
  | noName
  /-- What follows is no step, or a bracket is not closed. -/
  | noStep
  /-- A bracket holds no number. -/
  | noDigit
  /-- An index does not fit into 64 bits. -/
  | hugeIndex
  deriving DecidableEq, Repr, Inhabited

/-- The word that reports a fault. -/
def Fault.message : Fault → String
  | noName => "IsA"
  | noStep => "Char"
  | noDigit => "Digit"
  | hugeIndex => "Map on Result"

end Path

/-- The steps from the root to a setting. -/
structure Path where
  steps : List Path.Step
  deriving DecidableEq, Repr, Inhabited

namespace Path

/-! ### Reading -/

/-- Whether a character may stand in a name. -/
def isNameCharacter (character : Char) : Bool :=
  character.isAlphanum || character == ' ' || character == '_' || character == '-'

/-- Whether a character may stand around an index. -/
def isBlank (character : Char) : Bool :=
  character == ' ' || character == '\t'

/-- Reads an index and its closing bracket. -/
def readIndex (text : List Char) : Except Fault (Step × List Char) := do
  let inner := text.dropWhile isBlank
  let (isNegative, number) := match inner with
    | '-' :: rest => (true, rest)
    | _ => (false, inner)
  let digits := number.takeWhile Char.isDigit
  if digits.isEmpty then throw .noDigit
  let magnitude : Int := Number.ofDigits 10 digits
  let position := if isNegative then -magnitude else magnitude
  if position < -Int.pow 2 63 || Int.pow 2 63 ≤ position then throw .hugeIndex
  match (number.dropWhile Char.isDigit).dropWhile isBlank with
  | ']' :: rest => return (.index position, rest)
  | _ => throw .noStep

/-- Reads one step. -/
def readStep : List Char → Except Fault (Step × List Char)
  | '.' :: rest =>
    let name := rest.takeWhile isNameCharacter
    if name.isEmpty then .error .noStep
    else .ok (.name (String.ofList name), rest.dropWhile isNameCharacter)
  | '[' :: rest => readIndex rest
  | _ => .error .noStep

/-- Reads steps up to the end of a text, at most the given number of them. -/
def readSteps : Nat → List Char → Except Fault (List Step)
  | _, [] => .ok []
  | 0, _ :: _ => .error .noStep
  | count + 1, text => do
    let (step, rest) ← readStep text
    let others ← readSteps count rest
    return step :: others

/-- The path that a text describes. Every step takes a character, so a path has no more steps than
its text has characters. -/
def ofText (text : String) : Except Fault Path := do
  let characters := text.toList
  let name := characters.takeWhile isNameCharacter
  if name.isEmpty then throw .noName
  let steps ← readSteps characters.length (characters.dropWhile isNameCharacter)
  return ⟨.name (String.ofList name) :: steps⟩

/-- The path that consists of one name, whatever characters it has. -/
def ofName (name : String) : Path :=
  ⟨[.name name]⟩

end Path

namespace Setting

/-! ### Writing -/

/-- The place in a list of the given length that an index stands for. -/
def place (position : Int) (length : Nat) : Nat :=
  if position < 0 then length - position.natAbs else position.natAbs

/-- A list that is long enough to have a place; new items say nothing. -/
def padTo (place : Nat) (items : List Setting) : List Setting :=
  items ++ List.replicate (place + 1 - items.length) nothing

/-- Lays a setting over the one to which some steps lead. Whatever stands in the way gives way to
a table where a name is asked for and to a list where an index is. -/
def overlaySteps (value : Setting) : List Path.Step → Setting → Setting
  | [], _ => value
  | [.name name], current => overlay value name current
  | .name name :: steps, current =>
    current.put name (overlaySteps value steps ((current.get? name).getD nothing))
  | .index position :: steps, current =>
    let place := place position current.items.length
    let items := padTo place current.items
    let origin := match current with
      | .list origin _ => origin
      | _ => none
    .list origin (items.modify place (overlaySteps value steps))

/-- Lays a setting over the one to which a path leads. -/
def overlayAt (path : Path) (value current : Setting) : Setting :=
  overlaySteps value path.steps current

end Setting

end Formula
