/-!
Reading TOML characters: small readers that take characters from the front of a text or fail, and
the ways to put them together.
-/

set_option autoImplicit false
set_option relaxedAutoImplicit false

namespace Formula.Toml

/-- A reader of a text: it gives a result and leaves the rest of the text, or fails. -/
abbrev Read (α : Type) := StateT (List Char) Option α

namespace Read

variable {α : Type}

/-! ### Characters -/

/-- The next character, which stays in place. -/
def peek? : Read (Option Char) := do
  return (← get).head?

/-- Takes the next character, which has to be in a class. -/
def one (isAllowed : Char → Bool) : Read Char := do
  match ← get with
  | [] => failure
  | character :: rest =>
    if isAllowed character then
      set rest
      return character
    else
      failure

/-- Takes a given character. -/
def char (character : Char) : Read Unit := do
  let _ ← one (· == character)

/-- Takes all characters of a class that come next. -/
def takeAll (isAllowed : Char → Bool) : Read (List Char) := do
  let text ← get
  set (text.dropWhile isAllowed)
  return text.takeWhile isAllowed

/-- Takes the given characters, if they come next. -/
def takes (word : List Char) : Read Bool := do
  let text ← get
  if word.isPrefixOf text then
    set (text.drop word.length)
    return true
  else
    return false

/-- Takes the given characters. -/
def word (word : List Char) : Read Unit := do
  guard (← takes word)

/-- Takes a given number of characters of a class. -/
def exactly (isAllowed : Char → Bool) : Nat → Read (List Char)
  | 0 => return []
  | count + 1 => do
    let first ← one isAllowed
    let others ← exactly isAllowed count
    return first :: others

/-! ### Combinations -/

/-- What a reader gives, or nothing where it fails. -/
def optional (reader : Read α) : Read (Option α) :=
  (some <$> reader) <|> pure none

/-- Collects what a reader gives until it gives nothing, at most the given number of times. -/
def collectFrom (reader : Read (Option α)) : Nat → Read (List α)
  | 0 => failure
  | count + 1 => do
    match ← reader with
    | none => return []
    | some next =>
      let others ← collectFrom reader count
      return next :: others

/-- Collects what a reader gives until it gives nothing. The reader has to take a character each
time that it gives something. -/
def collect (reader : Read (Option α)) : Read (List α) := do
  collectFrom reader ((← get).length + 1)

/-! ### Blanks and lines -/

/-- Whether a character is a blank inside a line. -/
def isBlank (character : Char) : Bool :=
  character == ' ' || character == '\t'

/-- Whether a character may stand in a comment: all but the controls other than the tab. -/
def isPlain (character : Char) : Bool :=
  character == '\t' || (32 ≤ character.toNat && character.toNat != 127)

/-- Takes blanks. -/
def blanks : Read Unit := do
  let _ ← takeAll isBlank

/-- Takes the end of a line, if it comes next. -/
def takesNewLine : Read Bool := do
  if ← takes ['\n'] then return true
  takes ['\r', '\n']

/-- Takes a comment, if one comes next. -/
def comment : Read Unit := do
  if ← takes ['#'] then
    let _ ← takeAll isPlain

/-- Takes the rest of a line that holds nothing more than a comment. -/
def endOfLine : Read Unit := do
  blanks
  comment
  unless ← takesNewLine do
    guard (← get).isEmpty

/-- Takes blanks, comments and line ends. -/
def gap : Read Unit := do
  let _ ← collect do
    if (← takeAll isBlank) != [] then return some ()
    if (← peek?) == some '#' then
      comment
      guard (← takesNewLine)
      return some ()
    if ← takesNewLine then return some ()
    return none

end Read

end Formula.Toml
