import Formula.Number.Digits
import Formula.Toml.Read

/-!
TOML strings and keys. A basic string has escapes, a literal string has none; both also come in a
form that runs over several lines.
-/

set_option autoImplicit false
set_option relaxedAutoImplicit false

namespace Formula.Toml.Read

open Number

/-- A piece of a string, and whether the string goes on after it. -/
structure Piece where
  characters : List Char
  goesOn : Bool
  deriving Repr, Inhabited

/-- The characters of a string that is read piece by piece, with at most the given number of
pieces. -/
def piecesFrom (piece : Read Piece) : Nat → Read (List Char)
  | 0 => failure
  | count + 1 => do
    let next ← piece
    if next.goesOn then
      let others ← piecesFrom piece count
      return next.characters ++ others
    else
      return next.characters

/-- The text of a string that is read piece by piece. Each piece has to take a character. -/
def pieces (piece : Read Piece) : Read String := do
  return String.ofList (← piecesFrom piece ((← get).length + 1))

/-! ### Escapes -/

/-- Whether a character is a digit in base sixteen. -/
def isHexDigit (character : Char) : Bool :=
  character.isDigit || ('a' ≤ character && character ≤ 'f') || ('A' ≤ character && character ≤ 'F')

/-- The character whose code point is written by a given number of digits in base sixteen. -/
def codePoint (count : Nat) : Read Char := do
  let code := ofDigits 16 (← exactly isHexDigit count)
  guard (Nat.isValidChar code)
  return Char.ofNat code

/-- The character that an escape stands for, after its backslash. -/
def escaped : Read Char := do
  match ← one fun _ ↦ true with
  | 'b' => return '\x08'
  | 't' => return '\t'
  | 'n' => return '\n'
  | 'f' => return '\x0c'
  | 'r' => return '\r'
  | '"' => return '"'
  | '\\' => return '\\'
  | 'u' => codePoint 4
  | 'U' => codePoint 8
  | _ => failure

/-! ### Strings on one line -/

/-- A basic string. -/
def basicString : Read String := do
  char '"'
  pieces do
    match ← one isPlain with
    | '"' => return ⟨[], false⟩
    | '\\' => return ⟨[← escaped], true⟩
    | character => return ⟨[character], true⟩

/-- A literal string. -/
def literalString : Read String := do
  char '\''
  pieces do
    match ← one isPlain with
    | '\'' => return ⟨[], false⟩
    | character => return ⟨[character], true⟩

/-! ### Strings on several lines -/

/-- A run of quotes in a string on several lines. Three close it; one or two more in front of them
belong to the string, as one or two alone do. -/
def quotes (quote : Char) : Read Piece := do
  let run ← takeAll (· == quote)
  guard (run.length ≤ 5)
  if run.length < 3 then return ⟨run, true⟩
  return ⟨run.drop 3, false⟩

/-- The end of a line inside a string; however it is written, it stands for a line feed. -/
def lineBreak : Read Piece := do
  guard (← takesNewLine)
  return ⟨['\n'], true⟩

/-- Takes a line end after blanks, and all blanks and line ends that follow it. -/
def continuation : Read Piece := do
  blanks
  guard (← takesNewLine)
  let _ ← collect do
    if (← takeAll isBlank) != [] then return some ()
    if ← takesNewLine then return some ()
    return none
  return ⟨[], true⟩

/-- A basic string on several lines. A line end right after the opening quotes does not count. -/
def basicLines : Read String := do
  word ['"', '"', '"']
  let _ ← takesNewLine
  pieces do
    match ← peek? with
    | some '"' => quotes '"'
    | some '\\' =>
      char '\\'
      continuation <|> do return ⟨[← escaped], true⟩
    | _ => lineBreak <|> do return ⟨[← one isPlain], true⟩

/-- A literal string on several lines. -/
def literalLines : Read String := do
  word ['\'', '\'', '\'']
  let _ ← takesNewLine
  pieces do
    match ← peek? with
    | some '\'' => quotes '\''
    | _ => lineBreak <|> do return ⟨[← one isPlain], true⟩

/-- A string of any form. -/
def string : Read String := do
  let text ← get
  if ['"', '"', '"'].isPrefixOf text then basicLines
  else if ['\'', '\'', '\''].isPrefixOf text then literalLines
  else if text.head? == some '"' then basicString
  else literalString

/-! ### Keys -/

/-- The number of parts that a dotted key has fewer than. -/
def maxKeyParts : Nat := 80

/-- Whether a character may stand in a key without quotes. -/
def isBare (character : Char) : Bool :=
  character.isAlphanum || character == '_' || character == '-'

/-- One part of a key. -/
def keyPart : Read String := do
  match ← peek? with
  | some '"' => basicString
  | some '\'' => literalString
  | _ =>
    let name ← takeAll isBare
    guard (name != [])
    return String.ofList name

/-- One part of a key between blanks. -/
def spacedKeyPart : Read String := do
  blanks
  let name ← keyPart
  blanks
  return name

/-- A key, as the parts before its last one and the last one. -/
def key : Read (List String × String) := do
  let first ← spacedKeyPart
  let others ← collect do
    if ← takes ['.'] then return some (← spacedKeyPart)
    return none
  guard (others.length + 1 < maxKeyParts)
  let parts := first :: others
  return (parts.dropLast, parts.getLast (List.cons_ne_nil _ _))

end Formula.Toml.Read
