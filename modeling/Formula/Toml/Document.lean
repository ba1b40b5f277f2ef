import Formula.Toml.Scalar

/-!
TOML documents. A document is a list of lines: headers that open tables and keys with their values.
Values are scalars, arrays and inline tables; arrays and inline tables nest to a fixed depth.
-/

set_option autoImplicit false
set_option relaxedAutoImplicit false

namespace Formula.Toml

namespace Read

/-! ### Values -/

/-- How deep arrays and inline tables may be nested. -/
def maxNesting : Nat := 79

/-- The items of an array after its opening bracket, up to the closing one. -/
def arrayItems (item : Read Value) : Read (List Value) := do
  let items ← collect do
    gap
    if (← peek?) == some ']' then return none
    let next ← item
    gap
    unless ← takes [','] do
      guard ((← peek?) == some ']')
    return some next
  char ']'
  return items

/-- A key with its value. -/
def keyed (item : Read Value) : Read ((List String × String) × Value) := do
  let name ← key
  char '='
  blanks
  let value ← item
  return (name, value)

/-- The entries of an inline table after its opening bracket, up to the closing one. No comma
stands before the closing bracket. -/
def inlineEntries (item : Read Value) : Read (List ((List String × String) × Value)) := do
  blanks
  if ← takes ['\x7d'] then return []
  let first ← keyed item
  blanks
  let others ← collect do
    if ← takes [','] then
      let next ← keyed item
      blanks
      return some next
    return none
  char '\x7d'
  return first :: others

/-- The table of some keys with their values, unless they contradict each other. -/
def inlineTable (entries : List ((List String × String) × Value)) : Option Value := do
  let table ← entries.foldlM
    (fun table ((path, last), value) ↦ Entry.insert last value path table) []
  return .table (Entry.toValues table)

/-- A value in which arrays and inline tables nest at most the given number of times. -/
def value : Nat → Read Value
  | 0 => do
    guard ((← peek?) != some '[' && (← peek?) != some '\x7b')
    scalar
  | depth + 1 => do
    if ← takes ['['] then
      return .list (← arrayItems (value depth))
    else if ← takes ['\x7b'] then
      inlineTable (← inlineEntries (value depth))
    else
      scalar

/-! ### Lines -/

/-- A line of a document. -/
inductive Line where
  | blank
  | header (path : List String) (last : String)
  | nextHeader (path : List String) (last : String)
  | entry (path : List String) (last : String) (value : Value)
  deriving Inhabited

/-- One line with its end. -/
def line : Read Line := do
  blanks
  match ← peek? with
  | none | some '#' | some '\n' | some '\r' =>
    endOfLine
    return .blank
  | some '[' =>
    if ← takes ['[', '['] then
      let (path, last) ← key
      word [']', ']']
      endOfLine
      return .nextHeader path last
    else
      char '['
      let (path, last) ← key
      char ']'
      endOfLine
      return .header path last
  | some _ =>
    let ((path, last), content) ← keyed (value maxNesting)
    endOfLine
    return .entry path last content

/-- All lines of a text. A mark of the byte order at its start does not count. -/
def lines : Read (List Line) := do
  let _ ← takes ['\ufeff']
  collect do
    if (← get).isEmpty then return none
    return some (← line)

end Read

/-! ### Documents -/

/-- A document under construction: its entries and the keys of the table that is open. -/
structure Draft where
  entries : List (String × Entry) := []
  opened : List String := []
  deriving Inhabited

/-- Adds a line to a document. -/
def Draft.add (draft : Draft) : Read.Line → Option Draft
  | .blank => some draft
  | .header path last => do
    return ⟨← Entry.alter (Entry.openTable last) path draft.entries, path ++ [last]⟩
  | .nextHeader path last => do
    return ⟨← Entry.alter (Entry.openNext last) path draft.entries, path ++ [last]⟩
  | .entry path last value => do
    let entries ← Entry.alter (Entry.insert last value path) draft.opened draft.entries
    return { draft with entries }

/-- The entries of a document, unless its text is malformed, its lines contradict each other, or the
document as a whole is a moment. -/
def read (text : String) : Option (List (String × Value)) := do
  let (lines, _) ← Read.lines.run text.toList
  let draft ← lines.foldlM Draft.add {}
  match ← Value.withMoments? (.table (Entry.toValues draft.entries)) with
  | .table entries => return entries
  | _ => failure

end Formula.Toml
