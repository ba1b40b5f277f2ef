import Formula.Text.Quoted

/-!
JSON documents and their indented text. A document holds what the other modules write: texts,
natural numbers, truth values, lists and records whose fields keep their order.
-/

set_option autoImplicit false
set_option relaxedAutoImplicit false

namespace Formula.Json

/-- A JSON value; the fields of a record are written in the order in which they stand. -/
inductive Document where
  | text (value : String)
  | number (value : Nat)
  | truth (value : Bool)
  | list (items : List Document)
  | record (fields : List (String × Document))
  deriving Inhabited

/-! ### Texts -/

/-- The written form of one character inside a JSON string. Controls without a short escape are
written by four digits in base sixteen; everything above them stands for itself. -/
def escape (character : Char) : List Char :=
  if character = '"' then ['\\', '"']
  else if character = '\\' then ['\\', '\\']
  else if character = '\n' then ['\\', 'n']
  else if character = '\r' then ['\\', 'r']
  else if character = '\t' then ['\\', 't']
  else if character = '\x08' then ['\\', 'b']
  else if character = '\x0c' then ['\\', 'f']
  else if character.toNat < 32 then
    let code := character.toNat
    ['\\', 'u', '0', '0', Nat.digitChar (code / 16), Nat.digitChar (code % 16)]
  else [character]

/-- A text as a JSON string. -/
def writeText (text : String) : String :=
  String.ofList ('"' :: text.toList.flatMap escape ++ ['"'])

/-! ### Documents -/

/-- The start of a line at a nesting level: two spaces for each level. -/
def indentation (level : Nat) : String :=
  String.ofList (List.replicate (2 * level) ' ')

mutual

/-- The indented text of a document that stands at a nesting level. -/
def Document.writeAt (level : Nat) : Document → String
  | .text value => writeText value
  | .number value => toString value
  | .truth true => "true"
  | .truth false => "false"
  | .list [] => "[]"
  | .list (first :: others) =>
    "[\n" ++ indentation (level + 1) ++ first.writeAt (level + 1) ++
      Document.writeItems (level + 1) others ++ "\n" ++ indentation level ++ "]"
  | .record [] => "\x7b\x7d"
  | .record ((name, first) :: others) =>
    "\x7b\n" ++ indentation (level + 1) ++ writeText name ++ ": " ++ first.writeAt (level + 1) ++
      Document.writeFields (level + 1) others ++ "\n" ++ indentation level ++ "\x7d"

/-- The items of a list after its first one, each on a line of its own. -/
def Document.writeItems (level : Nat) : List Document → String
  | [] => ""
  | item :: others =>
    ",\n" ++ indentation level ++ item.writeAt level ++ Document.writeItems level others

/-- The fields of a record after its first one, each on a line of its own. -/
def Document.writeFields (level : Nat) : List (String × Document) → String
  | [] => ""
  | (name, value) :: others =>
    ",\n" ++ indentation level ++ writeText name ++ ": " ++ value.writeAt level ++
      Document.writeFields level others

end

/-- The indented text of a document. -/
def Document.write (document : Document) : String :=
  document.writeAt 0

end Formula.Json
