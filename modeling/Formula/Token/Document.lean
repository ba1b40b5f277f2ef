import Formula.Json.Document
import Formula.Token.Basic

/-!
Tokens as JSON documents.
-/

set_option autoImplicit false
set_option relaxedAutoImplicit false

namespace Formula

/-- A kind as a document: its name, or a record that holds the name of its operator. -/
def TokenKind.document : TokenKind → Json.Document
  | .identifier => .text "identifier"
  | .number => .text "number"
  | .operator symbol => .record [("operator", .text symbol.name)]
  | .newLine => .text "new_line"
  | .endOfInput => .text "end_of_input"
  | .invalid => .text "invalid"

/-- A token as a document. -/
def Token.document (token : Token) : Json.Document :=
  .record [("kind", token.kind.document), ("lexeme", .text token.lexeme),
    ("position", .number token.position)]

end Formula
