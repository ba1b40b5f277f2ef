import Formula.Token.Document
import Formula.Tree.Basic

/-!
Trees as JSON documents. Each record starts with the type of its node.
-/

set_option autoImplicit false
set_option relaxedAutoImplicit false

namespace Formula

/-- The fields of an atom. -/
def Atom.fields (atom : Atom) : List (String × Json.Document) :=
  [("token", atom.token.document), ("is_call_target", .truth atom.isCallTarget)]

namespace Node

mutual

/-- A tree as a document. -/
def document : Node → Json.Document
  | .atom leaf => .record (("type", .text "atom") :: leaf.fields)
  | .apply function arguments =>
    .record [("type", .text "apply"), ("function", .record function.fields),
      ("args", .list (documents arguments))]
  | .vector elements => .record [("type", .text "vector"), ("elements", .list (documents elements))]
  | .set elements => .record [("type", .text "set"), ("elements", .list (documents elements))]
  | .relation left operator right =>
    .record [("type", .text "relation"), ("left", left.document),
      ("operator", .record operator.fields), ("right", right.document)]
  | .sequence statements =>
    .record [("type", .text "sequence"), ("statements", .list (documents statements))]
  | .empty => .record [("type", .text "empty")]

/-- Several trees as documents. -/
def documents : List Node → List Json.Document
  | [] => []
  | node :: others => node.document :: documents others

end

end Node

end Formula
