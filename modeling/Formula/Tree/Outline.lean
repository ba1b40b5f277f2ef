import Formula.Tree.Display
import Formula.Tree.Visitor

/-!
The outline of a tree: one line for each node, indented by two spaces for each level, with an icon
for the node's kind and its label. Long labels are cut to a given width.
-/

set_option autoImplicit false
set_option relaxedAutoImplicit false

namespace Formula.Node

/-- The label width of an outline unless another one is asked for. -/
def defaultLabelWidth : Nat := 30

/-- A label of at most the given number of characters; three dots follow one that had to be cut. -/
def cut (width : Nat) (label : String) : String :=
  if width < label.toList.length then String.ofList (label.toList.take width) ++ "..." else label

/-- The icon of a node's kind. -/
def icon : Node → String
  | .sequence _ => "⧉"
  | .relation _ _ _ => "≟"
  | .apply _ _ => "ƒ"
  | .atom _ => "◦"
  | .vector _ => "⟦"
  | .set _ => "⦃"
  | .empty => "∅"

/-- The line of a node at a level. A node whose cut label is empty shows its icon alone. -/
def outlineLine (width level : Nat) (node : Node) : String :=
  let label := cut width node.label
  String.ofList (List.replicate (2 * level) ' ') ++ node.icon ++
    (if label.isEmpty then "" else " " ++ label) ++ "\n"

/-- Whether the nodes that are visited before a node is left stand one level deeper. -/
def isBranch : Node → Bool
  | .atom _ | .empty => false
  | _ => true

/-- An outline under construction: the lines written so far and the level of the next one. -/
structure Outline where
  lines : String := ""
  level : Nat := 0
  deriving Repr, Inhabited

/-- The visitor that writes an outline. -/
def outliner (width : Nat) : Visitor Outline where
  enter node outline :=
    { lines := outline.lines ++ outlineLine width outline.level node
      level := if node.isBranch then outline.level + 1 else outline.level }
  leave node outline :=
    { outline with level := if node.isBranch then outline.level - 1 else outline.level }

/-- The outline of a tree, with labels of at most the given number of characters. -/
def outline (width : Nat) (node : Node) : String :=
  (node.accept (outliner width) {}).lines

end Formula.Node
