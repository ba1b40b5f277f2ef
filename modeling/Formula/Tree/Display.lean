import Formula.Tree.Basic

/-!
The structural form of a tree, in which every operator is written as a function before its
arguments, and the short label that describes a node on its own.
-/

set_option autoImplicit false
set_option relaxedAutoImplicit false

namespace Formula.Node

/-! ### The structural form -/

mutual

/-- The structural form of a tree. -/
def display : Node → String
  | .atom leaf => leaf.lexeme
  | .apply function arguments =>
    function.lexeme ++ "(" ++ ", ".intercalate (displayAll arguments) ++ ")"
  | .vector elements => "[" ++ ", ".intercalate (displayAll elements) ++ "]"
  | .set elements => "\x7b" ++ ", ".intercalate (displayAll elements) ++ "\x7d"
  | .relation left operator right =>
    left.display ++ " " ++ operator.lexeme ++ " " ++ right.display
  | .sequence statements => "\n".intercalate (displayAll statements)
  | .empty => ""

/-- The structural forms of several trees. -/
def displayAll : List Node → List String
  | [] => []
  | node :: others => node.display :: displayAll others

end

theorem displayAll_eq_map (nodes : List Node) : displayAll nodes = nodes.map display := by
  induction nodes with
  | nil => rfl
  | cons node others inductionHypothesis => simp [displayAll, inductionHypothesis]

/-! ### Labels -/

/-- A number of things, in words. -/
def counted (count : Nat) (singular plural : String) : String :=
  if count = 1 then "1 " ++ singular else toString count ++ " " ++ plural

/-- The label of a node: a leaf shows its text, a relation its structural form, and every other
node how much it holds. -/
def label : Node → String
  | .atom leaf => leaf.lexeme
  | .apply function arguments =>
    function.lexeme ++ " (" ++ counted arguments.length "arg" "args" ++ ")"
  | .vector elements => counted elements.length "element" "elements"
  | .set elements => counted elements.length "element" "elements"
  | .relation left operator right => (relation left operator right).display
  | .sequence statements => counted statements.length "statement" "statements"
  | .empty => ""

end Formula.Node
