import Formula.Tree.Basic

/-!
The call form of a tree, in which every operator becomes the application of a wrapped function:
`x = 1 + 2` is written `Func("=")(atom("x"), Func("+").eval(atom("1"), atom("2")))`. The names in
it and the way in which operators are named can be chosen.
-/

set_option autoImplicit false
set_option relaxedAutoImplicit false

namespace Formula

/-- How an operator is named: by its lexeme or by its name. -/
inductive OperatorStyle where
  | lexeme
  | name
  deriving DecidableEq, Repr, Inhabited

/-- The names that the call form uses. -/
structure Naming where
  /-- Wraps functions and operators. -/
  functionWrapper : String := "Func"
  /-- Wraps values. -/
  atomWrapper : String := "atom"
  /-- Joins a function to its arguments. -/
  applyMethod : String := "eval"
  vectorName : String := "vector"
  setName : String := "set"
  operatorStyle : OperatorStyle := .lexeme
  deriving DecidableEq, Repr, Inhabited

/-- The text of an atom in its wrapper. -/
def Atom.render (naming : Naming) (atom : Atom) : String :=
  let name :=
    match naming.operatorStyle, atom.operator? with
    | .name, some operator => operator.name
    | _, _ => atom.lexeme
  let wrapper := if atom.isCallTarget then naming.functionWrapper else naming.atomWrapper
  wrapper ++ "(\"" ++ name ++ "\")"

namespace Node

mutual

/-- The call form of a tree. -/
def render (naming : Naming) : Node → String
  | .atom leaf => leaf.render naming
  | .apply function arguments =>
    function.render naming ++ "." ++ naming.applyMethod ++ "(" ++
      ", ".intercalate (renderAll naming arguments) ++ ")"
  | .vector elements =>
    naming.vectorName ++ "(" ++ ", ".intercalate (renderAll naming elements) ++ ")"
  | .set elements => naming.setName ++ "(" ++ ", ".intercalate (renderAll naming elements) ++ ")"
  | .relation left operator right =>
    operator.render naming ++ "(" ++ left.render naming ++ ", " ++ right.render naming ++ ")"
  | .sequence statements => "\n".intercalate (renderAll naming statements)
  | .empty => ""

/-- The call forms of several trees. -/
def renderAll (naming : Naming) : List Node → List String
  | [] => []
  | node :: others => node.render naming :: renderAll naming others

end

theorem renderAll_eq_map (naming : Naming) (nodes : List Node) :
    renderAll naming nodes = nodes.map (render naming) := by
  induction nodes with
  | nil => rfl
  | cons node others inductionHypothesis => simp [renderAll, inductionHypothesis]

end Node

end Formula
