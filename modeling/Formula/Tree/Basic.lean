import Formula.Token.Basic

/-!
Syntax trees of formulas. A leaf is a name or a number; an operator and a named function are both
applied to a list of arguments; a relation compares two sides; a program is a relation, the empty
statement, or a sequence of statements.
-/

set_option autoImplicit false
set_option relaxedAutoImplicit false

namespace Formula

/-- A token in a tree: a value, or the function or operator of the node that holds it. -/
structure Atom where
  token : Token
  isCallTarget : Bool
  deriving DecidableEq, Repr, Inhabited

namespace Atom

/-- A token used as a value. -/
def value (token : Token) : Atom :=
  ⟨token, false⟩

/-- A token used as a function or as the operator of a relation. -/
def callTarget (token : Token) : Atom :=
  ⟨token, true⟩

/-- The text of an atom. -/
def lexeme (atom : Atom) : String :=
  atom.token.lexeme

/-- The operator that an atom holds, if any. -/
def operator? (atom : Atom) : Option Token.Operator :=
  atom.token.kind.operator?

end Atom

/-- A syntax tree. -/
inductive Node where
  /-- A name or a number. -/
  | atom (leaf : Atom)
  /-- A function or an operator with its arguments, in source order. -/
  | apply (function : Atom) (arguments : List Node)
  /-- Elements between square brackets. -/
  | vector (elements : List Node)
  /-- Elements between curly brackets, repeated ones kept as written. -/
  | set (elements : List Node)
  /-- Two sides joined by a comparison. -/
  | relation (left : Node) (operator : Atom) (right : Node)
  /-- Statements in source order. -/
  | sequence (statements : List Node)
  /-- A statement of blank lines only. -/
  | empty
  deriving Repr, Inhabited

namespace Node

/-- The name of a node's kind. -/
def typeName : Node → String
  | .atom _ => "Atom"
  | .apply _ _ => "Apply"
  | .vector _ => "Vector"
  | .set _ => "Set"
  | .relation _ _ _ => "Relation"
  | .sequence _ => "Sequence"
  | .empty => "Empty"

/-- The items that a node lists. The sides of a relation are parts of it, but not a list. -/
def children : Node → List Node
  | .apply _ arguments => arguments
  | .vector elements => elements
  | .set elements => elements
  | .sequence statements => statements
  | .atom _ | .relation _ _ _ | .empty => []

/-- Induction over trees, with a hypothesis for each tree in a list. -/
theorem induction {motive : Node → Prop} (atom : ∀ leaf, motive (.atom leaf))
    (apply : ∀ function arguments, (∀ argument ∈ arguments, motive argument) →
      motive (.apply function arguments))
    (vector : ∀ elements, (∀ element ∈ elements, motive element) → motive (.vector elements))
    (set : ∀ elements, (∀ element ∈ elements, motive element) → motive (.set elements))
    (relation : ∀ left operator right, motive left → motive right →
      motive (.relation left operator right))
    (sequence : ∀ statements, (∀ statement ∈ statements, motive statement) →
      motive (.sequence statements))
    (empty : motive .empty) (node : Node) : motive node := by
  exact @Node.rec motive (fun nodes ↦ ∀ node ∈ nodes, motive node) atom apply vector set relation
    sequence empty
    (List.forall_mem_nil _) (fun _ _ hnode hothers ↦ List.forall_mem_cons.mpr ⟨hnode, hothers⟩) node

end Node

end Formula
