import Formula.Tree.Basic

/-!
Walking through a tree. A visitor is told when the walk enters a node and when it leaves it again;
in between it is told about the node's parts, in source order. The function of an application and
the operator of a relation belong to their node and are not visited on their own.
-/

set_option autoImplicit false
set_option relaxedAutoImplicit false

namespace Formula

/-- What to do with the state of a walk when a node is entered and when it is left. -/
structure Visitor (σ : Type) where
  enter : Node → σ → σ := fun _ state ↦ state
  leave : Node → σ → σ := fun _ state ↦ state

namespace Node

/-! ### Walks -/

mutual

/-- Lets a visitor walk through a tree. The empty statement is entered but not left. -/
def accept {σ : Type} (visitor : Visitor σ) : Node → σ → σ
  | .atom leaf, state => visitor.leave (.atom leaf) (visitor.enter (.atom leaf) state)
  | .apply function arguments, state =>
    visitor.leave (.apply function arguments)
      (acceptAll visitor arguments (visitor.enter (.apply function arguments) state))
  | .vector elements, state =>
    visitor.leave (.vector elements)
      (acceptAll visitor elements (visitor.enter (.vector elements) state))
  | .set elements, state =>
    visitor.leave (.set elements)
      (acceptAll visitor elements (visitor.enter (.set elements) state))
  | .relation left operator right, state =>
    visitor.leave (.relation left operator right)
      (right.accept visitor
        (left.accept visitor (visitor.enter (.relation left operator right) state)))
  | .sequence statements, state =>
    visitor.leave (.sequence statements)
      (acceptAll visitor statements (visitor.enter (.sequence statements) state))
  | .empty, state => visitor.enter .empty state

/-- Lets a visitor walk through several trees, one after the other. -/
def acceptAll {σ : Type} (visitor : Visitor σ) : List Node → σ → σ
  | [], state => state
  | node :: others, state => acceptAll visitor others (node.accept visitor state)

end

/-! ### The steps of a walk -/

/-- One step of a walk. -/
inductive Step where
  | enter (node : Node)
  | leave (node : Node)
  deriving Inhabited

/-- The visitor that writes down every step of its walk. -/
def recorder : Visitor (List Step) where
  enter node steps := steps ++ [.enter node]
  leave node steps := steps ++ [.leave node]

/-- The steps of a walk through a tree, in order. -/
def steps (node : Node) : List Step :=
  node.accept recorder []

/-- The visitor that counts the applications it enters. -/
def applicationCounter : Visitor Nat where
  enter
    | .apply _ _, count => count + 1
    | _, count => count

/-- The number of applications in a tree. -/
def applicationCount (node : Node) : Nat :=
  node.accept applicationCounter 0

end Node

end Formula
