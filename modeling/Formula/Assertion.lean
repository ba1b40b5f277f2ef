import Formula.Parser.Program
import Formula.Tree.Display

/-!
Assertions about trees. An assertion stands at a node and knows the way by which it was reached;
each check either lets the assertion go on, there or at a part of the node, or fails with a report
that begins with that way.
-/

set_option autoImplicit false
set_option relaxedAutoImplicit false

namespace Formula

/-! ### Failures -/

/-- What an assertion found instead of what it asked for. -/
inductive Mismatch where
  | kind (wanted : String) (node : Node)
  | lexeme (found wanted : String)
  | function (found wanted : String)
  | arity (found wanted : Nat) (node : Node)
  | operator (found wanted : String)
  | display (found wanted : String)
  | callTarget (found wanted : Bool)
  | size (found wanted : Nat)
  | noArgument (index count : Nat)
  | noItem (index count : Nat)
  deriving Repr, Inhabited

/-- A failed check. -/
inductive AssertionFailure where
  | mismatch (place : String) (found : Mismatch)
  | rejected (source : String) (error : SyntaxError)
  | accepted (source : String) (node : Node)
  deriving Repr, Inhabited

namespace Mismatch

/-- The report of two values that should have been equal. -/
def unequal (reason found wanted : String) : String :=
  "assertion `left == right` failed: " ++ reason ++ "\n  left: " ++ found ++ "\n right: " ++ wanted

/-- The report of a mismatch at a place. -/
def message (place : String) : Mismatch → String
  | kind wanted node =>
    place ++ ": Expected " ++ wanted ++ ", found " ++ node.typeName ++ " `" ++ node.display ++ "`"
  | lexeme found wanted =>
    unequal (place ++ ": atom lexeme mismatch") (Text.quoted found) (Text.quoted wanted)
  | function found wanted =>
    unequal (place ++ ": function mismatch") (Text.quoted found) (Text.quoted wanted)
  | arity found wanted node =>
    unequal
      (place ++ ": expected " ++ toString wanted ++ " argument(s), found " ++ toString found ++
        " in `" ++ node.display ++ "`")
      (toString found) (toString wanted)
  | operator found wanted =>
    unequal (place ++ ": relation operator mismatch") (Text.quoted found) (Text.quoted wanted)
  | display found wanted =>
    unequal (place ++ ": display mismatch") (Text.quoted found) (Text.quoted wanted)
  | callTarget found wanted =>
    unequal (place ++ ": call target flag mismatch") (toString found) (toString wanted)
  | size found wanted =>
    unequal
      (place ++ ": Expected " ++ toString wanted ++ " children, found " ++ toString found)
      (toString found) (toString wanted)
  | noArgument index count =>
    place ++ ": Argument index " ++ toString index ++ " out of bounds (" ++ toString count ++
      " arguments)"
  | noItem index count =>
    place ++ ": Item index " ++ toString index ++ " out of bounds (" ++ toString count ++
      " children)"

end Mismatch

/-- The report of a failed check. -/
def AssertionFailure.message : AssertionFailure → String
  | mismatch place found => found.message place
  | rejected source error => "failed to parse " ++ Text.quoted source ++ ": " ++ error.message
  | accepted source node =>
    "expected " ++ Text.quoted source ++ " to be rejected, parsed as " ++ node.display

/-! ### Sources -/

/-- The tree of a source that has to be accepted. -/
def assertAccepted (source : String) : Except AssertionFailure Node :=
  match parse source with
  | .ok node => .ok node
  | .error error => .error (.rejected source error)

/-- The error of a source that has to be rejected. -/
def assertRejected (source : String) : Except AssertionFailure SyntaxError :=
  match parse source with
  | .ok node => .error (.accepted source node)
  | .error error => .ok error

/-! ### Nodes -/

/-- An assertion about a node. -/
structure NodeAssertion where
  node : Node
  place : String
  deriving Inhabited

/-- An assertion about an application. -/
structure ApplyAssertion where
  function : Atom
  arguments : List Node
  place : String
  deriving Inhabited

/-- An assertion about the items of a vector, a set or a sequence. -/
structure ItemsAssertion where
  items : List Node
  place : String
  deriving Inhabited

/-- An assertion about a whole tree. -/
def assertNode (node : Node) : NodeAssertion :=
  ⟨node, "root"⟩

namespace NodeAssertion

variable (assertion : NodeAssertion)

/-- Fails at the node of an assertion. -/
def fail {α : Type} (found : Mismatch) : Except AssertionFailure α :=
  .error (.mismatch assertion.place found)

/-- The node is an atom with the given lexeme. -/
def atom (lexeme : String) : Except AssertionFailure NodeAssertion :=
  match assertion.node with
  | .atom leaf =>
    if leaf.lexeme = lexeme then .ok assertion else assertion.fail (.lexeme leaf.lexeme lexeme)
  | node => assertion.fail (.kind ("Atom `" ++ lexeme ++ "`") node)

/-- The node is the empty statement. -/
def empty : Except AssertionFailure NodeAssertion :=
  match assertion.node with
  | .empty => .ok assertion
  | node => assertion.fail (.kind "Empty" node)

/-- The node has the given structural form. -/
def displaysAs (form : String) : Except AssertionFailure NodeAssertion :=
  if assertion.node.display = form then .ok assertion
  else assertion.fail (.display assertion.node.display form)

/-- The node applies the given function to the given number of arguments. -/
def apply (function : String) (arity : Nat) : Except AssertionFailure ApplyAssertion :=
  match assertion.node with
  | .apply found arguments =>
    if found.lexeme ≠ function then assertion.fail (.function found.lexeme function)
    else if arguments.length ≠ arity then
      assertion.fail (.arity arguments.length arity assertion.node)
    else .ok ⟨found, arguments, assertion.place⟩
  | node => assertion.fail (.kind ("Apply `" ++ function ++ "`") node)

/-- The node is a vector. -/
def vector : Except AssertionFailure ItemsAssertion :=
  match assertion.node with
  | .vector elements => .ok ⟨elements, assertion.place ++ ".vector"⟩
  | node => assertion.fail (.kind "Vector" node)

/-- The node is a set. -/
def set : Except AssertionFailure ItemsAssertion :=
  match assertion.node with
  | .set elements => .ok ⟨elements, assertion.place ++ ".set"⟩
  | node => assertion.fail (.kind "Set" node)

/-- The node is a sequence. -/
def sequence : Except AssertionFailure ItemsAssertion :=
  match assertion.node with
  | .sequence statements => .ok ⟨statements, assertion.place ++ ".sequence"⟩
  | node => assertion.fail (.kind "Sequence" node)

/-- The node is a relation with the given operator whose sides pass a check. -/
def relation (operator : String)
    (check : NodeAssertion → NodeAssertion → Except AssertionFailure Unit) :
    Except AssertionFailure NodeAssertion :=
  match assertion.node with
  | .relation left found right => do
    if found.lexeme ≠ operator then assertion.fail (.operator found.lexeme operator)
    else
      check ⟨left, assertion.place ++ ".left"⟩ ⟨right, assertion.place ++ ".right"⟩
      return assertion
  | node => assertion.fail (.kind ("Relation `" ++ operator ++ "`") node)

end NodeAssertion

/-! ### Parts -/

/-- The function of the application is a call target, or is not. -/
def ApplyAssertion.callTarget (assertion : ApplyAssertion) (wanted : Bool) :
    Except AssertionFailure ApplyAssertion :=
  if assertion.function.isCallTarget = wanted then .ok assertion
  else .error (.mismatch assertion.place (.callTarget assertion.function.isCallTarget wanted))

/-- The argument at an index passes a check. -/
def ApplyAssertion.argument (assertion : ApplyAssertion) (index : Nat)
    (check : NodeAssertion → Except AssertionFailure Unit) :
    Except AssertionFailure ApplyAssertion := do
  match assertion.arguments[index]? with
  | some node =>
    check ⟨node, assertion.place ++ ".args[" ++ toString index ++ "]"⟩
    return assertion
  | none => throw (.mismatch assertion.place (.noArgument index assertion.arguments.length))

/-- There is the given number of items. -/
def ItemsAssertion.size (assertion : ItemsAssertion) (count : Nat) :
    Except AssertionFailure ItemsAssertion :=
  if assertion.items.length = count then .ok assertion
  else .error (.mismatch assertion.place (.size assertion.items.length count))

/-- The item at an index passes a check. -/
def ItemsAssertion.item (assertion : ItemsAssertion) (index : Nat)
    (check : NodeAssertion → Except AssertionFailure Unit) :
    Except AssertionFailure ItemsAssertion := do
  match assertion.items[index]? with
  | some node =>
    check ⟨node, assertion.place ++ "[" ++ toString index ++ "]"⟩
    return assertion
  | none => throw (.mismatch assertion.place (.noItem index assertion.items.length))

end Formula
