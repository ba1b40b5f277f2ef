import Formula.Parser.Expression

/-!
The grammar of programs. A statement is a relation with the line ends after it, or a run of blank
lines; line ends separate statements but need not stand between them.

    program   := statement*
    statement := relation newline* | newline+
    relation  := expression ('=' | '<=' | '>=' | '!=' | '<' | '>') expression
-/

set_option autoImplicit false
set_option relaxedAutoImplicit false

namespace Formula

namespace Parse

/-- Two expressions joined by a comparison. -/
def relation (limit : Nat) : Parse Node := do
  let left ← expression limit limit
  if (← lookahead).kind.isRelational then
    let operator ← forward
    let right ← expression limit limit
    return .relation left (.callTarget operator) right
  else
    fail .relation .relationalOperator

/-- A relation, or the empty statement for a run of blank lines. -/
def statement (limit : Nat) : Parse Node := do
  if (← lookahead).isNewLine then
    skipNewLines
    return .empty
  else
    let node ← relation limit
    skipNewLines
    return node

/-- The tree of a program: nothing is the empty statement, and only two or more statements make a
sequence. -/
def ofStatements : List Node → Node
  | [] => .empty
  | [only] => only
  | statements => .sequence statements

/-- All statements of a source. -/
def program (limit : Nat) : Parse Node := do
  return ofStatements (← untilEnd (statement limit))

end Parse

/-- The number of nesting levels that a formula may open. -/
def maxNesting : Nat := 256

/-- The tree of a source that opens at most the given number of nesting levels. -/
def parseWithin (limit : Nat) (source : String) : Except SyntaxError Node := do
  let state ← Parse.start source
  let (node, _) ← (Parse.program limit).run state
  return node

/-- The tree of a source. -/
def parse (source : String) : Except SyntaxError Node :=
  parseWithin maxNesting source

end Formula
