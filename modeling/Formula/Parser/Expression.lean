import Formula.Parser.State
import Formula.Tree.Basic

/-!
The grammar of expressions, from the loosest rule to the tightest:

    expression := '{' items '}' | '[' items ']' | sum
    items      := expression (',' expression)*
    sum        := product (('+' | '-') product)*
    product    := unary (('*' | '/') unary)*
    unary      := ('+' | '-') unary | power
    power      := primary ('**' unary)?
    primary    := '(' sum ')' | operand ('(' items? ')')?

Sums and products lean to the left; powers lean to the right and bind tighter than a sign before
them. An expression and a unary each open a nesting level, so the rules recurse on the number of
levels that may still be opened. A chain of operators opens none, however long it is.
-/

set_option autoImplicit false
set_option relaxedAutoImplicit false

namespace Formula.Parse

/-! ### Operators -/

/-- Applies operators to what has been read so far and the operand after them, from left to right,
as long as one of the operators comes next and at most the given number of times. -/
def chainFrom (operators : List Token.Operator) (operand : Parse Node) : Nat → Node → Parse Node
  | 0, left => return left
  | count + 1, left => do
    if (← lookahead).isOneOf operators then
      let operator ← forward
      let right ← operand
      chainFrom operators operand count (.apply (.callTarget operator) [left, right])
    else
      return left

/-- Operands joined by operators that lean to the left. -/
def chain (operators : List Token.Operator) (operand : Parse Node) : Parse Node := do
  let first ← operand
  chainFrom operators operand (← remaining) first

/-- A product of unaries. -/
def product (unary : Parse Node) : Parse Node :=
  chain [.multiply, .divide] unary

/-- A sum of products. -/
def sum (unary : Parse Node) : Parse Node :=
  chain [.plus, .minus] (product unary)

/-! ### Operands -/

/-- One or more expressions with commas between them. -/
def items (expression : Parse Node) : Parse (List Node) :=
  separated .comma expression

/-- A name or a number; directly before an opening parenthesis it is a called function. -/
def call (expression : Parse Node) : Parse Node := do
  if (← lookahead).kind.isOperand then
    let operand ← forward
    if (← lookahead).is .leftParen then
      let _ ← forward
      let arguments ← if (← lookahead).is .rightParen then pure [] else items expression
      expect .rightParen .call
      return .apply (.callTarget operand) arguments
    else
      return .atom (.value operand)
  else
    fail .expression .operand

/-- A sum between parentheses, which leave no trace in the tree, or an operand. -/
def primary (expression unary : Parse Node) : Parse Node := do
  if (← lookahead).is .leftParen then
    let _ ← forward
    let inner ← sum unary
    expect .rightParen .expression
    return inner
  else
    call expression

/-- A primary, raised to a unary if `**` follows. -/
def power (expression unary : Parse Node) : Parse Node := do
  let base ← primary expression unary
  if (← lookahead).is .power then
    let operator ← forward
    let exponent ← unary
    return .apply (.callTarget operator) [base, exponent]
  else
    return base

/-- Elements between curly brackets. -/
def setLiteral (expression : Parse Node) : Parse Node := do
  expect .leftCurly .set
  let elements ← items expression
  expect .rightCurly .set
  return .set elements

/-- Elements between square brackets. -/
def vectorLiteral (expression : Parse Node) : Parse Node := do
  expect .leftSquare .vector
  let elements ← items expression
  expect .rightSquare .vector
  return .vector elements

/-! ### Nesting -/

mutual

/-- An expression that may open the given number of nesting levels, of a total limit. -/
def expression (limit : Nat) : Nat → Parse Node
  | 0 => tooDeep limit
  | levels + 1 => do
    let next ← lookahead
    if next.is .leftCurly then
      setLiteral (expression limit levels)
    else if next.is .leftSquare then
      vectorLiteral (expression limit levels)
    else
      sum (unary limit levels)

/-- A signed or a raised operand that may open the given number of nesting levels. -/
def unary (limit : Nat) : Nat → Parse Node
  | 0 => tooDeep limit
  | levels + 1 => do
    if (← lookahead).isOneOf [.plus, .minus] then
      let sign ← forward
      let operand ← unary limit levels
      return .apply (.callTarget sign) [operand]
    else
      power (expression limit levels) (unary limit levels)

end

end Formula.Parse
