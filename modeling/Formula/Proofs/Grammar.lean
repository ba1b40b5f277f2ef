import Formula.Tree.Basic

/-!
# The grammar of formulas

What a run of tokens means, said without a parser: `Derives` is the grammar of expressions as a
relation between tokens and trees, `DerivesStatement` and `DerivesProgram` are the grammar of
statements and programs on top of it.

    program    := statement*
    statement  := relation newline* | newline+
    relation   := expression ('=' | '<=' | '>=' | '!=' | '<' | '>') expression
    expression := '{' items '}' | '[' items ']' | sum
    items      := expression (',' expression)*
    sum        := product (('+' | '-') product)*
    product    := unary (('*' | '/') unary)*
    unary      := ('+' | '-') unary | power
    power      := primary ('**' unary)?
    primary    := call | '(' sum ')'
    call       := operand ('(' items? ')')?

A derivation also lists the weights of its paths. A path leads from the phrase down to an operand
or to a call without arguments; each container, parenthesised group, sign and exponent on the way
adds one to its weight, and each list of arguments adds two.
-/

set_option autoImplicit false
set_option relaxedAutoImplicit false

namespace Formula.Grammar

/-! ### Expressions -/

/-- A rule of the grammar together with what it yields: items yield several trees, every other
rule yields one. -/
inductive Phrase where
  | relation (node : Node)
  | expression (node : Node)
  | items (nodes : List Node)
  | sum (node : Node)
  | product (node : Node)
  | unary (node : Node)
  | power (node : Node)
  | primary (node : Node)
  | call (node : Node)

/-- `Derives weights tokens phrase` says that exactly these tokens make up the phrase, along paths
of these weights in source order. -/
inductive Derives : List Nat → List Token → Phrase → Prop
  | relation {leftWeights rightWeights : List Nat} {leftTokens rightTokens : List Token}
      {left right : Node} {operator : Token} :
      Derives leftWeights leftTokens (.expression left) →
      operator.kind.isRelational →
      Derives rightWeights rightTokens (.expression right) →
      Derives (leftWeights ++ rightWeights) (leftTokens ++ operator :: rightTokens)
        (.relation (.relation left (.callTarget operator) right))
  | set {weights : List Nat} {tokens : List Token} {elements : List Node}
      {opening closing : Token} :
      opening.is .leftCurly →
      Derives weights tokens (.items elements) →
      closing.is .rightCurly →
      Derives (weights.map (· + 1)) (opening :: (tokens ++ [closing])) (.expression (.set elements))
  | vector {weights : List Nat} {tokens : List Token} {elements : List Node}
      {opening closing : Token} :
      opening.is .leftSquare →
      Derives weights tokens (.items elements) →
      closing.is .rightSquare →
      Derives (weights.map (· + 1)) (opening :: (tokens ++ [closing]))
        (.expression (.vector elements))
  | expression {weights : List Nat} {tokens : List Token} {node : Node} :
      Derives weights tokens (.sum node) →
      Derives weights tokens (.expression node)
  | item {weights : List Nat} {tokens : List Token} {node : Node} :
      Derives weights tokens (.expression node) →
      Derives weights tokens (.items [node])
  | nextItem {firstWeights restWeights : List Nat} {firstTokens restTokens : List Token}
      {first : Node} {rest : List Node} {comma : Token} :
      Derives firstWeights firstTokens (.expression first) →
      comma.is .comma →
      Derives restWeights restTokens (.items rest) →
      Derives (firstWeights ++ restWeights) (firstTokens ++ comma :: restTokens)
        (.items (first :: rest))
  | sum {weights : List Nat} {tokens : List Token} {node : Node} :
      Derives weights tokens (.product node) →
      Derives weights tokens (.sum node)
  | addition {leftWeights rightWeights : List Nat} {leftTokens rightTokens : List Token}
      {left right : Node} {operator : Token} :
      Derives leftWeights leftTokens (.sum left) →
      operator.isOneOf [.plus, .minus] →
      Derives rightWeights rightTokens (.product right) →
      Derives (leftWeights ++ rightWeights) (leftTokens ++ operator :: rightTokens)
        (.sum (.apply (.callTarget operator) [left, right]))
  | product {weights : List Nat} {tokens : List Token} {node : Node} :
      Derives weights tokens (.unary node) →
      Derives weights tokens (.product node)
  | multiplication {leftWeights rightWeights : List Nat} {leftTokens rightTokens : List Token}
      {left right : Node} {operator : Token} :
      Derives leftWeights leftTokens (.product left) →
      operator.isOneOf [.multiply, .divide] →
      Derives rightWeights rightTokens (.unary right) →
      Derives (leftWeights ++ rightWeights) (leftTokens ++ operator :: rightTokens)
        (.product (.apply (.callTarget operator) [left, right]))
  | sign {weights : List Nat} {tokens : List Token} {operand : Node} {sign : Token} :
      sign.isOneOf [.plus, .minus] →
      Derives weights tokens (.unary operand) →
      Derives (weights.map (· + 1)) (sign :: tokens)
        (.unary (.apply (.callTarget sign) [operand]))
  | unary {weights : List Nat} {tokens : List Token} {node : Node} :
      Derives weights tokens (.power node) →
      Derives weights tokens (.unary node)
  | power {weights : List Nat} {tokens : List Token} {node : Node} :
      Derives weights tokens (.primary node) →
      Derives weights tokens (.power node)
  | raised {baseWeights exponentWeights : List Nat} {baseTokens exponentTokens : List Token}
      {base exponent : Node} {operator : Token} :
      Derives baseWeights baseTokens (.primary base) →
      operator.is .power →
      Derives exponentWeights exponentTokens (.unary exponent) →
      Derives (baseWeights ++ exponentWeights.map (· + 1))
        (baseTokens ++ operator :: exponentTokens)
        (.power (.apply (.callTarget operator) [base, exponent]))
  | group {weights : List Nat} {tokens : List Token} {node : Node} {opening closing : Token} :
      opening.is .leftParen →
      Derives weights tokens (.sum node) →
      closing.is .rightParen →
      Derives (weights.map (· + 1)) (opening :: (tokens ++ [closing])) (.primary node)
  | primary {weights : List Nat} {tokens : List Token} {node : Node} :
      Derives weights tokens (.call node) →
      Derives weights tokens (.primary node)
  | operand {operand : Token} :
      operand.kind.isOperand →
      Derives [0] [operand] (.call (.atom (.value operand)))
  | emptyCall {function opening closing : Token} :
      function.kind.isOperand →
      opening.is .leftParen →
      closing.is .rightParen →
      Derives [0] [function, opening, closing] (.call (.apply (.callTarget function) []))
  | call {weights : List Nat} {tokens : List Token} {arguments : List Node}
      {function opening closing : Token} :
      function.kind.isOperand →
      opening.is .leftParen →
      Derives weights tokens (.items arguments) →
      closing.is .rightParen →
      Derives (weights.map (· + 2)) (function :: opening :: (tokens ++ [closing]))
        (.call (.apply (.callTarget function) arguments))

theorem derives_product_operand {operand : Token} (h : operand.kind.isOperand) :
    Derives [0] [operand] (.product (.atom (.value operand))) :=
  .product (.unary (.power (.primary (.operand h))))

theorem derives_operand {operand : Token} (h : operand.kind.isOperand) :
    Derives [0] [operand] (.expression (.atom (.value operand))) :=
  .expression (.sum (derives_product_operand h))

/-! ### Programs -/

/-- A statement is a relation with the line ends after it, or a run of line ends. -/
inductive DerivesStatement : List Nat → List Token → Node → Prop
  | relation {weights : List Nat} {tokens lines : List Token} {node : Node} :
      Derives weights tokens (.relation node) →
      (∀ line ∈ lines, line.isNewLine) →
      DerivesStatement weights (tokens ++ lines) node
  | empty {lines : List Token} :
      lines ≠ [] →
      (∀ line ∈ lines, line.isNewLine) →
      DerivesStatement [] lines .empty

/-- A statement of a program: the tokens it is made of and the tree they yield. -/
structure Statement where
  weights : List Nat
  tokens : List Token
  node : Node
  derives : DerivesStatement weights tokens node

/-- The tokens of a list of statements. -/
def tokensOf (statements : List Statement) : List Token :=
  statements.flatMap Statement.tokens

/-- The weights of the paths of a list of statements. -/
def weightsOf (statements : List Statement) : List Nat :=
  statements.flatMap Statement.weights

theorem tokensOf_cons (first : Statement) (others : List Statement) :
    tokensOf (first :: others) = first.tokens ++ tokensOf others :=
  List.flatMap_cons

theorem weightsOf_cons (first : Statement) (others : List Statement) :
    weightsOf (first :: others) = first.weights ++ weightsOf others :=
  List.flatMap_cons

theorem tokensOf_append (first second : List Statement) :
    tokensOf (first ++ second) = tokensOf first ++ tokensOf second :=
  List.flatMap_append

theorem weightsOf_append (first second : List Statement) :
    weightsOf (first ++ second) = weightsOf first ++ weightsOf second :=
  List.flatMap_append

/-- The tree of a program from the trees of its statements. -/
def treeOf : List Node → Node
  | [] => .empty
  | [only] => only
  | nodes => .sequence nodes

/-- A program is a list of statements. Without statements its tree is empty, with one it is the
tree of the statement, and with several it is their sequence. -/
def DerivesProgram (tokens : List Token) (node : Node) : Prop :=
  ∃ statements : List Statement,
    tokens = tokensOf statements ∧ node = treeOf (statements.map Statement.node)

/-! ### Line ends between statements -/

/-- Whether a line end stands where the second statement follows the first one. -/
def Statement.Separated (first second : Statement) : Prop :=
  (∃ last ∈ first.tokens.getLast?, last.isNewLine) ∨ ∃ next ∈ second.tokens.head?, next.isNewLine

/-- Whether a statement is a run of line ends. -/
def Statement.isBlank (statement : Statement) : Bool :=
  match statement.node with
  | .empty => true
  | _ => false

/-- The trees of a list of statements in which every run of line ends is taken as a whole: line
ends that follow a statement belong to it. -/
def nodesOf : List Statement → List Node
  | [] => []
  | first :: others => first.node :: (others.filter (!·.isBlank)).map Statement.node

end Formula.Grammar
