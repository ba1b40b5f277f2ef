/-!
The operators and the punctuation of formulas: a closed set of eighteen lexemes, each with a name.
-/

set_option autoImplicit false
set_option relaxedAutoImplicit false

namespace Formula.Token

/-- An operator or a punctuation mark. -/
inductive Operator where
  | power
  | lessEqual
  | greaterEqual
  | notEqual
  | plus
  | minus
  | multiply
  | divide
  | equal
  | lessThan
  | greaterThan
  | leftCurly
  | leftParen
  | leftSquare
  | rightCurly
  | rightParen
  | rightSquare
  | comma
  deriving DecidableEq, Repr, Inhabited

namespace Operator

/-- Every operator. Those with two characters come first, so the first operator of this list that
starts a text is also the longest one. -/
def all : List Operator :=
  [.power, .lessEqual, .greaterEqual, .notEqual, .plus, .minus, .multiply, .divide, .equal,
    .lessThan, .greaterThan, .leftCurly, .leftParen, .leftSquare, .rightCurly, .rightParen,
    .rightSquare, .comma]

/-- The text of an operator in a formula. -/
def lexeme : Operator → String
  | power => "**"
  | lessEqual => "<="
  | greaterEqual => ">="
  | notEqual => "!="
  | plus => "+"
  | minus => "-"
  | multiply => "*"
  | divide => "/"
  | equal => "="
  | lessThan => "<"
  | greaterThan => ">"
  | leftCurly => "\x7b"
  | leftParen => "("
  | leftSquare => "["
  | rightCurly => "\x7d"
  | rightParen => ")"
  | rightSquare => "]"
  | comma => ","

/-- The name of an operator, in lower case with underscores. -/
def name : Operator → String
  | power => "power"
  | lessEqual => "less_equal"
  | greaterEqual => "greater_equal"
  | notEqual => "not_equal"
  | plus => "plus"
  | minus => "minus"
  | multiply => "multiply"
  | divide => "divide"
  | equal => "equal"
  | lessThan => "less_than"
  | greaterThan => "greater_than"
  | leftCurly => "left_curly"
  | leftParen => "left_paren"
  | leftSquare => "left_square"
  | rightCurly => "right_curly"
  | rightParen => "right_paren"
  | rightSquare => "right_square"
  | comma => "comma"

/-- The operator with a given lexeme. -/
def ofLexeme? (lexeme : String) : Option Operator :=
  all.find? fun operator ↦ operator.lexeme == lexeme

/-- The operator with a given name. -/
def ofName? (name : String) : Option Operator :=
  all.find? fun operator ↦ operator.name == name

/-! ### Classes -/

/-- Whether an operator compares the two sides of a relation. -/
def isRelational : Operator → Bool
  | equal | lessEqual | greaterEqual | notEqual | lessThan | greaterThan => true
  | _ => false

/-- Whether an operator opens a bracketed group. -/
def opens : Operator → Bool
  | leftCurly | leftParen | leftSquare => true
  | _ => false

/-- Whether an operator closes a bracketed group. -/
def closes : Operator → Bool
  | rightCurly | rightParen | rightSquare => true
  | _ => false

/-- Whether an operator opens or closes a bracketed group or separates its items. -/
def isPunctuation (operator : Operator) : Bool :=
  operator.opens || operator.closes || operator == comma

theorem mem_all (operator : Operator) : operator ∈ all := by
  cases operator <;> decide

end Operator

end Formula.Token
