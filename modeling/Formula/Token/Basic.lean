import Formula.Text.Quoted
import Formula.Text.Span
import Formula.Token.Operator

/-!
Tokens: classified lexemes that know where they start in their source.
-/

set_option autoImplicit false
set_option relaxedAutoImplicit false

namespace Formula

/-- What a token is. The scanner never yields `invalid`, which stands for a character outside the
language in tokens that are built by hand. -/
inductive TokenKind where
  | identifier
  | number
  | operator (symbol : Token.Operator)
  | newLine
  | endOfInput
  | invalid
  deriving DecidableEq, Repr, Inhabited

namespace TokenKind

/-- The operator of a kind, if it is one. -/
def operator? : TokenKind → Option Token.Operator
  | .operator symbol => some symbol
  | _ => none

/-- The name under which a kind is listed. -/
def name : TokenKind → String
  | identifier => "identifier"
  | number => "number"
  | .operator symbol => symbol.name
  | newLine => "new_line"
  | endOfInput => "eof"
  | invalid => "invalid"

/-- The words for a kind in a sentence. -/
def describe : TokenKind → String
  | .operator symbol => "'" ++ symbol.lexeme ++ "'"
  | endOfInput => "end of input"
  | newLine => "newline"
  | kind => kind.name

/-- Whether a kind is an operator or a punctuation mark. -/
def isOperator (kind : TokenKind) : Bool :=
  kind.operator?.isSome

/-- Whether a kind is an operator that compares two sides. -/
def isRelational (kind : TokenKind) : Bool :=
  kind.operator?.any Token.Operator.isRelational

/-- Whether a kind is an operator that brackets or separates. -/
def isPunctuation (kind : TokenKind) : Bool :=
  kind.operator?.any Token.Operator.isPunctuation

/-- Whether a kind stands for an operand on its own or for the name of a called function. -/
def isOperand : TokenKind → Bool
  | identifier | number => true
  | _ => false

end TokenKind

/-- A lexeme, its kind and the byte offset of its first character. -/
structure Token where
  kind : TokenKind
  lexeme : String
  position : Nat
  deriving DecidableEq, Repr, Inhabited

namespace Token

/-! ### Building tokens -/

/-- The token without text that closes every source. -/
def endOfInput (position : Nat) : Token :=
  ⟨.endOfInput, "", position⟩

/-- A name. -/
def identifier (name : String) (position : Nat) : Token :=
  ⟨.identifier, name, position⟩

/-- A number, kept as its digits. -/
def number (digits : String) (position : Nat) : Token :=
  ⟨.number, digits, position⟩

/-- An operator with its own lexeme. -/
def ofOperator (operator : Operator) (position : Nat) : Token :=
  ⟨.operator operator, operator.lexeme, position⟩

/-! ### Questions -/

/-- Whether a token is a given operator. -/
def is (token : Token) (operator : Operator) : Bool :=
  token.kind == .operator operator

/-- Whether a token is one of several operators. -/
def isOneOf (token : Token) (operators : List Operator) : Bool :=
  operators.any token.is

/-- Whether a token ends a line. -/
def isNewLine (token : Token) : Bool :=
  token.kind == .newLine

/-- Whether a token closes its source. -/
def isEndOfInput (token : Token) : Bool :=
  token.kind == .endOfInput

/-- The bytes of the source that a token stands on. -/
def span (token : Token) : Text.Span :=
  ⟨token.position, token.position + token.lexeme.utf8ByteSize⟩

/-- A token as it is listed: the name of its kind and its quoted lexeme. -/
def display (token : Token) : String :=
  "Token(" ++ token.kind.name ++ ", " ++ Text.quoted token.lexeme ++ ")"

end Token

end Formula
