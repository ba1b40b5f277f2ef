import Formula.Token.Stream

/-!
The reasons for which a source is no formula. A parse error names the token that cannot stand where
it was found, the rule that was being read and what would have been accepted instead.
-/

set_option autoImplicit false
set_option relaxedAutoImplicit false

namespace Formula

/-- The class of a parse error. -/
inductive ErrorCode where
  | unexpectedToken
  | nestingTooDeep
  deriving DecidableEq, Repr, Inhabited

/-- The title of a class of parse errors. -/
def ErrorCode.title : ErrorCode → String
  | unexpectedToken => "Unexpected token"
  | nestingTooDeep => "Nesting too deep"

/-- The rule of the grammar that was being read. -/
inductive Rule where
  | relation
  | set
  | vector
  | expression
  | call
  deriving DecidableEq, Repr, Inhabited

/-- The name of a rule in a sentence. -/
def Rule.name : Rule → String
  | relation => "relation"
  | set => "set"
  | vector => "vector"
  | expression => "expression"
  | call => "call"

/-- What would have been accepted. -/
inductive Expected where
  | relationalOperator
  | operand
  | delimiter (operator : Token.Operator)
  /-- No more than this many levels of groups, signs and exponents. -/
  | nestingDepth (limit : Nat)
  deriving DecidableEq, Repr, Inhabited

/-- The words for what would have been accepted. -/
def Expected.describe : Expected → String
  | relationalOperator => "a relational operator"
  | operand => "an identifier, a number or '('"
  | delimiter operator => "'" ++ operator.lexeme ++ "'"
  | nestingDepth limit => "at most " ++ toString limit ++ " nesting levels"

/-- A token that cannot stand where it was found. -/
structure ParseError where
  code : ErrorCode
  rule : Rule
  expected : Expected
  token : Token
  deriving DecidableEq, Repr, Inhabited

namespace ParseError

/-- Something else than the token would have been accepted. -/
def unexpected (rule : Rule) (expected : Expected) (token : Token) : ParseError :=
  ⟨.unexpectedToken, rule, expected, token⟩

/-- The token would open one nesting level too many. -/
def nestingTooDeep (rule : Rule) (limit : Nat) (token : Token) : ParseError :=
  ⟨.nestingTooDeep, rule, .nestingDepth limit, token⟩

/-- The sentence that reports a parse error. -/
def message (error : ParseError) : String :=
  error.code.title ++ " " ++ error.token.kind.describe ++ " at offset " ++
    toString error.token.position ++ ": expected " ++ error.expected.describe ++ " in " ++
    error.rule.name

end ParseError

/-- Anything that keeps a source from becoming a tree. -/
inductive SyntaxError where
  | lexical (error : LexError)
  | grammatical (error : ParseError)
  deriving DecidableEq, Repr, Inhabited

namespace SyntaxError

/-- The sentence that reports an error. -/
def message : SyntaxError → String
  | lexical error => "lex error: " ++ error.message
  | grammatical error => "parse error: " ++ error.message

/-- The bytes of the source that an error points at. -/
def span : SyntaxError → Text.Span
  | lexical error => error.span
  | grammatical error => error.token.span

/-- The byte offset at which an error is found. -/
def offset (error : SyntaxError) : Nat :=
  error.span.start

end SyntaxError

end Formula
