import Formula.Parser.Error

/-!
Diagnostics: a syntax error together with the named source that it points into. The message says
what is wrong at the span, and the help, where there is some, says how to mend it.
-/

set_option autoImplicit false
set_option relaxedAutoImplicit false

namespace Formula

namespace LexError

/-- What is wrong at the span of a lexical error. -/
def diagnosis (error : LexError) : String :=
  "invalid character " ++ Text.quotedChar error.character

/-- The characters of which formulas are made. -/
def help : String :=
  "expressions use identifiers, numbers, `# comments` and the operators " ++
    "** <= >= != + - * / = < > ( ) [ ] \x7b \x7d ,"

end LexError

namespace ParseError

/-- What is wrong at the span of a parse error. -/
def diagnosis (error : ParseError) : String :=
  match error.expected with
  | .nestingDepth limit => "nested deeper than " ++ toString limit ++ " levels"
  | expected => "expected " ++ expected.describe ++ ", found " ++ error.token.kind.describe

/-- How to mend a parse error. -/
def help? (error : ParseError) : Option String :=
  match error.expected with
  | .delimiter operator =>
    some ("the " ++ error.rule.name ++ " is not closed with '" ++ operator.lexeme ++ "'")
  | .relationalOperator => some "every statement compares two expressions, e.g. `y = x + 1`"
  | .operand => none
  | .nestingDepth _ => some "bind inner parts to names in separate statements"

end ParseError

namespace SyntaxError

/-- What is wrong at the span of an error. -/
def diagnosis : SyntaxError → String
  | lexical error => error.diagnosis
  | grammatical error => error.diagnosis

/-- How to mend an error. -/
def help? : SyntaxError → Option String
  | lexical _ => some LexError.help
  | grammatical error => error.help?

end SyntaxError

/-- A syntax error in a named source. -/
structure Diagnostic where
  error : SyntaxError
  name : String
  source : String
  deriving Repr, Inhabited

namespace Diagnostic

/-- The name of a source that has none. -/
def anonymous : String := "<input>"

/-- The language of every source. -/
def language : String := "mathexpr"

/-- Puts an error and its source together. -/
def ofError (error : SyntaxError) (name? : Option String) (source : String) : Diagnostic :=
  ⟨error, name?.getD anonymous, source⟩

/-- The sentence that stands at the head of a diagnostic. -/
def message (diagnostic : Diagnostic) : String :=
  diagnostic.error.diagnosis

/-- The bytes of the source that a diagnostic points at. -/
def span (diagnostic : Diagnostic) : Text.Span :=
  diagnostic.error.span

/-- The texts that are attached to places of the source: the message, at the span. -/
def labels (diagnostic : Diagnostic) : List (Text.Span × String) :=
  [(diagnostic.span, diagnostic.message)]

end Diagnostic

end Formula
