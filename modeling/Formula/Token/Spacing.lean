import Formula.Token.Basic

/-!
Writing tokens back as text. Comments and the spacing of the source are lost; one space stands
between two tokens, except where the usual spelling of formulas has none.
-/

set_option autoImplicit false
set_option relaxedAutoImplicit false

namespace Formula.Token

/-- Whether a token opens a bracketed group. -/
def opens (token : Token) : Bool :=
  token.kind.operator?.any Operator.opens

/-- Whether a token closes a bracketed group or separates its items. -/
def closesOrSeparates (token : Token) : Bool :=
  token.kind.operator?.any fun operator ↦ operator.closes || operator == .comma

/-- Whether a space stands between two neighbours: not at line ends, not between a function and
its arguments, not after an opening bracket, and not before a closing one or a comma. -/
def needsSpace (previous next : Token) : Bool :=
  if previous.isNewLine || next.isNewLine then false
  else if previous.kind.isOperand && next.is .leftParen then false
  else !(previous.opens || next.closesOrSeparates)

/-- The text of the tokens that follow a given one, up to the first that closes a source. -/
def spelledAfter (previous : Token) : List Token → String
  | [] => ""
  | token :: others =>
    if token.isEndOfInput then ""
    else (if needsSpace previous token then " " else "") ++ token.lexeme ++
      spelledAfter token others

/-- The text of a list of tokens, up to the first that closes a source. -/
def detokenize : List Token → String
  | [] => ""
  | token :: others => if token.isEndOfInput then "" else token.lexeme ++ spelledAfter token others

end Formula.Token
