import Formula.Parser.Error

/-!
The state of a parser, which looks one token ahead, and the steps from which the rules of the
grammar are put together: looking at the next token, moving past it, asking for a delimiter, and
repeating a rule.
-/

set_option autoImplicit false
set_option relaxedAutoImplicit false

namespace Formula

/-- The next token, the tokens after it, and the number of bytes of the whole source. -/
structure ParserState where
  current : Token
  upcoming : TokenStream
  sourceSize : Nat
  deriving Repr, Inhabited

/-- A part of a parser: it reads tokens and gives a result, or the first error. -/
abbrev Parse (α : Type) := StateT ParserState (Except SyntaxError) α

namespace Parse

/-- Takes the next token from a stream. Past its end a stream of a source of the given size keeps
answering the token that closes it. -/
def pull (sourceSize : Nat) (stream : TokenStream) : Except SyntaxError (Token × TokenStream) :=
  match stream.next with
  | (some (.ok token), following) => .ok (token, following)
  | (some (.error error), _) => .error (.lexical error)
  | (none, following) => .ok (.endOfInput sourceSize, following)

/-- The state in front of the first token of a source. -/
def start (source : String) : Except SyntaxError ParserState := do
  let sourceSize := source.utf8ByteSize
  let (current, upcoming) ← pull sourceSize (.ofSource source)
  return { current, upcoming, sourceSize }

/-! ### Single tokens -/

/-- The next token, which stays in place. -/
def lookahead : Parse Token := do
  return (← get).current

/-- Moves past the next token and gives it. A lexical error behind it stops the parser. -/
def forward : Parse Token := do
  let state ← get
  let (next, following) ← pull state.sourceSize state.upcoming
  set { state with current := next, upcoming := following }
  return state.current

/-- Stops at the next token because something else would have been accepted. -/
def fail {α : Type} (rule : Rule) (expected : Expected) : Parse α := do
  throw (.grammatical (.unexpected rule expected (← lookahead)))

/-- Stops at the next token because it would open one level more than the limit. -/
def tooDeep {α : Type} (limit : Nat) : Parse α := do
  throw (.grammatical (.nestingTooDeep .expression limit (← lookahead)))

/-- Moves past the delimiter that has to come next. -/
def expect (delimiter : Token.Operator) (rule : Rule) : Parse Unit := do
  if (← lookahead).is delimiter then
    let _ ← forward
  else
    fail rule (.delimiter delimiter)

/-- An upper bound of the number of tokens that can be moved past. -/
def remaining : Parse Nat := do
  return (← get).upcoming.size

/-! ### Repetition -/

/-- Reads an element after every separator, as long as one comes next and at most the given number
of times. -/
def separatedFrom {α : Type} (separator : Token.Operator) (element : Parse α) :
    Nat → Parse (List α)
  | 0 => return []
  | count + 1 => do
    if (← lookahead).is separator then
      let _ ← forward
      let next ← element
      let others ← separatedFrom separator element count
      return next :: others
    else
      return []

/-- Reads one or more elements with a separator between neighbours. -/
def separated {α : Type} (separator : Token.Operator) (element : Parse α) : Parse (List α) := do
  let first ← element
  let others ← separatedFrom separator element (← remaining)
  return first :: others

/-- Reads elements until the source ends, at most the given number of them. -/
def untilEndFrom {α : Type} (element : Parse α) : Nat → Parse (List α)
  | 0 => return []
  | count + 1 => do
    if (← lookahead).isEndOfInput then
      return []
    else
      let next ← element
      let others ← untilEndFrom element count
      return next :: others

/-- Reads elements until the source ends. -/
def untilEnd {α : Type} (element : Parse α) : Parse (List α) := do
  untilEndFrom element (← remaining)

/-- Moves past line ends, at most the given number of them. -/
def skipNewLinesFrom : Nat → Parse Unit
  | 0 => return
  | count + 1 => do
    if (← lookahead).isNewLine then
      let _ ← forward
      skipNewLinesFrom count

/-- Moves past all line ends that come next. -/
def skipNewLines : Parse Unit := do
  skipNewLinesFrom (← remaining)

end Parse

end Formula
