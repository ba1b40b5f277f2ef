import Formula.Token.Basic

/-!
Scanning a source into a stream of tokens. A gap of blanks and comments is passed over, then the
longest lexeme at that place becomes the next token; the token that closes the source comes last.
The stream ends early at the first character that starts no lexeme.
-/

set_option autoImplicit false
set_option relaxedAutoImplicit false

namespace Formula

/-! ### Lexical errors -/

/-- A character that starts no lexeme, and its byte offset. -/
structure LexError where
  character : Char
  offset : Nat
  deriving DecidableEq, Repr, Inhabited

/-- The sentence that reports a lexical error. -/
def LexError.message (error : LexError) : String :=
  "invalid character " ++ Text.quotedChar error.character ++ " at offset " ++ toString error.offset

/-- The bytes of the offending character. -/
def LexError.span (error : LexError) : Text.Span :=
  ⟨error.offset, error.offset + error.character.utf8Size⟩

namespace Token

/-! ### Character classes -/

/-- Whether a character is a blank inside a line. -/
def isBlank (character : Char) : Bool :=
  character == ' ' || character == '\t'

/-- Whether a character ends a line. A carriage return with a line feed ends two lines. -/
def isLineEnd (character : Char) : Bool :=
  character == '\r' || character == '\n'

/-- Whether a character can start a name: an ASCII letter or an underscore. -/
def startsName (character : Char) : Bool :=
  character.isAlpha || character == '_'

/-- Whether a character can continue a name. -/
def continuesName (character : Char) : Bool :=
  character.isAlphanum || character == '_'

/-! ### Lexemes -/

/-- The rest of a number after its first digit: more digits and, after a point, any number of
digits again. -/
def numberRest (text : List Char) : List Char :=
  text.takeWhile Char.isDigit ++
    match text.dropWhile Char.isDigit with
    | '.' :: fraction => '.' :: fraction.takeWhile Char.isDigit
    | _ => []

/-- The longest operator at the start of a text. -/
def operatorAt? (text : List Char) : Option Operator :=
  Operator.all.find? fun operator ↦ operator.lexeme.toList.isPrefixOf text

/-- The longest lexeme at the start of a text, and its kind. -/
def lexemeAt? : List Char → Option (TokenKind × List Char)
  | [] => none
  | first :: rest =>
    if startsName first then some (.identifier, first :: rest.takeWhile continuesName)
    else if first.isDigit then some (.number, first :: numberRest rest)
    else if isLineEnd first then some (.newLine, [first])
    else (operatorAt? (first :: rest)).map fun operator ↦
      (.operator operator, operator.lexeme.toList)

/-- The length in characters of a comment after its `#`: it runs up to the end of the line. -/
def commentLength (text : List Char) : Nat :=
  (text.takeWhile fun character ↦ !isLineEnd character).length

end Token

/-! ### Streams -/

/-- The tokens of a source that are still to be read. -/
inductive TokenStream where
  /-- The next token, and what follows it. -/
  | token (first : Token) (following : TokenStream)
  /-- Only the token that closes the source is left; the source has this many bytes. -/
  | finish (size : Nat)
  /-- Nothing is left to read but a lexical error. -/
  | invalid (error : LexError)
  /-- Everything has been read. -/
  | exhausted
  deriving Repr, Inhabited

namespace TokenStream

/-- Scans a text whose first character stands at a byte offset, after passing over a number of
characters that belong to a lexeme or a comment already read. -/
def scan : (passing offset : Nat) → List Char → TokenStream
  | _, offset, [] => .finish offset
  | passing + 1, offset, character :: rest => scan passing (offset + character.utf8Size) rest
  | 0, offset, character :: rest =>
    if Token.isBlank character then scan 0 (offset + character.utf8Size) rest
    else if character = '#' then
      scan (Token.commentLength rest) (offset + character.utf8Size) rest
    else
      match Token.lexemeAt? (character :: rest) with
      | some (kind, lexeme) =>
        .token ⟨kind, String.ofList lexeme, offset⟩
          (scan (lexeme.length - 1) (offset + character.utf8Size) rest)
      | none => .invalid ⟨character, offset⟩

/-- The stream of a whole source. -/
def ofSource (source : String) : TokenStream :=
  scan 0 0 source.toList

/-- Reads one item: a token, a lexical error, or nothing. After the closing token and after an
error nothing is left. -/
def next : TokenStream → Option (Except LexError Token) × TokenStream
  | .token first following => (some (.ok first), following)
  | .finish size => (some (.ok (.endOfInput size)), .exhausted)
  | .invalid error => (some (.error error), .exhausted)
  | .exhausted => (none, .exhausted)

/-- The number of items that are left to read. -/
def size : TokenStream → Nat
  | .token _ following => following.size + 1
  | .finish _ => 1
  | .invalid _ => 1
  | .exhausted => 0

/-- All tokens that are left, or the first lexical error. -/
def toTokens : TokenStream → Except LexError (List Token)
  | .token first following => following.toTokens.map (first :: ·)
  | .finish size => .ok [.endOfInput size]
  | .invalid error => .error error
  | .exhausted => .ok []

end TokenStream

/-- The tokens of a source, which end in the one that closes it. -/
def tokenize (source : String) : Except LexError (List Token) :=
  (TokenStream.ofSource source).toTokens

end Formula
