import Formula.Text.Printable

/-!
Quoted text: the form in which messages show a text or a single character. The surrounding quote,
the backslash and the common controls have a short escape, hidden characters are written by their
code point, and everything else stands for itself.
-/

set_option autoImplicit false
set_option relaxedAutoImplicit false

namespace Formula.Text

/-- The quote around a text is double, the quote around a single character is single. -/
inductive Quote where
  | single
  | double
  deriving DecidableEq, Repr, Inhabited

/-- The mark that a quote writes on both sides. -/
def Quote.mark : Quote → Char
  | .single => '\''
  | .double => '"'

/-- The digits of a number in base sixteen, in lower case and without leading zeros. -/
def hexDigits (number : Nat) : List Char :=
  Nat.toDigits 16 number

/-- The written form of one character. Only the surrounding quote is escaped, so a text shows
apostrophes as they are and a character shows a double quote as it is. -/
def escape (quote : Quote) (character : Char) : List Char :=
  if character = '\x00' then ['\\', '0']
  else if character = '\t' then ['\\', 't']
  else if character = '\r' then ['\\', 'r']
  else if character = '\n' then ['\\', 'n']
  else if character = '\\' then ['\\', '\\']
  else if character = quote.mark then ['\\', character]
  else if isHidden character then
    ['\\', 'u', '\x7b'] ++ hexDigits character.toNat ++ ['\x7d']
  else [character]

/-- A list of characters between two quotes. -/
def enclose (quote : Quote) (characters : List Char) : String :=
  String.ofList (quote.mark :: characters.flatMap (escape quote) ++ [quote.mark])

/-- A text between double quotes. -/
def quoted (text : String) : String :=
  enclose .double text.toList

/-- A character between single quotes. -/
def quotedChar (character : Char) : String :=
  enclose .single [character]

end Formula.Text
