import Mathlib.Computability.Language
import Formula.Text.Span
import Formula.Token.Basic

/-!
# The lexicon of formulas

How the tokens of formulas are spelled, and how a text is cut into them, said without a scanner.
`lexemes` lists the texts of each kind of token and `gaps` the texts that may stand between tokens,
both as languages over characters. `Munches` is maximal munch: the longest gap is passed over, then
the longest lexeme becomes a token, and so on from the place that is reached.
-/

set_option autoImplicit false
set_option relaxedAutoImplicit false

namespace Formula.Lexicon

open Computability

/-! ### Characters -/

/-- A letter of a name: an ASCII letter or an underscore. -/
def IsLetter (character : Char) : Prop :=
  ('a' ≤ character ∧ character ≤ 'z') ∨ ('A' ≤ character ∧ character ≤ 'Z') ∨ character = '_'

/-- A decimal digit. -/
def IsDigit (character : Char) : Prop :=
  '0' ≤ character ∧ character ≤ '9'

/-- A blank inside a line. -/
def IsBlank (character : Char) : Prop :=
  character = ' ' ∨ character = '\t'

/-- A character that ends a line. -/
def IsLineEnd (character : Char) : Prop :=
  character = '\r' ∨ character = '\n'

/-! ### Languages -/

/-- The texts of one character of a class. -/
def single (holds : Char → Prop) : Language Char :=
  {text | ∃ character, holds character ∧ text = [character]}

/-- The lexemes of a kind of token. -/
def lexemes : TokenKind → Language Char
  | .identifier => single IsLetter * (single fun character ↦ IsLetter character ∨ IsDigit character)∗
  | .number => single IsDigit * (single IsDigit)∗ * (1 + {['.']} * (single IsDigit)∗)
  | .operator symbol => {symbol.lexeme.toList}
  | .newLine => single IsLineEnd
  | .endOfInput | .invalid => 0

/-- The lexemes of all kinds of tokens. -/
def allLexemes : Language Char :=
  {text | ∃ kind, text ∈ lexemes kind}

/-- The comments, which do not go beyond the end of a line. -/
def comments : Language Char :=
  {['#']} * (single fun character ↦ ¬ IsLineEnd character)∗

/-- The texts between tokens: any number of blanks and comments. -/
def gaps : Language Char :=
  (single IsBlank + comments)∗

theorem mem_single {holds : Char → Prop} {text : List Char} :
    text ∈ single holds ↔ ∃ character, holds character ∧ text = [character] :=
  Iff.rfl

theorem mem_kstar_single {holds : Char → Prop} {text : List Char} :
    text ∈ (single holds)∗ ↔ ∀ character ∈ text, holds character := by
  rw [Language.mem_kstar]
  constructor
  · rintro ⟨pieces, rfl, hpieces⟩ character hcharacter
    obtain ⟨piece, hpiece, hmem⟩ := List.mem_flatten.mp hcharacter
    obtain ⟨other, hother, rfl⟩ := hpieces piece hpiece
    exact List.mem_singleton.mp hmem ▸ hother
  · intro htext
    refine ⟨text.map ([·]), (List.flatMap_singleton' text).symm, ?_⟩
    intro piece hpiece
    obtain ⟨character, hcharacter, rfl⟩ := List.mem_map.mp hpiece
    exact ⟨character, htext character hcharacter, rfl⟩

/-! ### Longest matches -/

/-- The longest text of a language with which another text begins. -/
structure Longest (language : Language Char) (text found : List Char) : Prop where
  mem : found ∈ language
  isPrefix : found <+: text
  length_le : ∀ other ∈ language, other <+: text → other.length ≤ found.length

theorem Longest.unique {language : Language Char} {text first second : List Char}
    (hfirst : Longest language text first) (hsecond : Longest language text second) :
    first = second := by
  have hlength : first.length = second.length :=
    Nat.le_antisymm (hsecond.length_le first hfirst.mem hfirst.isPrefix)
      (hfirst.length_le second hsecond.mem hsecond.isPrefix)
  exact (List.prefix_of_prefix_length_le hfirst.isPrefix hsecond.isPrefix hlength.le).eq_of_length
    hlength

/-- What is longest in a text is longest in every shorter text that still holds it. -/
theorem Longest.of_isPrefix {language : Language Char} {text shorter found : List Char}
    (h : Longest language text found) (hshorter : shorter <+: text) (hfound : found <+: shorter) :
    Longest language shorter found where
  mem := h.mem
  isPrefix := hfound
  length_le other hother hstarts := h.length_le other hother (hstarts.trans hshorter)

/-! ### Maximal munch -/

/-- `Munches passed tokens rest` says that maximal munch on the text `passed ++ rest` comes to the
place in front of the rest, with these tokens on the way. -/
inductive Munches : List Char → List Token → List Char → Prop
  | start (text : List Char) : Munches [] [] text
  | next {passed gap lexeme rest : List Char} {tokens : List Token} {kind : TokenKind} :
      Munches passed tokens (gap ++ (lexeme ++ rest)) →
      Longest gaps (gap ++ (lexeme ++ rest)) gap →
      Longest allLexemes (lexeme ++ rest) lexeme →
      lexeme ∈ lexemes kind →
      Munches (passed ++ gap ++ lexeme)
        (tokens ++ [⟨kind, String.ofList lexeme, Text.byteLength (passed ++ gap)⟩]) rest

/-- Maximal munch comes to the end of a text with these tokens: nothing but a gap is left. -/
def MunchesAll (text : List Char) (tokens : List Token) : Prop :=
  ∃ passed gap, text = passed ++ gap ∧ Munches passed tokens gap ∧ gap ∈ gaps

/-- Maximal munch comes to a place behind these characters where no lexeme matches, at the given
character, with these tokens on the way. -/
def BreaksAt (text passed : List Char) (character : Char) (tokens : List Token) : Prop :=
  ∃ before gap rest, passed = before ++ gap ∧ text = passed ++ character :: rest ∧
    Munches before tokens (gap ++ character :: rest) ∧
    Longest gaps (gap ++ character :: rest) gap ∧
    ∀ lexeme ∈ allLexemes, ¬ lexeme <+: character :: rest

end Formula.Lexicon
