import Mathlib.Data.List.TakeWhile
import Formula.Proofs.MaximalMunch

/-!
# Spelling tokens

The words of a source, its tokens without their positions, can be written down again: every token
of a source is `Spellable` (`spellable_of_mem_yielded`), and spellable words with a blank after
each of them are scanned into tokens with the same words (`exists_tokenize_spell`).
-/

set_option autoImplicit false
set_option relaxedAutoImplicit false

namespace Formula

/-! ### Words -/

/-- A token without its position. -/
structure Word where
  kind : TokenKind
  lexeme : String
  deriving DecidableEq

/-- The word of a token. -/
def Token.word (token : Token) : Word :=
  ⟨token.kind, token.lexeme⟩

/-- Whether a word is scanned as one token where a blank comes after it. -/
structure Spellable (word : Word) : Prop where
  exists_cons : ∃ first rest, word.lexeme.toList = first :: rest ∧ ¬ Token.isBlank first ∧
    first ≠ '#'
  lexemeAt? : ∀ more,
    Token.lexemeAt? (word.lexeme.toList ++ ' ' :: more) = some (word.kind, word.lexeme.toList)

/-- The text of words, with a blank after each of them. -/
def spell (words : List Word) : List Char :=
  words.flatMap fun word ↦ word.lexeme.toList ++ [' ']

namespace Token

/-! ### Lexemes -/

/-- Whether a character can stand in a lexeme behind its first one. -/
def joins (character : Char) : Bool :=
  continuesName character || character == '.' || character == '*' || character == '='

theorem takeWhile_append_cons {holds : Char → Bool} {next : Char} (hnext : holds next = false)
    (text more : List Char) : (text ++ next :: more).takeWhile holds = text.takeWhile holds := by
  induction text with
  | nil => exact List.takeWhile_cons_of_neg (by simp [hnext])
  | cons first text ih =>
    rw [List.cons_append, List.takeWhile_cons, List.takeWhile_cons, ih]

theorem dropWhile_append_cons {holds : Char → Bool} {next : Char} (hnext : holds next = false)
    (text more : List Char) :
    (text ++ next :: more).dropWhile holds = text.dropWhile holds ++ next :: more := by
  induction text with
  | nil => exact List.dropWhile_cons_of_neg (by simp [hnext])
  | cons first text ih =>
    rw [List.cons_append, List.dropWhile_cons, List.dropWhile_cons, ih]
    split <;> rfl

theorem isPrefixOf_append_cons {pattern : List Char} {next : Char} (hnext : next ∉ pattern)
    (text more : List Char) :
    pattern.isPrefixOf (text ++ next :: more) = pattern.isPrefixOf text := by
  induction pattern generalizing text with
  | nil => rfl
  | cons first pattern ih =>
    obtain ⟨hfirst, hothers⟩ := not_or.mp (List.mem_cons.not.mp hnext)
    cases text with
    | nil => simp [List.isPrefixOf, Ne.symm hfirst]
    | cons => simp [List.isPrefixOf, ih hothers]

theorem numberRest_append {next : Char} (hdigit : next.isDigit = false) (hpoint : next ≠ '.')
    (text more : List Char) : numberRest (text ++ next :: more) = numberRest text := by
  rw [numberRest, numberRest, takeWhile_append_cons hdigit, dropWhile_append_cons hdigit]
  congr 1
  cases text.dropWhile Char.isDigit with
  | nil => simp [hpoint]
  | cons first rest =>
    by_cases hfirst : first = '.'
    · subst hfirst
      simp [takeWhile_append_cons hdigit]
    · simp [hfirst]

theorem joins_of_mem_tail (operator : Operator) :
    ∀ character ∈ operator.lexeme.toList.tail, joins character := by
  cases operator <;> simp [Operator.lexeme, joins]

theorem operatorAt?_append {next : Char} (hnext : ¬ joins next) (first : Char)
    (rest more : List Char) :
    operatorAt? (first :: (rest ++ next :: more)) = operatorAt? (first :: rest) := by
  rw [operatorAt?, operatorAt?]
  congr 1
  funext operator
  have hjoins := joins_of_mem_tail operator
  cases hlexeme : operator.lexeme.toList with
  | nil => rfl
  | cons head tail =>
    rw [hlexeme, List.tail_cons] at hjoins
    rw [List.isPrefixOf, List.isPrefixOf,
      isPrefixOf_append_cons fun hmem ↦ hnext (hjoins next hmem)]

/-- The lexeme at the start of a text ends before a character that joins no lexeme. -/
theorem lexemeAt?_append {next : Char} (hnext : ¬ joins next) (first : Char)
    (rest more : List Char) :
    lexemeAt? (first :: (rest ++ next :: more)) = lexemeAt? (first :: rest) := by
  have hother := hnext
  simp only [joins, Bool.or_eq_true, beq_iff_eq, not_or, Bool.not_eq_true] at hother
  obtain ⟨⟨⟨hname, hpoint⟩, -⟩, -⟩ := hother
  have hdigit : next.isDigit = false := by
    rw [continuesName, Bool.or_eq_false_iff, Char.isAlphanum, Bool.or_eq_false_iff] at hname
    exact hname.1.2
  rw [lexemeAt?, lexemeAt?, takeWhile_append_cons hname, numberRest_append hdigit hpoint,
    operatorAt?_append hnext]

end Token

/-! ### Words of sources -/

/-- A lexeme is found as a whole where a character comes after it that joins no lexeme. -/
theorem Token.lexemeAt?_of_mem_append {lexeme : List Char} {kind : TokenKind} {next : Char}
    (h : lexeme ∈ Lexicon.lexemes kind) (hnext : ¬ Token.joins next) (more : List Char) :
    Token.lexemeAt? (lexeme ++ next :: more) = some (kind, lexeme) := by
  obtain ⟨first, rest, rfl⟩ := List.exists_cons_of_ne_nil (Token.lexemes_ne_nil h)
  rw [← Token.lexemeAt?_of_mem h]
  exact Token.lexemeAt?_append hnext first rest more

theorem spellable_of_mem {word : Word} (h : word.lexeme.toList ∈ Lexicon.lexemes word.kind) :
    Spellable word := by
  have hfound := Token.lexemeAt?_of_mem h
  obtain ⟨first, rest, hlexeme⟩ := List.exists_cons_of_ne_nil (Token.lexemes_ne_nil h)
  rw [hlexeme] at hfound
  refine ⟨⟨first, rest, hlexeme, ?_, ?_⟩, Token.lexemeAt?_of_mem_append h (by decide)⟩
  · rw [Token.isBlank_iff]
    rintro (rfl | rfl) <;> cases hfound
  · rintro rfl
    cases hfound

theorem spellable_ofOperator (operator : Token.Operator) :
    Spellable (Token.ofOperator operator 0).word :=
  spellable_of_mem rfl

theorem spellable_name : Spellable (Token.identifier "x" 0).word :=
  spellable_of_mem (Token.mem_lexemes_identifier.mpr
    ⟨'x', [], rfl, by decide, List.forall_mem_nil _⟩)

namespace TokenStream

theorem spellable_of_mem_yielded {source : String} {token : Token}
    (h : token ∈ (ofSource source).yielded) (htoken : ¬ token.isEndOfInput) :
    Spellable token.word :=
  spellable_of_mem (mem_lexemes_of_mem_yielded h htoken)

/-! ### Scanning words -/

/-- A spellable word is scanned as one token where it is the lexeme of the text. -/
theorem scan_word {word : Word} {rest : List Char} (h : Spellable word)
    (hlexeme : Token.lexemeAt? (word.lexeme.toList ++ rest) =
      some (word.kind, word.lexeme.toList)) (offset : Nat) :
    scan 0 offset (word.lexeme.toList ++ rest) =
      .token ⟨word.kind, word.lexeme, offset⟩
        (scan 0 (offset + Text.byteLength word.lexeme.toList) rest) := by
  obtain ⟨first, others, hword, hblank, hcomment⟩ := h.exists_cons
  rw [hword] at hlexeme ⊢
  rw [scan_lexeme hblank hcomment hlexeme, ← hword, String.ofList_toList]

theorem exists_toTokens_spell {words : List Word} (h : ∀ word ∈ words, Spellable word)
    (offset : Nat) :
    ∃ tokens closing, (scan 0 offset (spell words)).toTokens = .ok (tokens ++ [closing]) ∧
      tokens.map Token.word = words := by
  induction words generalizing offset with
  | nil => exact ⟨[], .endOfInput offset, rfl, rfl⟩
  | cons word words ih =>
    obtain ⟨hword, hwords⟩ := List.forall_mem_cons.mp h
    have hspace : Token.isBlank ' ' := by decide
    have htext : spell (word :: words) = word.lexeme.toList ++ ' ' :: spell words := by
      rw [spell, List.flatMap_cons, List.append_assoc, List.singleton_append, spell]
    rw [htext, scan_word hword (hword.lexemeAt? _), scan, if_pos hspace]
    obtain ⟨tokens, closing, htokens, rfl⟩ := ih hwords _
    refine ⟨⟨word.kind, word.lexeme, offset⟩ :: tokens, closing, ?_, rfl⟩
    rw [toTokens, htokens]
    rfl

end TokenStream

/-- Spellable words are the words of a source. -/
theorem exists_tokenize_spell (words : List Word) (h : ∀ word ∈ words, Spellable word) :
    ∃ source tokens closing, tokenize source = .ok (tokens ++ [closing]) ∧
      tokens.map Token.word = words := by
  obtain ⟨tokens, closing, htokens, hwords⟩ := TokenStream.exists_toTokens_spell h 0
  refine ⟨String.ofList (spell words), tokens, closing, ?_, hwords⟩
  rw [tokenize, TokenStream.ofSource, String.toList_ofList]
  exact htokens

end Formula
