import Mathlib
import Formula.Proofs.Spelling
import Formula.Token.Spacing

/-!
# Tokens written back

The text of the tokens of a source is scanned into tokens with the same kinds and lexemes
(`tokenize_detokenize`). A space stands between two of them, unless the first is closed, so that no
character continues it, or the second begins with a character that continues nothing.
-/

set_option autoImplicit false
set_option relaxedAutoImplicit false

namespace Formula

open Lexicon

namespace Token

/-! ### Neighbours -/

/-- A line end and an opening bracket are no longer than one character, whatever follows. -/
theorem lexemeAt?_append_of_closed {token : Token}
    (htoken : token.lexeme.toList ∈ lexemes token.kind) (hclosed : token.isNewLine ∨ token.opens) (more : List Char) :
    lexemeAt? (token.lexeme.toList ++ more) = some (token.kind, token.lexeme.toList) := by
  obtain ⟨kind, lexeme, position⟩ := token
  cases kind with
  | newLine =>
    obtain ⟨character, hline, hlexeme⟩ := mem_lexemes_newLine.mp htoken
    rw [isLineEnd_iff] at hline
    rw [hlexeme]
    rcases hline with rfl | rfl <;> rfl
  | operator symbol =>
    have hlexeme : lexeme.toList = symbol.lexeme.toList := htoken
    rw [hlexeme]
    cases symbol with
    | leftCurly | leftParen | leftSquare => rfl
    | _ => simp [isNewLine, opens, TokenKind.operator?, Operator.opens] at hclosed
  | _ => simp [isNewLine, opens, TokenKind.operator?] at hclosed

/-- A line end, a closing bracket, a comma and the parenthesis of a call continue no lexeme. -/
theorem exists_cons_not_joins {token : Token} (htoken : token.lexeme.toList ∈ lexemes token.kind)
    (hends : token.isNewLine ∨ token.is .leftParen ∨ token.closesOrSeparates) :
    ∃ first rest, token.lexeme.toList = first :: rest ∧ ¬ joins first := by
  obtain ⟨kind, lexeme, position⟩ := token
  cases kind with
  | newLine =>
    obtain ⟨character, hline, hlexeme⟩ := mem_lexemes_newLine.mp htoken
    refine ⟨character, [], hlexeme, ?_⟩
    rw [isLineEnd_iff] at hline
    rcases hline with rfl | rfl <;> decide
  | operator symbol =>
    have hlexeme : lexeme.toList = symbol.lexeme.toList := htoken
    rw [hlexeme]
    cases symbol with
    | leftParen | rightCurly | rightParen | rightSquare | comma => exact ⟨_, _, rfl, by decide⟩
    | _ => simp [isNewLine, closesOrSeparates, TokenKind.operator?, Operator.closes] at hends
  | _ => simp [isNewLine, closesOrSeparates, TokenKind.operator?] at hends

theorem closed_or_ends_of_not_needsSpace {previous next : Token} (h : ¬ needsSpace previous next) :
    (previous.isNewLine ∨ previous.opens) ∨
      next.isNewLine ∨ next.is .leftParen ∨ next.closesOrSeparates := by
  rw [needsSpace] at h
  split_ifs at h with hline hcall
  · rw [Bool.or_eq_true] at hline
    tauto
  · rw [Bool.and_eq_true] at hcall
    tauto
  · rw [Bool.not_eq_true, Bool.not_eq_false', Bool.or_eq_true] at h
    tauto

/-- The space between two neighbours, if there is one. -/
def spaceBetween (previous next : Token) : List Char :=
  if needsSpace previous next then [' '] else []

theorem isBlank_of_mem_spaceBetween {previous next : Token} :
    ∀ character ∈ spaceBetween previous next, isBlank character := by
  rw [spaceBetween]
  split
  · exact List.forall_mem_singleton.mpr (by decide)
  · exact List.forall_mem_nil _

theorem spelledAfter_cons {next : Token} (hnext : ¬ next.isEndOfInput) (previous : Token)
    (others : List Token) : (spelledAfter previous (next :: others)).toList =
      spaceBetween previous next ++ (next.lexeme.toList ++ (spelledAfter next others).toList) := by
  rw [spelledAfter, if_neg hnext, spaceBetween]
  split <;> simp

variable {token : Token} {others : List Token}

/-- A token is found again in front of what is written after it. -/
theorem lexemeAt?_spelledAfter (htoken : token.lexeme.toList ∈ lexemes token.kind)
    (hothers : ∀ other ∈ others, other.lexeme.toList ∈ lexemes other.kind) (size : Nat) :
    lexemeAt? (token.lexeme.toList ++
        (spelledAfter token (others ++ [.endOfInput size])).toList) =
      some (token.kind, token.lexeme.toList) := by
  cases others with
  | nil =>
    have hnothing : (spelledAfter token ([] ++ [.endOfInput size])).toList = [] := rfl
    rw [hnothing, List.append_nil]
    exact lexemeAt?_of_mem htoken
  | cons next others =>
    have hnext := hothers next List.mem_cons_self
    rw [List.cons_append, spelledAfter_cons (not_isEndOfInput_of_mem_lexemes hnext), spaceBetween]
    split
    · exact lexemeAt?_of_mem_append htoken (by decide) _
    · next hspace =>
      rcases closed_or_ends_of_not_needsSpace hspace with hclosed | hends
      · exact lexemeAt?_append_of_closed htoken hclosed _
      · obtain ⟨first, rest, hlexeme, hfirst⟩ := exists_cons_not_joins hnext hends
        rw [hlexeme]
        exact lexemeAt?_of_mem_append htoken hfirst _

end Token

namespace TokenStream

variable {token : Token} {others : List Token}

theorem scan_spelledAfter (htoken : token.lexeme.toList ∈ lexemes token.kind)
    (hothers : ∀ other ∈ others, other.lexeme.toList ∈ lexemes other.kind) (size offset : Nat) :
    scan 0 offset (token.lexeme.toList ++
        (token.spelledAfter (others ++ [.endOfInput size])).toList) =
      .token ⟨token.kind, token.lexeme, offset⟩
        (scan 0 (offset + Text.byteLength token.lexeme.toList)
          (token.spelledAfter (others ++ [.endOfInput size])).toList) :=
  @scan_word token.word _ (spellable_of_mem htoken)
    (Token.lexemeAt?_spelledAfter htoken hothers size) offset

/-- A token and what is written after it are scanned into tokens with the same words. -/
theorem exists_toTokens_spelledAfter (htoken : token.lexeme.toList ∈ lexemes token.kind)
    (hothers : ∀ other ∈ others, other.lexeme.toList ∈ lexemes other.kind) (size offset : Nat) :
    ∃ again, (scan 0 offset (token.lexeme.toList ++
        (token.spelledAfter (others ++ [.endOfInput size])).toList)).toTokens = .ok again ∧
      again.map Token.word = (token :: (others ++ [.endOfInput size])).map Token.word := by
  induction others generalizing token offset with
  | nil =>
    rw [scan_spelledAfter htoken hothers]
    exact ⟨_, rfl, rfl⟩
  | cons next others ih =>
    obtain ⟨hnext, hrest⟩ := List.forall_mem_cons.mp hothers
    rw [scan_spelledAfter htoken hothers, toTokens, List.cons_append,
      Token.spelledAfter_cons (Token.not_isEndOfInput_of_mem_lexemes hnext),
      scan_blanks Token.isBlank_of_mem_spaceBetween]
    obtain ⟨again, hagain, hwords⟩ := ih hnext hrest _
    rw [hagain]
    exact ⟨_, rfl, by rw [List.map_cons, List.map_cons, hwords]; rfl⟩

end TokenStream

/-- The tokens of a source are written back as a source whose tokens have the same kinds and
lexemes. -/
theorem tokenize_detokenize (source : String) (tokens : List Token)
    (h : tokenize source = .ok tokens) :
    ∃ again, tokenize (Token.detokenize tokens) = .ok again ∧
      again.map Token.word = tokens.map Token.word := by
  obtain ⟨munched, ⟨_, _, -, hmunches, -⟩, rfl⟩ := tokenize_eq_ok_iff.mp h
  have hlexemes := hmunches.mem_lexemes
  cases munched with
  | nil => exact ⟨_, rfl, rfl⟩
  | cons token others =>
    obtain ⟨htoken, hothers⟩ := List.forall_mem_cons.mp hlexemes
    rw [tokenize, TokenStream.ofSource, List.cons_append, Token.detokenize,
      if_neg (Token.not_isEndOfInput_of_mem_lexemes htoken), String.toList_append]
    exact TokenStream.exists_toTokens_spelledAfter htoken hothers _ 0

/-- Stars, a number that ends in its point and a comment are kept apart. -/
theorem tokenize_detokenize_stars :
    ∃ tokens, tokenize "f (2 * *3.,\t7. 5)<=x**y #z" = .ok tokens ∧
      ∃ again, tokenize (Token.detokenize tokens) = .ok again ∧
        again.map Token.word = tokens.map Token.word := by
  obtain ⟨tokens, htokens⟩ : ∃ tokens, tokenize "f (2 * *3.,\t7. 5)<=x**y #z" = .ok tokens :=
    ⟨_, by cbv⟩
  exact ⟨tokens, htokens, tokenize_detokenize _ tokens htokens⟩

end Formula
