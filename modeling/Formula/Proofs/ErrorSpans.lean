import Formula.Diagnostic
import Formula.Proofs.LazyReading

/-!
# Where errors point

The span of an error lies in its source, between whole characters, and the bytes in it are those of
what cannot stand there (`span_of_parse_error`): a character that starts no lexeme, or a token of
the source. Both are seen as one token, the culprit of the error, and it is this token that stands
in the source where the error says (`standsIn_culprit`). Only the token that closes a source has no
text, so only an error at the end of a source has an empty span.
-/

set_option autoImplicit false
set_option relaxedAutoImplicit false

namespace Formula

open Lexicon Parse

namespace SyntaxError

/-- What cannot stand where an error is found: a character that starts no lexeme, taken as a token
of its own, or a token of the source. -/
def culprit : SyntaxError → Token
  | lexical error => ⟨.invalid, String.singleton error.character, error.offset⟩
  | grammatical error => error.token

theorem span_culprit (error : SyntaxError) : error.culprit.span = error.span := by
  cases error with
  | lexical error =>
    rw [culprit, Token.span, String.utf8ByteSize_singleton]
    rfl
  | grammatical error => rfl

/-- A character that starts no lexeme is not the end of its source. -/
theorem isEndOfInput_culprit_iff (error : SyntaxError) :
    error.culprit.isEndOfInput ↔
      ∃ failure, error = .grammatical failure ∧ failure.token.isEndOfInput := by
  cases error with
  | lexical error => exact iff_of_false Bool.false_ne_true fun ⟨_, h, _⟩ ↦ nomatch h
  | grammatical error =>
    refine ⟨fun h ↦ ⟨error, rfl, h⟩, ?_⟩
    rintro ⟨_, ⟨⟩, h⟩
    exact h

end SyntaxError

section

variable {source : String} {token : Token} {error : SyntaxError}

/-! ### Tokens in front of a lexical error -/

theorem standsIn_of_mem_yielded (h : token ∈ (TokenStream.ofSource source).yielded) :
    token.StandsIn source.toList := by
  match htokens : tokenize source with
  | .ok tokens =>
    rw [yielded_of_tokenize htokens] at h
    exact standsIn_of_tokenize htokens token h
  | .error error =>
    obtain ⟨passed, rest, hsource, -, hshorter⟩ := exists_tokenize_of_error htokens
    have hstands := standsIn_of_tokenize hshorter token (List.mem_append_left _ h)
    rw [String.toList_ofList] at hstands
    rw [hsource]
    exact hstands.append _

/-- Only the token that closes a source has no text, and it stands behind the last byte. -/
theorem span_of_isEndOfInput (h : token ∈ (TokenStream.ofSource source).yielded)
    (htoken : token.isEndOfInput) :
    token.span = ⟨source.utf8ByteSize, source.utf8ByteSize⟩ := by
  match htokens : tokenize source with
  | .ok tokens =>
    obtain ⟨before, rfl, hbefore⟩ := exists_of_tokenize htokens
    rw [yielded_of_tokenize htokens] at h
    rcases List.mem_append.mp h with hmem | hmem
    · exact absurd htoken (hbefore token hmem)
    · rw [List.mem_singleton.mp hmem]
      rfl
  | .error error => exact absurd htoken (not_isEndOfInput_of_tokenize_error htokens token h)

/-! ### Errors -/

/-- The character of a lexical error stands behind the tokens that were read. -/
theorem standsIn_culprit (h : parse source = .error error) :
    error.culprit.StandsIn source.toList := by
  cases error with
  | lexical error =>
    obtain ⟨passed, rest, hsource, hoffset, -⟩ :=
      exists_tokenize_of_error (tokenize_of_parseWithin h)
    exact ⟨passed, rest, by simp [SyntaxError.culprit, hsource], hoffset⟩
  | grammatical error => exact standsIn_of_mem_yielded (mem_yielded_of_parseWithin h)

theorem span_start_lt_stop_culprit (h : parse source = .error error)
    (hend : ¬ error.culprit.isEndOfInput) : error.span.start < error.span.stop := by
  cases error with
  | lexical error => exact Nat.lt_add_of_pos_right error.character.utf8Size_pos
  | grammatical error =>
    exact Token.span_start_lt_stop
      (mem_lexemes_of_mem_yielded (mem_yielded_of_parseWithin h) hend)

theorem span_culprit_of_isEndOfInput (h : parse source = .error error)
    (hend : error.culprit.isEndOfInput) :
    error.span = ⟨source.utf8ByteSize, source.utf8ByteSize⟩ := by
  obtain ⟨failure, rfl, htoken⟩ := error.isEndOfInput_culprit_iff.mp hend
  exact span_of_isEndOfInput (mem_yielded_of_parseWithin h) htoken

end

/-- An error points at bytes of its source that are those of its culprit, between whole characters.
They are none only for a parse error at the end of the source. The diagnostic of the error has one
label, at the same place. -/
theorem span_of_parse_error (source : String) (error : SyntaxError)
    (h : parse source = .error error) :
    error.span.start ≤ error.span.stop ∧ error.span.stop ≤ source.utf8ByteSize ∧
    error.span.Holds source error.culprit.lexeme ∧
    (error.span.start = error.span.stop ↔
      ∃ failure, error = .grammatical failure ∧ failure.token.isEndOfInput) ∧
    (error.span.start = error.span.stop → error.span.start = source.utf8ByteSize) ∧
    ∀ name?, (Diagnostic.ofError error name? source).span = error.span ∧
      (Diagnostic.ofError error name? source).labels = [(error.span, error.diagnosis)] := by
  have hstands := standsIn_culprit h
  have hspan := error.span_culprit
  have hempty : error.span.start = error.span.stop ↔ error.culprit.isEndOfInput := by
    refine ⟨fun hequal ↦ ?_, fun hend ↦ ?_⟩
    · by_contra hend
      exact Nat.ne_of_lt (span_start_lt_stop_culprit h hend) hequal
    · rw [span_culprit_of_isEndOfInput h hend]
  refine ⟨?_, ?_, ?_, ?_, fun hequal ↦ ?_, fun name? ↦ ⟨rfl, rfl⟩⟩
  · rw [← hspan]
    exact Nat.le_add_right _ _
  · rw [← hspan, ← Text.byteLength_toList]
    exact hstands.span_stop_le
  · rw [← hspan]
    exact hstands.holds
  · rw [hempty, error.isEndOfInput_culprit_iff]
  · rw [span_culprit_of_isEndOfInput h (hempty.mp hequal)]

/-- A character of two bytes behind a comment with another one. -/
theorem span_of_parse_error_wide :
    parse "#é\nx = é" = .error (.lexical ⟨'é', 8⟩) ∧
    Text.Span.Holds ⟨8, 10⟩ "#é\nx = é" "é" := by
  have hparse : parse "#é\nx = é" = .error (.lexical ⟨'é', 8⟩) := by cbv
  exact ⟨hparse, (span_of_parse_error _ _ hparse).2.2.1⟩

end Formula
