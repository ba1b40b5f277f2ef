import Formula.Proofs.Coverage
import Formula.Proofs.ProgramReplay

/-!
# Reading lazily

The parser takes the tokens of a source one by one, so it sees a lexical error only if it gets
there. What it reports agrees with cutting the whole source first (`parse_error_of_tokenize`): a
source without a lexical error has only parse errors, at one of its tokens, and in a source with a
lexical error the part in front of it decides. Either this part is refused at one of its own tokens,
and then so is the source, or the lexical error is reported.
-/

set_option autoImplicit false
set_option relaxedAutoImplicit false

namespace Formula

namespace Parse

variable {limit : Nat} {source shorter : String} {error : LexError}

/-- The token of a parse error is one of those in front of the lexical error, if there is one. -/
theorem mem_yielded_of_parseWithin {failure : ParseError}
    (h : parseWithin limit source = .error (.grammatical failure)) :
    failure.token ∈ (TokenStream.ofSource source).yielded := by
  obtain ⟨tokens, more, hyielded, -, -⟩ := exists_stuckProgram_of_parseWithin h
  rw [hyielded]
  exact List.mem_append_right _ List.mem_cons_self

theorem parseWithin_ne_ok (h : tokenize source = .error error) (node : Node) :
    parseWithin limit source ≠ .ok node := by
  intro hparse
  obtain ⟨_, _, htokens, -⟩ := exists_takenAll_of_parseWithin hparse
  rw [h] at htokens
  cases htokens

/-- Where a lexical error is reported, the source up to this error is accepted or is refused only
at its end. -/
theorem isEndOfInput_of_lexical {size : Nat} {failure : SyntaxError}
    (h : parseWithin limit source = .error (.lexical error))
    (hshorter : tokenize shorter =
      .ok ((TokenStream.ofSource source).yielded ++ [.endOfInput size]))
    (hfailure : parseWithin limit shorter = .error failure) :
    ∃ parseError, failure = .grammatical parseError ∧ parseError.token.isEndOfInput := by
  cases failure with
  | lexical other =>
    rw [tokenize_of_parseWithin hfailure] at hshorter
    cases hshorter
  | grammatical other =>
    refine ⟨other, rfl, ?_⟩
    obtain ⟨tokens, more, hyielded, -, hstuck⟩ := exists_stuckProgram_of_parseWithin hfailure
    rw [yielded_of_tokenize hshorter] at hyielded
    rcases List.eq_nil_or_concat' more with rfl | ⟨others, last, rfl⟩
    · rw [← List.singleton_inj.mp (List.append_inj_right' hyielded rfl)]
      rfl
    · -- a token before the end would have been refused in the whole source, too
      rw [← List.cons_append, ← List.append_assoc] at hyielded
      have hsource := (List.append_inj' hyielded rfl).1
      rw [parseWithin_of_stuckProgram hsource hstuck] at h
      cases h

/-- What is refused in front of a lexical error is refused in the same way without what follows. -/
theorem parseWithin_of_grammatical {size : Nat} {failure : ParseError}
    (h : parseWithin limit source = .error (.grammatical failure))
    (hshorter : tokenize shorter =
      .ok ((TokenStream.ofSource source).yielded ++ [.endOfInput size])) :
    parseWithin limit shorter = .error (.grammatical failure) := by
  refine parseWithin_of_yielded_isPrefix h ?_
  rw [yielded_of_tokenize hshorter]
  exact List.prefix_append _ _

end Parse

open Parse

/-- Without a lexical error only parse errors are reported, each at a token of the source. With a
lexical error the source is not accepted. Then either the lexical error is reported, and the part
in front of it is accepted or refused at its end; or a parse error is reported at a token in front
of the lexical error, and it is the one of this part. -/
theorem parse_error_of_tokenize (source : String) :
    (∀ tokens, tokenize source = .ok tokens →
      (∀ error, parse source ≠ .error (.lexical error)) ∧
      ∀ failure, parse source = .error (.grammatical failure) → failure.token ∈ tokens) ∧
    ∀ error, tokenize source = .error error → ∃ passed rest before,
      source.toList = passed ++ error.character :: rest ∧
      error.offset = Text.byteLength passed ∧
      tokenize (String.ofList passed) = .ok (before ++ [.endOfInput error.offset]) ∧
      ((parse source = .error (.lexical error) ∧
          ∀ failure, parse (String.ofList passed) = .error failure →
            ∃ parseError, failure = .grammatical parseError ∧ parseError.token.isEndOfInput) ∨
        ∃ failure, parse source = .error (.grammatical failure) ∧
          parse (String.ofList passed) = .error (.grammatical failure) ∧
          failure.token ∈ before ∧ failure.token.span.stop ≤ error.offset ∧
          ¬ failure.token.isEndOfInput) := by
  constructor
  · intro tokens htokens
    refine ⟨fun error hlexical ↦ ?_, fun failure hfailure ↦ ?_⟩
    · rw [tokenize_of_parseWithin hlexical] at htokens
      cases htokens
    · rw [← yielded_of_tokenize htokens]
      exact mem_yielded_of_parseWithin hfailure
  · intro error herror
    obtain ⟨passed, rest, hsource, hoffset, hshorter⟩ := exists_tokenize_of_error herror
    refine ⟨passed, rest, _, hsource, hoffset, hshorter, ?_⟩
    match hparse : parse source with
    | .ok node => exact absurd hparse (parseWithin_ne_ok herror node)
    | .error (.lexical other) =>
      obtain rfl := Except.error.inj (herror.symm.trans (tokenize_of_parseWithin hparse))
      exact .inl ⟨rfl, fun failure ↦ isEndOfInput_of_lexical hparse hshorter⟩
    | .error (.grammatical failure) =>
      have hmem := mem_yielded_of_parseWithin hparse
      have hspans := pairwise_span_of_tokenize hshorter
      refine .inr ⟨failure, rfl, parseWithin_of_grammatical hparse hshorter, hmem, ?_,
        not_isEndOfInput_of_tokenize_error herror _ hmem⟩
      exact (List.pairwise_append.mp hspans).2.2 _ hmem _ (List.mem_singleton_self _)

/-- A token that cannot follow is refused at its place, with a lexical error behind it or none. -/
theorem parse_error_of_tokenize_early :
    (∃ tokens failure, tokenize "x 1 = 2" = .ok tokens ∧
      parse "x 1 = 2" = .error (.grammatical failure) ∧ failure.token ∈ tokens) ∧
    tokenize "x 1 = 2 ?" = .error ⟨'?', 8⟩ ∧
    ∃ failure, parse "x 1 = 2 ?" = .error (.grammatical failure) ∧ failure.token.span.stop ≤ 8 := by
  have herror : tokenize "x 1 = 2 ?" = .error ⟨'?', 8⟩ := by cbv
  refine ⟨?_, herror, ?_⟩
  · obtain ⟨tokens, htokens⟩ : ∃ tokens, tokenize "x 1 = 2" = .ok tokens := ⟨_, by cbv⟩
    obtain ⟨failure, hfailure⟩ : ∃ failure, parse "x 1 = 2" = .error (.grammatical failure) :=
      ⟨_, by cbv⟩
    exact ⟨tokens, failure, htokens, hfailure,
      ((parse_error_of_tokenize _).1 tokens htokens).2 failure hfailure⟩
  · obtain ⟨_, _, _, -, -, -, ⟨hlexical, -⟩ | ⟨failure, hfailure, -, -, hstop, -⟩⟩ :=
      (parse_error_of_tokenize "x 1 = 2 ?").2 _ herror
    · have hparse : parse "x 1 = 2 ?" = .error (.grammatical
          (.unexpected .relation .relationalOperator (.number "1" 2))) := by cbv
      rw [hparse] at hlexical
      cases hlexical
    · exact ⟨failure, hfailure, hstop⟩

end Formula
