import Mathlib
import Formula.Proofs.Completion
import Formula.Proofs.ProgramReplay
import Formula.Proofs.Relabeling

/-!
# Errors come early

A parse error is found at the first token with which no program can go on (`parse_error_earliest`).
The tokens before it begin an accepted source: what the error asks for can come next, and from
there the program can be completed. The token itself cannot come next in any accepted source,
because whether a list of tokens is accepted is decided by their kinds
(`not_stuckProgram_of_takenAll`).
-/

set_option autoImplicit false
set_option relaxedAutoImplicit false

namespace Formula

open Grammar Parse

/-! ### Lists of kinds -/

/-- A token of which only the kind is left. -/
def Token.bare (token : Token) : Token :=
  ⟨token.kind, "", 0⟩

theorem Token.bare_of_isEndOfInput {token : Token} (h : token.isEndOfInput) :
    token.bare = .endOfInput 0 := by
  rw [bare, (isEndOfInput_iff token).mp h, endOfInput]

theorem map_bare_isPrefix {tokens more : List Token}
    (h : tokens.map Token.kind <+: more.map Token.kind) :
    tokens.map Token.bare <+: more.map Token.bare := by
  have hbare := h.map fun kind ↦ (⟨kind, "", 0⟩ : Token)
  rwa [List.map_map, List.map_map] at hbare

namespace Grammar

theorem not_isEndOfInput_of_mem_tokensOf (statements : List Statement) :
    ∀ token ∈ tokensOf statements, ¬ token.isEndOfInput := by
  intro token htoken
  obtain ⟨statement, -, hmem⟩ := List.mem_flatMap.mp htoken
  cases statement with
  | mk weights tokens node derives =>
  have hline {lines : List Token} (hlines : ∀ line ∈ lines, line.isNewLine) (h : token ∈ lines) :
      ¬ token.isEndOfInput := by
    have := hlines token h
    simp_all
  cases derives with
  | relation hderives hlines =>
    rcases List.mem_append.mp hmem with hinner | hnewLine
    · exact (hderives.isInner token hinner).not_isEndOfInput
    · exact hline hlines hnewLine
  | empty _ hlines => exact hline hlines hmem

variable {limit : Nat}

/-- Tokens that begin like those of a program are not refused. -/
theorem not_stuckProgram_of_takenAll {statements : List Statement} {closing : Token}
    {before : List Token} {error : ParseError} (hclosing : closing.isEndOfInput)
    (htaken : TakenAll statements closing) (hfits : Fits limit .relation (weightsOf statements))
    (hkinds : (before ++ [error.token]).map Token.kind <+:
      (tokensOf statements ++ [closing]).map Token.kind) :
    ¬ StuckProgram limit before error := by
  intro hstuck
  have hkind (token : Token) : token.bare.kind = token.kind := rfl
  obtain ⟨mapped, htokens, hweights, -, hmapped⟩ := htaken.exists_map hkind
  have hend := Token.bare_of_isEndOfInput hclosing
  have hlive := live_stateOf (not_isEndOfInput_of_mem_tokensOf mapped)
  have hyielded := yielded_stateOf (tokensOf mapped)
  obtain ⟨final, hreads, hfinal⟩ := exists_reads_of_yielded hlive hyielded
  rw [hend, ← hfinal] at hmapped
  have hok := run_program hlive hreads hmapped (hweights ▸ hfits) (hfinal ▸ rfl)
  obtain ⟨more, hmore⟩ := map_bare_isPrefix hkinds
  have hbare : (stream (stateOf (tokensOf mapped))).yielded =
      before.map Token.bare ++ (error.map Token.bare).token :: more := by
    rw [List.map_append, List.map_append, List.map_singleton, List.map_singleton,
      List.append_assoc, List.singleton_append] at hmore
    rw [hyielded, htokens, ← hend, ← hmore, ParseError.map]
  obtain ⟨stop, hstop, htoken⟩ := exists_reads_of_yielded hlive hbare
  have herror := run_program_error hlive hstop (hstuck.map hkind) htoken
  rw [hok] at herror
  cases herror

end Grammar

/-! ### Sources -/

theorem kinds_of_words {tokens others : List Token}
    (h : tokens.map Token.word = others.map Token.word) :
    tokens.map Token.kind = others.map Token.kind := by
  have hkinds := congrArg (List.map Word.kind) h
  rwa [List.map_map, List.map_map] at hkinds

/-- Statements that can be written down are accepted in a source with their words. -/
theorem exists_accepted {statements : List Statement}
    (htaken : ∀ closing : Token, closing.isEndOfInput → TakenAll statements closing)
    (hfits : Fits maxNesting .relation (weightsOf statements))
    (hspellable : ∀ token ∈ tokensOf statements, Spellable token.word) :
    ∃ source node tokens closing, parse source = .ok node ∧
      tokenize source = .ok (tokens ++ [closing]) ∧
      tokens.map Token.word = (tokensOf statements).map Token.word := by
  obtain ⟨source, tokens, closing, htokenize, hwords⟩ := exists_tokenize_spell
    ((tokensOf statements).map Token.word) (by simpa using hspellable)
  have hclosing := isEndOfInput_of_tokenize htokenize
  match hparse : parse source with
  | .ok node => exact ⟨source, node, tokens, closing, hparse, htokenize, hwords⟩
  | .error (.lexical error) =>
    rw [tokenize_of_parseWithin hparse] at htokenize
    cases htokenize
  | .error (.grammatical error) =>
    obtain ⟨before, after, hyielded, -, hstuck⟩ := exists_stuckProgram_of_parseWithin hparse
    refine absurd hstuck (not_stuckProgram_of_takenAll hclosing (htaken closing hclosing) hfits ?_)
    rw [yielded_of_tokenize htokenize] at hyielded
    refine ⟨after.map Token.kind, ?_⟩
    rw [← List.map_append, ← List.append_cons, ← hyielded, List.map_append, List.map_append,
      kinds_of_words hwords]

/-- A token of a source does not stand before itself. -/
theorem not_mem_of_yielded {source : String} {before after : List Token} {token : Token}
    (h : (TokenStream.ofSource source).yielded = before ++ token :: after) : token ∉ before := by
  intro hmem
  have hpositions := TokenStream.pairwise_position_scan 0 0 source.toList
  rw [← TokenStream.ofSource, h, List.pairwise_append] at hpositions
  exact Nat.lt_irrefl _ (hpositions.2.2 token hmem token List.mem_cons_self)

/-- The token of an error is the first one of its source with which no program can go on. -/
theorem parse_error_earliest (source : String) (error : ParseError)
    (h : parse source = .error (.grammatical error)) :
    ∃ before after, (TokenStream.ofSource source).yielded = before ++ error.token :: after ∧
      error.token ∉ before ∧
      (error.code = .unexpectedToken → ∃ accepted node tokens named,
        parse accepted = .ok node ∧ tokenize accepted = .ok tokens ∧
        error.expected.Names named ∧
        (before ++ [named]).map Token.word <+: tokens.map Token.word) ∧
      ∀ accepted node tokens, parse accepted = .ok node → tokenize accepted = .ok tokens →
        ¬ (before ++ [error.token]).map Token.kind <+: tokens.map Token.kind := by
  obtain ⟨before, after, hyielded, hinner, hstuck⟩ := exists_stuckProgram_of_parseWithin h
  refine ⟨before, after, hyielded, not_mem_of_yielded hyielded, ?_, ?_⟩
  · intro hcode
    obtain ⟨named, hnamed, hspellable⟩ :=
      Expected.exists_names (expected_ne_of_stuckProgram hstuck hcode)
    obtain ⟨more, statements, htokens, hmore, hfits, htaken⟩ :=
      exists_completion hstuck hcode hnamed
    have hbefore (token : Token) (hmem : token ∈ before) : Spellable token.word :=
      TokenStream.spellable_of_mem_yielded (hyielded ▸ List.mem_append_left _ hmem)
        (hinner token hmem)
    have hwords : ∀ token ∈ tokensOf statements, Spellable token.word := by
      rw [htokens]
      exact List.forall_mem_append.mpr ⟨hbefore, List.forall_mem_cons.mpr ⟨hspellable, hmore⟩⟩
    obtain ⟨accepted, node, tokens, closing, haccepted, htokenize, hequal⟩ :=
      exists_accepted htaken hfits hwords
    refine ⟨accepted, node, _, named, haccepted, htokenize, hnamed, ?_⟩
    have hshorter : before ++ [named] <+: tokensOf statements := by
      rw [htokens, List.append_cons before named more]
      exact List.prefix_append _ more
    refine (hshorter.map Token.word).trans ?_
    rw [← hequal]
    exact (List.prefix_append tokens [closing]).map Token.word
  · intro accepted node tokens haccepted htokens hkinds
    obtain ⟨statements, closing, htokenize, -, htaken, hfits, -⟩ :=
      exists_takenAll_of_parseWithin haccepted
    obtain rfl := Except.ok.inj (htokens.symm.trans htokenize)
    have hclosing := isEndOfInput_of_tokenize htokenize
    exact not_stuckProgram_of_takenAll hclosing htaken hfits hkinds hstuck

/-- A group that is not closed is refused at the end of the source, and can be closed there. -/
theorem parse_error_earliest_group :
    parse "x = (1" = .error (.grammatical
      (.unexpected .expression (.delimiter .rightParen) (.endOfInput 6))) ∧
    ∃ accepted node tokens before named, parse accepted = .ok node ∧
      tokenize accepted = .ok tokens ∧ named.is .rightParen ∧
      (before ++ [named]).map Token.word <+: tokens.map Token.word := by
  have hparse : parse "x = (1" = .error (.grammatical
      (.unexpected .expression (.delimiter .rightParen) (.endOfInput 6))) := by cbv
  refine ⟨hparse, ?_⟩
  obtain ⟨before, after, -, -, hcompletion, -⟩ := parse_error_earliest "x = (1" _ hparse
  obtain ⟨accepted, node, tokens, named, haccepted, htokens, hnamed, hprefix⟩ := hcompletion rfl
  exact ⟨accepted, node, tokens, before, named, haccepted, htokens, hnamed, hprefix⟩

end Formula
