import Formula.Proofs.ProgramVerdict
import Formula.Proofs.Replay
import Formula.Proofs.SourceTokens

/-!
# Programs make the parser run

What the grammar says about the tokens of a source, carried over to the source itself: where its
tokens are statements each of which ends before the next one, the source is parsed into their tree
(`parseWithin_of_takenAll`), and where a reader of statements gets stuck on them, the source is
refused with the same error (`parseWithin_of_stuckProgram`). In the other direction every tree and
every error of a source come about in this way (`exists_takenAll_of_parseWithin`,
`exists_stuckProgram_of_parseWithin`).
-/

set_option autoImplicit false
set_option relaxedAutoImplicit false

namespace Formula.Parse

open Grammar

variable {limit : Nat} {before after : ParserState} {tokens : List Token}

/-! ### Statements -/

theorem run_skipNewLinesFrom {lines : List Token} {count : Nat} (hlive : before.Live)
    (hreads : Reads before lines after) (hlines : ∀ line ∈ lines, line.isNewLine)
    (hafter : ¬ after.current.isNewLine) (hcount : before.upcoming.size ≤ count) :
    (skipNewLinesFrom count).run before = .ok ((), after) := by
  induction lines generalizing before count with
  | nil =>
    cases hreads
    cases count with
    | zero => rfl
    | succ count =>
      rw [skipNewLinesFrom, run_lookahead_bind, if_neg hafter]
      rfl
  | cons line lines ih =>
    obtain ⟨hline, hothers⟩ := List.forall_mem_cons.mp hlines
    obtain ⟨rfl, hcurrent, middle, hforward, hrest⟩ := hreads.exists_cons
    obtain ⟨hmiddle, hsize⟩ := forward_next hlive hcurrent hforward
    obtain ⟨rounds, rfl⟩ := hlive.exists_round hcurrent hcount
    rw [skipNewLinesFrom, run_lookahead_bind, if_pos hline, run_bind_ok hforward]
    exact ih hmiddle hrest hothers (by omega)

theorem run_skipNewLines {lines : List Token} (hlive : before.Live)
    (hreads : Reads before lines after) (hlines : ∀ line ∈ lines, line.isNewLine)
    (hafter : ¬ after.current.isNewLine) : skipNewLines.run before = .ok ((), after) := by
  rw [skipNewLines, run_remaining_bind]
  exact run_skipNewLinesFrom hlive hreads hlines hafter (Nat.le_refl _)

theorem run_statement (limit : Nat) {weights : List Nat} {node : Node} (hlive : before.Live)
    (hreads : Reads before tokens after) (htaken : Taken weights tokens node after.current)
    (hfits : Fits limit .relation weights) :
    (statement limit).run before = .ok (node, after) := by
  generalize hnext : after.current = next at htaken
  cases htaken with
  | relation hderives hlines hends hafter =>
    obtain ⟨middle, hrelation, hskipped⟩ := hreads.exists_append
    rw [← hnext, hskipped.headD] at hends
    have hrun := runs_of_derives limit hderives hlive hrelation hfits hends rfl
    have hskip := run_skipNewLines (hrelation.live hlive) hskipped hlines (hnext ▸ hafter)
    have hline := (starts_of_reads hderives hrelation).isInner.not_isNewLine
    rw [statement, run_lookahead_bind, if_neg hline, run_bind_ok hrun, run_bind_ok hskip]
    rfl
  | empty hnonempty hlines hafter =>
    have hskip := run_skipNewLines hlive hreads hlines (hnext ▸ hafter)
    obtain ⟨line, more, rfl⟩ := List.exists_cons_of_ne_nil hnonempty
    have hline := hlines line List.mem_cons_self
    rw [← hreads.exists_cons.1] at hline
    rw [statement, run_lookahead_bind, if_pos hline, run_bind_ok hskip]
    rfl

/-! ### Programs -/

theorem not_isEndOfInput_of_reads (hreads : Reads before tokens after) (htokens : tokens ≠ []) :
    ¬ before.current.isEndOfInput := by
  obtain ⟨token, more, rfl⟩ := List.exists_cons_of_ne_nil htokens
  exact hreads.exists_cons.1 ▸ hreads.not_isEndOfInput token List.mem_cons_self

theorem run_untilEndFrom_next {weights : List Nat} {node : Node} {count : Nat}
    (hlive : before.Live) (hreads : Reads before tokens after)
    (htaken : Taken weights tokens node after.current) (hfits : Fits limit .relation weights)
    (hcount : before.upcoming.size ≤ count) :
    ∃ rounds, after.upcoming.size ≤ rounds ∧
      (untilEndFrom (statement limit) count).run before =
        (untilEndFrom (statement limit) rounds >>= fun others ↦
          return node :: others).run after := by
  have hrun := run_statement limit hlive hreads htaken hfits
  have hsize := hreads.size hlive
  have hlength := List.length_pos_iff.mpr htaken.derives.ne_nil
  have hcurrent := not_isEndOfInput_of_reads hreads htaken.derives.ne_nil
  obtain ⟨rounds, rfl⟩ := hlive.exists_round hcurrent hcount
  refine ⟨rounds, by omega, ?_⟩
  rw [untilEndFrom, run_lookahead_bind, if_neg hcurrent, run_bind_ok hrun]

theorem run_untilEndFrom {statements : List Statement} {count : Nat} (hlive : before.Live)
    (hreads : Reads before (tokensOf statements) after)
    (htaken : TakenAll statements after.current)
    (hfits : Fits limit .relation (weightsOf statements)) (hend : after.current.isEndOfInput)
    (hcount : before.upcoming.size ≤ count) :
    (untilEndFrom (statement limit) count).run before =
      .ok (statements.map Statement.node, after) := by
  generalize hnext : after.current = next at htaken
  induction htaken generalizing before count with
  | nil next =>
    cases hreads
    cases count with
    | zero => rfl
    | succ count =>
      rw [untilEndFrom, run_lookahead_bind, if_pos hend]
      rfl
  | @cons first others next htaken _ ih =>
    rw [tokensOf_cons] at hreads
    rw [weightsOf_cons] at hfits
    obtain ⟨hfirstFits, hmoreFits⟩ := List.forall_mem_append.mp hfits
    obtain ⟨middle, hfirst, hmore⟩ := hreads.exists_append
    rw [← hnext, hmore.headD] at htaken
    obtain ⟨rounds, hrounds, hrun⟩ := run_untilEndFrom_next hlive hfirst htaken hfirstFits hcount
    rw [hrun, run_bind_ok (ih (hfirst.live hlive) hmore hmoreFits hrounds hnext)]
    rfl

theorem run_program {statements : List Statement} (hlive : before.Live)
    (hreads : Reads before (tokensOf statements) after)
    (htaken : TakenAll statements after.current)
    (hfits : Fits limit .relation (weightsOf statements)) (hend : after.current.isEndOfInput) :
    (program limit).run before = .ok (ofStatements (statements.map Statement.node), after) := by
  have hrun := run_untilEndFrom hlive hreads htaken hfits hend (Nat.le_refl _)
  rw [program, untilEnd, bind_assoc, run_remaining_bind, run_bind_ok hrun]
  rfl

theorem run_untilEndFrom_error {error : ParseError} {count : Nat} (hlive : before.Live)
    (hreads : Reads before tokens after) (hstuck : StuckProgram limit tokens error)
    (htoken : after.current = error.token) (hcount : before.upcoming.size ≤ count) :
    (untilEndFrom (statement limit) count).run before = .error (.grammatical error) := by
  induction hstuck generalizing before count with
  | here hend hline hstuck =>
    rw [← htoken, hreads.headD] at hend hline
    have hrun := refuses_of_stuck hstuck hlive hreads htoken rfl
    obtain ⟨rounds, rfl⟩ := hlive.exists_round hend hcount
    rw [untilEndFrom, run_lookahead_bind, if_neg hend]
    refine run_bind_error ?_
    rw [statement, run_lookahead_bind, if_neg hline, run_bind_error hrun]
  | later htaken hfits _ ih =>
    obtain ⟨middle, hfirst, hmore⟩ := hreads.exists_append
    rw [← htoken, hmore.headD] at htaken
    obtain ⟨rounds, hrounds, hrun⟩ := run_untilEndFrom_next hlive hfirst htaken hfits hcount
    rw [hrun, run_bind_error (ih (hfirst.live hlive) hmore htoken hrounds)]

theorem run_program_error {error : ParseError} (hlive : before.Live)
    (hreads : Reads before tokens after) (hstuck : StuckProgram limit tokens error)
    (htoken : after.current = error.token) :
    (program limit).run before = .error (.grammatical error) := by
  have hrun := run_untilEndFrom_error hlive hreads hstuck htoken (Nat.le_refl _)
  rw [program, untilEnd, bind_assoc, run_remaining_bind, run_bind_error hrun]

/-! ### Sources -/

theorem parseWithin_of_start {source : String} (hstart : start source = .ok before) :
    parseWithin limit source = ((program limit).run before).map Prod.fst := by
  rw [parseWithin, hstart]
  change ((program limit).run before >>= fun result ↦ pure result.1) = _
  cases (program limit).run before with
  | ok result => rfl
  | error error => rfl

theorem parseWithin_of_start_error {source : String} {error : SyntaxError}
    (hstart : start source = .error error) : parseWithin limit source = .error error := by
  rw [parseWithin, hstart]
  rfl

theorem parseWithin_of_takenAll {source : String} {statements : List Statement} {closing : Token}
    (htokens : tokenize source = .ok (tokensOf statements ++ [closing]))
    (htaken : TakenAll statements closing)
    (hfits : Fits limit .relation (weightsOf statements)) :
    parseWithin limit source = .ok (ofStatements (statements.map Statement.node)) := by
  rcases start_cases source with ⟨state, hstart, hlive, -, hstream⟩ | ⟨error, -, herror, -⟩
  · rw [yielded_of_tokenize htokens] at hstream
    obtain ⟨final, hreads, rfl⟩ := exists_reads_of_yielded hlive hstream.symm
    have hend := isEndOfInput_of_tokenize htokens
    rw [parseWithin_of_start hstart, run_program hlive hreads htaken hfits hend]
    rfl
  · rw [herror] at htokens
    cases htokens

theorem parseWithin_of_stuckProgram {source : String} {error : ParseError} {more : List Token}
    (hyielded : (TokenStream.ofSource source).yielded = tokens ++ error.token :: more)
    (hstuck : StuckProgram limit tokens error) :
    parseWithin limit source = .error (.grammatical error) := by
  rcases start_cases source with ⟨state, hstart, hlive, -, hstream⟩ | ⟨_, -, -, hnil⟩
  · rw [hyielded] at hstream
    obtain ⟨final, hreads, htoken⟩ := exists_reads_of_yielded hlive hstream.symm
    rw [parseWithin_of_start hstart, run_program_error hlive hreads hstuck htoken]
    rfl
  · rw [hnil] at hyielded
    simp at hyielded

theorem exists_takenAll_of_parseWithin {source : String} {node : Node}
    (h : parseWithin limit source = .ok node) :
    ∃ statements closing, tokenize source = .ok (tokensOf statements ++ [closing]) ∧
      (∀ token ∈ tokensOf statements, ¬ token.isEndOfInput) ∧ TakenAll statements closing ∧
      Fits limit .relation (weightsOf statements) ∧
      node = ofStatements (statements.map Statement.node) := by
  rcases start_cases source with ⟨state, hstart, hlive, htokenize, -⟩ | ⟨error, hstart, -⟩
  · rw [parseWithin_of_start hstart] at h
    obtain ⟨⟨value, final⟩, hrun, rfl⟩ := exists_of_map_eq_ok h
    have houtcome := outcome_program limit hlive
    rw [hrun] at houtcome
    obtain ⟨tokens, hreads, nodes, ⟨hend, statements, rfl, rfl, hfits, htaken⟩, rfl⟩ := houtcome
    exact ⟨statements, final.current, htokenize.trans (toTokens_of_reads hlive hreads hend),
      hreads.not_isEndOfInput, htaken, hfits, rfl⟩
  · rw [parseWithin_of_start_error hstart] at h
    cases h

theorem exists_stuckProgram_of_parseWithin {source : String} {error : ParseError}
    (h : parseWithin limit source = .error (.grammatical error)) :
    ∃ tokens more, (TokenStream.ofSource source).yielded = tokens ++ error.token :: more ∧
      (∀ token ∈ tokens, ¬ token.isEndOfInput) ∧ StuckProgram limit tokens error := by
  rcases start_cases source with ⟨state, hstart, hlive, -, hstream⟩ | ⟨_, hstart, -⟩
  · have houtcome := outcome_program limit hlive
    rw [parseWithin_of_start hstart] at h
    match hrun : (program limit).run state with
    | .ok _ =>
      rw [hrun] at h
      cases h
    | .error failure =>
      rw [hrun] at h houtcome
      cases h
      obtain ⟨tokens, final, hreads, htoken, hstuck⟩ := houtcome
      exact ⟨tokens, final.upcoming.yielded,
        hstream.trans (htoken ▸ yielded_of_reads hlive hreads), hreads.not_isEndOfInput, hstuck⟩
  · rw [parseWithin_of_start_error hstart] at h
    cases h

/-- A parse error is found again where the tokens of a source go on. -/
theorem parseWithin_of_yielded_isPrefix {source longer : String} {error : ParseError}
    (h : parseWithin limit source = .error (.grammatical error))
    (hstarts : (TokenStream.ofSource source).yielded <+: (TokenStream.ofSource longer).yielded) :
    parseWithin limit longer = .error (.grammatical error) := by
  obtain ⟨tokens, more, hyielded, -, hstuck⟩ := exists_stuckProgram_of_parseWithin h
  obtain ⟨others, hothers⟩ := hstarts
  rw [hyielded, List.append_assoc, List.cons_append] at hothers
  exact parseWithin_of_stuckProgram hothers.symm hstuck

theorem tokenize_of_parseWithin {source : String} {error : LexError}
    (h : parseWithin limit source = .error (.lexical error)) :
    tokenize source = .error error := by
  rcases start_cases source with
    ⟨state, hstart, hlive, htokenize, -⟩ | ⟨failure, hstart, htokenize, -⟩
  · have houtcome := outcome_program limit hlive
    rw [parseWithin_of_start hstart] at h
    match hrun : (program limit).run state with
    | .ok _ =>
      rw [hrun] at h
      cases h
    | .error _ =>
      rw [hrun] at h houtcome
      cases h
      rw [htokenize, toTokens_of_breaks hlive houtcome]
  · rw [parseWithin_of_start_error hstart] at h
    cases h
    exact htokenize

end Formula.Parse
