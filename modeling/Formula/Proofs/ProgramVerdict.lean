import Formula.Parser.Program
import Formula.Proofs.Verdict

/-!
# What the parser of programs does

The statements of a source, read one after the other: `outcome_program` says that the parser takes
all tokens up to the one that closes the source as statements, or gets stuck where `StuckProgram`
says so, or runs into a lexical error.
-/

set_option autoImplicit false
set_option relaxedAutoImplicit false

namespace Formula.Parse

open Grammar

/-! ### Relations -/

theorem implements_relation (limit : Nat) :
    Implements limit limit .relation .relation (relation limit) := by
  intro state hlive
  have hexpression := (implements_expression_and_unary limit limit).1
  rw [relation]
  refine Outcome.bind hlive (hexpression state hlive) (fun _ _ _ h ↦ .left h) ?_
  rintro leftTokens left middle - hmiddle ⟨weights, hleft, hfits, hends⟩
  rw [run_lookahead_bind]
  by_cases hoperator : middle.current.kind.isRelational
  · rw [if_pos hoperator]
    have hcurrent := (Token.isInner_of_isRelational hoperator).not_isEndOfInput
    refine .forward_bind hmiddle hcurrent fun inner _ hinner _ ↦ ?_
    refine Outcome.bind hinner (hexpression inner hinner)
      (fun _ _ _ h ↦ .right hleft hfits hoperator h) ?_
    rintro tokens right final - - ⟨moreWeights, hright, hmore, hrightEnds⟩
    refine .pure ?_
    rw [List.append_nil]
    exact ⟨_, .relation hleft hoperator hright, fits_append hfits hmore,
      (hrightEnds.prepend hright.ne_nil _ _).mono (List.Subset.refl _)⟩
  · rw [if_neg hoperator]
    refine .fail ?_
    rw [List.append_nil]
    exact .comparison hleft hfits hends hoperator

/-! ### Line ends -/

theorem outcome_skipNewLinesFrom {count : Nat} {state : ParserState} (hlive : state.Live)
    (hcount : state.upcoming.size ≤ count) :
    Outcome state
      (fun lines _ next ↦ (∀ line ∈ lines, line.isNewLine) ∧ ¬ next.isNewLine)
      (fun _ _ ↦ False) ((skipNewLinesFrom count).run state) := by
  induction count generalizing state with
  | zero =>
    have hend := hlive.isEndOfInput (Nat.le_zero.mp hcount)
    exact .pure ⟨List.forall_mem_nil _, by simp_all⟩
  | succ count ih =>
    rw [skipNewLinesFrom, run_lookahead_bind]
    by_cases hline : state.current.isNewLine
    · rw [if_pos hline]
      refine .forward_bind hlive (by simp_all) fun middle _ hmiddle hsize ↦ ?_
      refine (ih hmiddle (by omega)).mono ?_ fun _ _ _ h ↦ h
      rintro lines - next ⟨hlines, hnext⟩
      exact ⟨List.forall_mem_cons.mpr ⟨hline, hlines⟩, hnext⟩
    · rw [if_neg hline]
      exact .pure ⟨List.forall_mem_nil _, hline⟩

theorem outcome_skipNewLines {state : ParserState} (hlive : state.Live) :
    Outcome state
      (fun lines _ next ↦ (∀ line ∈ lines, line.isNewLine) ∧ ¬ next.isNewLine)
      (fun _ _ ↦ False) (skipNewLines.run state) := by
  rw [skipNewLines, run_remaining_bind]
  exact outcome_skipNewLinesFrom hlive (Nat.le_refl _)

/-! ### Statements -/

/-- Outside line ends and the end of a source a statement is a relation; it takes the line ends
that follow it. -/
theorem outcome_statement {limit : Nat} {state : ParserState} (hlive : state.Live) :
    Outcome state
      (fun tokens node next ↦ ∃ weights, Taken weights tokens node next ∧
        Fits limit .relation weights)
      (fun tokens error ↦ ¬ (tokens.headD error.token).isNewLine ∧
        Stuck limit .relation limit tokens error)
      ((statement limit).run state) := by
  rw [statement, run_lookahead_bind]
  by_cases hline : state.current.isNewLine
  · rw [if_pos hline]
    refine Outcome.bind hlive (outcome_skipNewLines hlive) (fun _ _ _ h ↦ h.elim) ?_
    rintro lines - middle hreads - ⟨hlines, hnext⟩
    have hnonempty : lines ≠ [] := by
      rintro rfl
      have hhead := hreads.headD
      rw [List.headD_nil] at hhead
      exact hnext (hhead ▸ hline)
    refine .pure ?_
    rw [List.append_nil]
    exact ⟨[], .empty hnonempty hlines hnext, List.forall_mem_nil _⟩
  · rw [if_neg hline]
    refine Outcome.bind hlive (implements_relation limit state hlive)
      (fun _ _ hhead h ↦ ⟨hhead ▸ hline, h⟩) ?_
    rintro tokens node middle hreads hmiddle ⟨weights, hderives, hfits, hends⟩
    refine Outcome.bind hmiddle (outcome_skipNewLines hmiddle) (fun _ _ _ h ↦ h.elim) ?_
    rintro lines - final hlinesRead - ⟨hlines, hnext⟩
    refine .pure ?_
    rw [List.append_nil]
    exact ⟨weights, .relation hderives hlines (hlinesRead.headD ▸ hends) hnext, hfits⟩

/-- Whether a list of trees is read as statements from the tokens, up to the one that closes the
source. -/
def AcceptedAll (limit : Nat) (tokens : List Token) (nodes : List Node) (next : Token) : Prop :=
  next.isEndOfInput ∧ ∃ statements : List Statement, tokens = tokensOf statements ∧
    nodes = statements.map Statement.node ∧ Fits limit .relation (weightsOf statements) ∧
    TakenAll statements next

theorem acceptedAll_nil (limit : Nat) {next : Token} (hnext : next.isEndOfInput) :
    AcceptedAll limit [] [] next :=
  ⟨hnext, [], rfl, rfl, List.forall_mem_nil _, .nil next⟩

theorem outcome_untilEndFrom {limit count : Nat} {state : ParserState} (hlive : state.Live)
    (hcount : state.upcoming.size ≤ count) :
    Outcome state (AcceptedAll limit) (StuckProgram limit)
      ((untilEndFrom (statement limit) count).run state) := by
  induction count generalizing state with
  | zero => exact .pure (acceptedAll_nil limit (hlive.isEndOfInput (Nat.le_zero.mp hcount)))
  | succ count ih =>
    rw [untilEndFrom, run_lookahead_bind]
    by_cases hend : state.current.isEndOfInput
    · rw [if_pos hend]
      exact .pure (acceptedAll_nil limit hend)
    · rw [if_neg hend]
      refine Outcome.bind hlive (outcome_statement hlive)
        (fun _ _ hhead h ↦ .here (hhead ▸ hend) h.1 h.2) ?_
      rintro tokens node middle hreads hmiddle ⟨weights, htaken, hfits⟩
      have hlength := List.length_pos_iff.mpr htaken.derives.ne_nil
      have hrest := ih hmiddle (by have := hreads.size hlive; omega)
      refine Outcome.bind hmiddle hrest (fun _ _ hhead h ↦ .later (hhead ▸ htaken) hfits h) ?_
      rintro more nodes final hmore - ⟨hfinal, statements, rfl, rfl, hmoreFits, htakenAll⟩
      refine .pure ?_
      rw [List.append_nil]
      refine ⟨hfinal, ⟨weights, tokens, node, htaken.derives⟩ :: statements, rfl, rfl,
        fits_append hfits hmoreFits, .cons ?_ htakenAll⟩
      rw [hmore.headD]
      exact htaken

theorem outcome_program (limit : Nat) {state : ParserState} (hlive : state.Live) :
    Outcome state
      (fun tokens node next ↦ ∃ nodes, AcceptedAll limit tokens nodes next ∧
        node = ofStatements nodes)
      (StuckProgram limit) ((program limit).run state) := by
  rw [program, untilEnd, bind_assoc, run_remaining_bind]
  refine Outcome.bind hlive (outcome_untilEndFrom hlive (Nat.le_refl _)) (fun _ _ _ h ↦ h) ?_
  rintro tokens nodes final - - haccepted
  refine .pure ?_
  rw [List.append_nil]
  exact ⟨nodes, haccepted, rfl⟩

end Formula.Parse
