import Mathlib
import Formula.Proofs.Nesting
import Formula.Proofs.ProgramReplay

/-!
# Trees are derivations

The parser gives a tree exactly for the programs of the grammar. Every tree that it gives is a
derivation of all tokens of the source (`derivesProgram_of_parse`). In the other direction the
tokens of a source decide what it gives (`parse_of_tokenize`): if they make up a program whose
relations are separated by line ends, it is the tree of this program, with every run of line ends
taken as a whole, or a refusal because of a path that is heavier than the nesting limit allows.
-/

set_option autoImplicit false
set_option relaxedAutoImplicit false

namespace Formula

open Grammar Parse

namespace Grammar

theorem treeOf_eq_ofStatements (nodes : List Node) : treeOf nodes = ofStatements nodes := by
  match nodes with
  | [] => rfl
  | [_] => rfl
  | _ :: _ :: _ => rfl

/-! ### Runs of line ends -/

theorem DerivesStatement.append_lines {weights : List Nat} {tokens lines : List Token} {node : Node}
    (h : DerivesStatement weights tokens node) (hlines : ∀ line ∈ lines, line.isNewLine) :
    DerivesStatement weights (tokens ++ lines) node := by
  cases h with
  | relation hderives hbefore =>
    rw [List.append_assoc]
    exact .relation hderives (List.forall_mem_append.mpr ⟨hbefore, hlines⟩)
  | empty hnonempty hbefore =>
    exact .empty (List.append_ne_nil_of_left_ne_nil hnonempty _)
      (List.forall_mem_append.mpr ⟨hbefore, hlines⟩)

/-- A statement with line ends behind it takes all of them. -/
theorem DerivesStatement.taken_append_lines {weights : List Nat} {tokens lines : List Token}
    {node : Node} {next : Token} (h : DerivesStatement weights tokens node) (hnonempty : lines ≠ [])
    (hlines : ∀ line ∈ lines, line.isNewLine) (hnext : ¬ next.isNewLine) :
    Taken weights (tokens ++ lines) node next := by
  refine (h.append_lines hlines).taken (.inl ?_) hnext
  rw [List.getLast?_append_of_ne_nil _ hnonempty, List.getLast?_eq_some_getLast hnonempty]
  exact ⟨_, rfl, hlines _ (List.getLast_mem hnonempty)⟩

theorem Statement.isBlank_iff (statement : Statement) :
    statement.isBlank ↔ statement.weights = [] ∧ statement.node = .empty ∧
      ∀ line ∈ statement.tokens, line.isNewLine := by
  obtain ⟨weights, tokens, node, derives⟩ := statement
  cases derives with
  | relation hderives _ =>
    cases hderives with
    | relation => simp [isBlank]
  | empty _ hlines => simpa [isBlank] using hlines

theorem Statement.exists_cons_of_not_isBlank {statement : Statement} (h : ¬ statement.isBlank) :
    ∃ first rest, statement.tokens = first :: rest ∧ ¬ first.isNewLine := by
  obtain ⟨weights, tokens, node, derives⟩ := statement
  cases derives with
  | relation hderives _ =>
    obtain ⟨first, rest, rfl, hstarts⟩ := hderives.starts
    exact ⟨first, _, rfl, hstarts.isInner.not_isNewLine⟩
  | empty => exact absurd rfl h

theorem nodesOf_cons_cons_of_isBlank (first second : Statement) (others : List Statement)
    (h : second.isBlank) :
    nodesOf (first :: second :: others) = nodesOf (first :: others) := by
  rw [nodesOf, nodesOf, List.filter_cons_of_neg (by simpa using h)]

theorem nodesOf_cons_cons_of_not_isBlank (first second : Statement) (others : List Statement)
    (h : ¬ second.isBlank) :
    nodesOf (first :: second :: others) = first.node :: nodesOf (second :: others) := by
  rw [nodesOf, nodesOf, List.filter_cons_of_pos (by simpa using h), List.map_cons]

/-- In front of a relation the line end that separates two statements belongs to the first one. -/
theorem Statement.Separated.exists_getLast? {first second : Statement}
    (h : first.Separated second) (hsecond : ¬ second.isBlank) :
    ∃ last ∈ first.tokens.getLast?, last.isNewLine := by
  rcases h with hlast | ⟨next, hnext, hline⟩
  · exact hlast
  · obtain ⟨start, rest, hstart, hstartLine⟩ := Statement.exists_cons_of_not_isBlank hsecond
    rw [hstart, List.head?_cons, Option.mem_some] at hnext
    exact absurd hline (hnext ▸ hstartLine)

/-- A run of line ends can be added to the statement in front of it. -/
theorem TakenAll.exists_joined {first blank : Statement} {others : List Statement}
    {closing : Token} (h : TakenAll (blank :: others) closing) (hblank : blank.isBlank) :
    ∃ joined : Statement, joined.tokens = first.tokens ++ blank.tokens ∧
      joined.weights = first.weights ++ blank.weights ∧ joined.node = first.node ∧
      TakenAll (joined :: others) closing := by
  obtain ⟨hweights, -, hlines⟩ := blank.isBlank_iff.mp hblank
  cases h with
  | cons htaken hothers =>
  have hjoined := first.derives.taken_append_lines blank.derives.ne_nil hlines htaken.not_isNewLine
  refine ⟨⟨_, _, _, hjoined.derives⟩, rfl, ?_, rfl, .cons hjoined hothers⟩
  rw [hweights, List.append_nil]

/-- A statement that ends in a line end can stand in front of a relation. -/
theorem TakenAll.cons_of_getLast? {first second : Statement} {others : List Statement}
    {closing : Token} (h : TakenAll (second :: others) closing) (hsecond : ¬ second.isBlank)
    (hends : ∃ last ∈ first.tokens.getLast?, last.isNewLine) :
    TakenAll (first :: second :: others) closing := by
  obtain ⟨start, rest, hstart, hline⟩ := Statement.exists_cons_of_not_isBlank hsecond
  have hnext : (tokensOf (second :: others)).headD closing = start := by
    rw [tokensOf_cons, hstart]
    rfl
  exact .cons (hnext ▸ first.derives.taken (.inl hends) hline) h

/-- Statements with line ends between their relations can be cut in such a way that each of them
ends before the next one: every statement takes the line ends that follow it. -/
theorem exists_takenAll {statements : List Statement} {closing : Token}
    (hclosing : closing.isEndOfInput) (hseparated : statements.IsChain Statement.Separated) :
    ∃ taken, tokensOf taken = tokensOf statements ∧ weightsOf taken = weightsOf statements ∧
      taken.map Statement.node = nodesOf statements ∧ TakenAll taken closing := by
  have hclosingLine : ¬ closing.isNewLine := by simp_all
  induction statements with
  | nil => exact ⟨[], rfl, rfl, rfl, .nil closing⟩
  | cons first others ih =>
    obtain ⟨taken, htokens, hweights, hnodes, htaken⟩ := ih hseparated.of_cons
    match others, taken with
    | [], [] =>
      have hfirst := first.derives.taken (.inr (stops_of_isEndOfInput hclosing)) hclosingLine
      exact ⟨[first], rfl, rfl, rfl, .cons hfirst htaken⟩
    | [], _ :: _ => cases hnodes
    | second :: others, [] => cases hnodes
    | second :: others, kept :: more =>
      obtain ⟨hkept, hmore⟩ := List.cons.inj hnodes
      have hblank : kept.isBlank = second.isBlank := by rw [Statement.isBlank, hkept]; rfl
      by_cases hsecond : second.isBlank
      · obtain ⟨joined, hjoinedTokens, hjoinedWeights, hjoinedNode, hjoined⟩ :=
          htaken.exists_joined (hblank ▸ hsecond)
        refine ⟨joined :: more, ?_, ?_, ?_, hjoined⟩
        · rw [tokensOf_cons, hjoinedTokens, List.append_assoc, ← tokensOf_cons, htokens,
            ← tokensOf_cons]
        · rw [weightsOf_cons, hjoinedWeights, List.append_assoc, ← weightsOf_cons, hweights,
            ← weightsOf_cons]
        · rw [nodesOf_cons_cons_of_isBlank first second others hsecond, List.map_cons,
            hjoinedNode, hmore, nodesOf]
      · have hends := hseparated.rel.exists_getLast? hsecond
        refine ⟨first :: kept :: more, ?_, ?_, ?_,
          htaken.cons_of_getLast? (hblank ▸ hsecond) hends⟩
        · rw [tokensOf_cons, htokens, ← tokensOf_cons]
        · rw [weightsOf_cons, hweights, ← weightsOf_cons]
        · rw [nodesOf_cons_cons_of_not_isBlank first second others hsecond, List.map_cons, hnodes]

end Grammar

/-! ### Sources -/

/-- A tree of a source derives from all its tokens but the one that closes it. -/
theorem derivesProgram_of_parse (source : String) (node : Node) (h : parse source = .ok node) :
    ∃ tokens, tokenize source = .ok (tokens ++ [.endOfInput source.utf8ByteSize]) ∧
      (∀ token ∈ tokens, ¬ token.isEndOfInput) ∧ DerivesProgram tokens node := by
  obtain ⟨statements, closing, htokens, hinner, -, -, rfl⟩ := exists_takenAll_of_parseWithin h
  rw [closing_of_tokenize htokens] at htokens
  exact ⟨tokensOf statements, htokens, hinner, statements, rfl,
    (treeOf_eq_ofStatements _).symm⟩

/-- A sign applies to the whole power behind it. -/
theorem derivesProgram_of_parse_sign :
    let base := Node.atom (.value (.identifier "x" 1))
    let exponent := Node.atom (.value (.number "2" 6))
    let power := Node.apply (.callTarget (.ofOperator .power 3)) [base, exponent]
    let node := Node.relation (.apply (.callTarget (.ofOperator .minus 0)) [power])
      (.callTarget (.ofOperator .equal 8)) (.atom (.value (.identifier "y" 10)))
    parse "-x ** 2 = y" = .ok node ∧ ∃ tokens, DerivesProgram tokens node := by
  intro base exponent power node
  have hparse : parse "-x ** 2 = y" = .ok node := by cbv
  obtain ⟨tokens, -, -, hderives⟩ := derivesProgram_of_parse "-x ** 2 = y" node hparse
  exact ⟨hparse, tokens, hderives⟩

/-- The tokens of a program whose relations are separated by line ends decide what the parser does.
If no path is heavier than two less than the nesting limit, it gives the tree of the program with
every run of line ends taken as a whole; otherwise it reports that the nesting is too deep. -/
theorem parse_of_tokenize (source : String) (statements : List Statement) (closing : Token)
    (hseparated : statements.IsChain Statement.Separated)
    (htokens : tokenize source = .ok (tokensOf statements ++ [closing])) :
    ((∀ weight ∈ weightsOf statements, weight ≤ 254) →
      parse source = .ok (treeOf (nodesOf statements))) ∧
    ((∃ weight ∈ weightsOf statements, 254 < weight) →
      ∃ error, parse source = .error (.grammatical error) ∧ error.code = .nestingTooDeep ∧
        error.expected = .nestingDepth 256) := by
  have hclosing := isEndOfInput_of_tokenize htokens
  obtain ⟨taken, htaken, hweights, hnodes, htakenAll⟩ := exists_takenAll hclosing hseparated
  rw [← htaken] at htokens
  rw [← hweights, ← hnodes, treeOf_eq_ofStatements]
  constructor
  · intro hweight
    refine parseWithin_of_takenAll htokens htakenAll fun weight hmem ↦ ?_
    exact Nat.add_le_add_right (hweight weight hmem) 2
  · rintro ⟨weight, hmem, hweight⟩
    have hfits : ¬ Fits maxNesting .relation (weightsOf taken) := by
      intro hfits
      have hlevels : weight + 2 ≤ 256 := hfits weight hmem
      omega
    obtain ⟨before, token, after, hbefore, hstuck⟩ :=
      exists_stuckProgram_of_not_fits htakenAll hfits
    rw [hbefore, List.append_assoc, List.cons_append] at htokens
    exact ⟨_, parseWithin_of_stuckProgram (yielded_of_tokenize htokens) hstuck, rfl, rfl⟩

/-- Two line ends behind a relation are one run, even where the grammar could tell them apart. -/
theorem parse_of_tokenize_lines :
    let name := Token.identifier "x" 0
    let operator := Token.ofOperator .equal 2
    let value := Token.number "1" 4
    ∃ statements : List Statement, statements.length = 2 ∧
      tokenize "x = 1\n\n" = .ok (tokensOf statements ++ [.endOfInput 7]) ∧
      parse "x = 1\n\n" =
        .ok (.relation (.atom (.value name)) (.callTarget operator) (.atom (.value value))) := by
  intro name operator value
  have hleft : Derives [0] [name] _ := derives_operand rfl
  have hright : Derives [0] [value] _ := derives_operand rfl
  have hoperator : operator.kind.isRelational := rfl
  have hrelation : Derives [0, 0] [name, operator, value] _ := .relation hleft hoperator hright
  have hlines : ∀ line ∈ [(⟨.newLine, "\n", 5⟩ : Token)], line.isNewLine := by simp
  have hblank : ∀ line ∈ [(⟨.newLine, "\n", 6⟩ : Token)], line.isNewLine := by simp
  let statements : List Statement := [⟨_, _, _, .relation hrelation hlines⟩,
    ⟨_, _, _, .empty (List.cons_ne_nil _ _) hblank⟩]
  have hseparated : statements.IsChain Statement.Separated :=
    .cons_cons (.inl ⟨_, rfl, rfl⟩) (.singleton _)
  have htokens : tokenize "x = 1\n\n" = .ok (tokensOf statements ++ [.endOfInput 7]) := by
    change _ = Except.ok ([name, operator, value, ⟨.newLine, "\n", 5⟩, ⟨.newLine, "\n", 6⟩,
      .endOfInput 7] : List Token)
    cbv
  have hweights : ∀ weight ∈ [0, 0], weight ≤ 254 := by decide
  exact ⟨statements, rfl, htokens,
    (parse_of_tokenize "x = 1\n\n" statements (.endOfInput 7) hseparated htokens).1 hweights⟩

end Formula
