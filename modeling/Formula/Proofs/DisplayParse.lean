import Formula.Proofs.Commas
import Formula.Proofs.DisplayTokens
import Formula.Proofs.EarliestError

/-!
# Parsing the structural form

The structural form of the tree of a source is never parsed as another tree (`parse_display`). A
tree in which no operator is applied to two arguments is derived from the tokens of its structural
form (`IsExpression.displayDerives`), so that only the nesting limit can refuse them. An operation
is written with its arguments in parentheses, and the comma between them stands outside of a list
because no name or number is in front of the parenthesis (`IsExpression.fails`).
-/

set_option autoImplicit false
set_option relaxedAutoImplicit false

namespace Formula

open Grammar Parse Text

namespace Token

theorem is_ofOperator (operator : Operator) (position : Nat) :
    (ofOperator operator position).is operator := by
  simp [ofOperator]

theorem isRelational_of_isOneOf {token : Token} (h : token.isOneOf comparisons) :
    token.kind.isRelational := by
  obtain ⟨operator, hmem, hkind⟩ := (isOneOf_iff token comparisons).mp h
  have hrelational : ∀ operator ∈ comparisons, operator.isRelational := by decide
  rw [hkind]
  exact hrelational operator hmem

theorem isOperand_of_isNameOrNumber {token : Token} (h : token.IsNameOrNumber) :
    token.kind.isOperand := by
  rcases h with h | h <;> rw [h] <;> rfl

theorem isNewLine_lineEnd : lineEnd.isNewLine :=
  rfl

end Token

/-! ### Operations -/

namespace Node

mutual

/-- Whether an operator is applied to two arguments somewhere in a tree. -/
def hasOperation : Node → Bool
  | .apply function arguments =>
    (function.operator?.isSome && arguments.length == 2) || anyHasOperation arguments
  | .vector elements => anyHasOperation elements
  | .set elements => anyHasOperation elements
  | .relation left _ right => left.hasOperation || right.hasOperation
  | .sequence statements => anyHasOperation statements
  | .atom _ | .empty => false

/-- Whether an operator is applied to two arguments in one of several trees. -/
def anyHasOperation : List Node → Bool
  | [] => false
  | node :: others => node.hasOperation || anyHasOperation others

end

theorem anyHasOperation_eq_any (nodes : List Node) :
    anyHasOperation nodes = nodes.any hasOperation := by
  induction nodes with
  | nil => rfl
  | cons node others ih => rw [anyHasOperation, List.any_cons, ih]

theorem not_anyHasOperation {nodes : List Node} :
    ¬ anyHasOperation nodes ↔ ∀ node ∈ nodes, ¬ node.hasOperation := by
  rw [anyHasOperation_eq_any, Bool.not_eq_true, List.any_eq_false]

theorem hasOperation_ofStatements (nodes : List Node) :
    (ofStatements nodes).hasOperation = nodes.any hasOperation := by
  match nodes with
  | [] => rfl
  | [only] => simp [ofStatements]
  | first :: second :: others =>
    change (Node.sequence (first :: second :: others)).hasOperation = _
    rw [hasOperation, anyHasOperation_eq_any]

theorem hasOperation_call {function : Token} (h : function.IsNameOrNumber)
    (arguments : List Node) :
    (Node.apply (.callTarget function) arguments).hasOperation = anyHasOperation arguments := by
  have hnone : function.kind.operator? = none := by
    rcases h with h | h <;> rw [h] <;> rfl
  rw [hasOperation, Atom.operator?, Atom.callTarget, hnone]
  rfl

theorem hasOperation_sign (sign : Token) (operand : Node) :
    (Node.apply (.callTarget sign) [operand]).hasOperation = operand.hasOperation := by
  simp [hasOperation, anyHasOperation]

theorem hasOperation_operation {operator : Token} {operators : List Token.Operator}
    (h : operator.isOneOf operators) (left right : Node) :
    (Node.apply (.callTarget operator) [left, right]).hasOperation := by
  rw [hasOperation, Bool.or_eq_true, Bool.and_eq_true]
  exact .inl ⟨Token.isOperator_of_isOneOf h, rfl⟩

theorem displayTokens_sign (sign : Token) (operand : Node) :
    (Node.apply (.callTarget sign) [operand]).displayTokens =
      sign :: .ofOperator .leftParen 0 ::
        (operand.displayTokens ++ [.ofOperator .rightParen 0]) := by
  rw [displayTokens, displayTokensEach, displayTokensEach, Token.commaSeparated_singleton,
    Atom.callTarget]

theorem displayTokens_operation (operator : Token) (left right : Node) :
    (Node.apply (.callTarget operator) [left, right]).displayTokens =
      operator :: .ofOperator .leftParen 0 ::
        (left.displayTokens ++ .ofOperator .comma 0 :: right.displayTokens ++
          [.ofOperator .rightParen 0]) := by
  rw [displayTokens, displayTokensEach, displayTokensEach, displayTokensEach,
    Token.commaSeparated_cons_cons, Token.commaSeparated_singleton, Atom.callTarget]

/-! ### Trees without operations -/

/-- Whether the structural form of a tree is derived as the tree, and without the rule for
containers if it is none. -/
def DisplayDerives (node : Node) : Prop :=
  ∃ weights, Derives weights node.displayTokens (.expression node) ∧
    (¬ isContainer node → Derives weights node.displayTokens (.unary node))

theorem DisplayDerives.of_unary {weights : List Nat} {node : Node}
    (h : Derives weights node.displayTokens (.unary node)) : node.DisplayDerives :=
  ⟨weights, .expression (.sum (.product h)), fun _ ↦ h⟩

theorem DisplayDerives.of_call {weights : List Nat} {node : Node}
    (h : Derives weights node.displayTokens (.call node)) : node.DisplayDerives :=
  .of_unary (.unary (.power (.primary h)))

/-- Items that are derived one by one are derived together. -/
theorem exists_derives_items {nodes : List Node} (hnodes : nodes ≠ [])
    (h : ∀ node ∈ nodes, node.DisplayDerives) :
    ∃ weights, Derives weights (Token.commaSeparated (displayTokensEach nodes)) (.items nodes) := by
  induction nodes with
  | nil => exact absurd rfl hnodes
  | cons first others ih =>
    obtain ⟨⟨firstWeights, hfirst, -⟩, hothers⟩ := List.forall_mem_cons.mp h
    cases others with
    | nil =>
      rw [displayTokensEach, displayTokensEach, Token.commaSeparated_singleton]
      exact ⟨firstWeights, .item hfirst⟩
    | cons second others =>
      obtain ⟨weights, hitems⟩ := ih (List.cons_ne_nil _ _) hothers
      rw [displayTokensEach] at hitems ⊢
      rw [displayTokensEach, Token.commaSeparated_cons_cons]
      exact ⟨firstWeights ++ weights, .nextItem hfirst (Token.is_ofOperator _ _) hitems⟩

/-- The structural form of an expression without operations is derived as the expression. -/
theorem IsExpression.displayDerives {node : Node} (h : node.IsExpression)
    (hnone : ¬ node.hasOperation) : node.DisplayDerives := by
  induction h with
  | atom hoperand => exact .of_call (.operand (Token.isOperand_of_isNameOrNumber hoperand))
  | @call function arguments hfunction _ ih =>
    have hoperand := Token.isOperand_of_isNameOrNumber hfunction
    rw [hasOperation_call hfunction, not_anyHasOperation] at hnone
    have harguments (argument : Node) (hmem : argument ∈ arguments) : argument.DisplayDerives :=
      ih argument hmem (hnone argument hmem)
    cases arguments with
    | nil =>
      exact .of_call (.emptyCall hoperand (Token.is_ofOperator _ _) (Token.is_ofOperator _ _))
    | cons first others =>
      obtain ⟨weights, hderives⟩ := exists_derives_items (List.cons_ne_nil _ _) harguments
      exact .of_call (.call hoperand (Token.is_ofOperator _ _) hderives (Token.is_ofOperator _ _))
  | @sign sign operand hsign _ hcontainer ih =>
    rw [hasOperation_sign] at hnone
    obtain ⟨weights, -, hderives⟩ := ih hnone
    have hgroup := Derives.group (Token.is_ofOperator .leftParen 0)
      (.sum (.product (hderives hcontainer))) (Token.is_ofOperator .rightParen 0)
    have hsigned := Derives.sign hsign (.unary (.power hgroup))
    rw [← displayTokens_sign] at hsigned
    exact .of_unary hsigned
  | operation hoperator => exact absurd (hasOperation_operation hoperator _ _) hnone
  | vector hnonempty _ ih =>
    rw [hasOperation, not_anyHasOperation] at hnone
    obtain ⟨weights, hderives⟩ := exists_derives_items hnonempty fun element hmem ↦
      ih element hmem (hnone element hmem)
    exact ⟨_, .vector (Token.is_ofOperator _ _) hderives (Token.is_ofOperator _ _),
      fun hcontainer ↦ absurd rfl hcontainer⟩
  | set hnonempty _ ih =>
    rw [hasOperation, not_anyHasOperation] at hnone
    obtain ⟨weights, hderives⟩ := exists_derives_items hnonempty fun element hmem ↦
      ih element hmem (hnone element hmem)
    exact ⟨_, .set (Token.is_ofOperator _ _) hderives (Token.is_ofOperator _ _),
      fun hcontainer ↦ absurd rfl hcontainer⟩

theorem IsRelation.exists_derives {node : Node} (h : node.IsRelation)
    (hnone : ¬ node.hasOperation) :
    ∃ weights, Derives weights node.displayTokens (.relation node) := by
  cases h with
  | relation hoperator hleft hright =>
  rw [hasOperation, Bool.or_eq_true, not_or] at hnone
  obtain ⟨leftWeights, hleftDerives, -⟩ := hleft.displayDerives hnone.1
  obtain ⟨rightWeights, hrightDerives, -⟩ := hright.displayDerives hnone.2
  rw [displayTokens]
  exact ⟨_, .relation hleftDerives (Token.isRelational_of_isOneOf hoperator) hrightDerives⟩

end Node

/-! ### Programs without operations -/

/-- A statement with a line end behind it can stand in front of a relation. -/
theorem exists_takenAll_cons {weights : List Nat} {tokens : List Token} {first second : Node}
    {others : List Node} {taken : List Statement} {closing : Token}
    (h : DerivesStatement weights (tokens ++ [.lineEnd]) first) (hsecond : second.IsRelation)
    (htokens : tokensOf taken =
      [Token.lineEnd].intercalate ((second :: others).map Node.displayTokens))
    (hnodes : taken.map Statement.node = second :: others) (htaken : TakenAll taken closing) :
    ∃ all : List Statement,
      tokensOf all =
        [Token.lineEnd].intercalate (tokens :: (second :: others).map Node.displayTokens) ∧
      all.map Statement.node = first :: second :: others ∧ TakenAll all closing := by
  obtain ⟨kept, more, rfl, hkept, -⟩ := List.map_eq_cons_iff.mp hnodes
  have hblank : ¬ kept.isBlank := by
    rw [Statement.isBlank, hkept]
    cases hsecond
    exact Bool.false_ne_true
  refine ⟨⟨_, _, _, h⟩ :: kept :: more, ?_, ?_, htaken.cons_of_getLast? hblank ?_⟩
  · rw [tokensOf_cons, htokens, List.map_cons, List.intercalate_cons_cons]
  · rw [List.map_cons, hnodes]
  · exact ⟨.lineEnd, by simp, rfl⟩

/-- The structural forms of relations without operations are taken one after the other. -/
theorem exists_takenAll_of_relations {nodes : List Node} {closing : Token}
    (hclosing : closing.isEndOfInput) (hnodes : ∀ node ∈ nodes, node.IsRelation)
    (hnone : ∀ node ∈ nodes, ¬ node.hasOperation) :
    ∃ taken : List Statement,
      tokensOf taken = [Token.lineEnd].intercalate (nodes.map Node.displayTokens) ∧
      taken.map Statement.node = nodes ∧ TakenAll taken closing := by
  induction nodes with
  | nil => exact ⟨[], rfl, rfl, .nil closing⟩
  | cons first others ih =>
    obtain ⟨hfirst, hothers⟩ := List.forall_mem_cons.mp hnodes
    obtain ⟨hfirstNone, hothersNone⟩ := List.forall_mem_cons.mp hnone
    obtain ⟨weights, hderives⟩ := hfirst.exists_derives hfirstNone
    cases others with
    | nil =>
      refine ⟨[.ofRelation hderives], ?_, rfl, takenAll_ofRelation hderives hclosing⟩
      rw [tokensOf_ofRelation, List.map_singleton, List.intercalate_singleton]
    | cons second others =>
      obtain ⟨taken, htokens, htakenNodes, htaken⟩ := ih hothers hothersNone
      exact exists_takenAll_cons
        (.relation hderives (List.forall_mem_singleton.mpr Token.isNewLine_lineEnd))
        (hothers second List.mem_cons_self) htokens htakenNodes htaken

/-- The structural form of a program without operations is taken statement by statement. -/
theorem exists_takenAll_display {first : Node} {others : List Node} {closing : Token}
    (hclosing : closing.isEndOfInput) (hfirst : first = .empty ∨ first.IsRelation)
    (hothers : ∀ node ∈ others, node.IsRelation)
    (hnone : ∀ node ∈ first :: others, ¬ node.hasOperation) :
    ∃ taken : List Statement,
      tokensOf taken = (ofStatements (first :: others)).displayTokens ∧
      ofStatements (taken.map Statement.node) = ofStatements (first :: others) ∧
      TakenAll taken closing := by
  obtain ⟨hfirstNone, hothersNone⟩ := List.forall_mem_cons.mp hnone
  rw [Node.displayTokens_ofStatements]
  rcases hfirst with rfl | hfirst
  · obtain ⟨taken, htokens, hnodes, htaken⟩ :=
      exists_takenAll_of_relations hclosing hothers hothersNone
    cases others with
    | nil => exact ⟨[], rfl, rfl, .nil closing⟩
    | cons second others =>
      have hempty : DerivesStatement [] ([] ++ [.lineEnd]) .empty :=
        .empty (List.cons_ne_nil _ _) (List.forall_mem_singleton.mpr Token.isNewLine_lineEnd)
      obtain ⟨all, hall, hallNodes, hallTaken⟩ := exists_takenAll_cons hempty
        (hothers second List.mem_cons_self) htokens hnodes htaken
      exact ⟨all, hall, by rw [hallNodes], hallTaken⟩
  · obtain ⟨taken, htokens, hnodes, htaken⟩ := exists_takenAll_of_relations hclosing
      (List.forall_mem_cons.mpr ⟨hfirst, hothers⟩) hnone
    exact ⟨taken, htokens, by rw [hnodes], htaken⟩

/-! ### Parsing from words -/

/-- Statements decide what the parser does with a source that has their words. -/
theorem parseWithin_of_words {limit : Nat} {source : String} {before : List Token}
    {closing : Token} {statements : List Statement}
    (htokens : tokenize source = .ok (before ++ [closing]))
    (hwords : before.map Token.word = (tokensOf statements).map Token.word)
    (htaken : TakenAll statements (.endOfInput 0)) :
    (∃ node, parseWithin limit source = .ok node ∧
      node.map Token.unplaced =
        (ofStatements (statements.map Statement.node)).map Token.unplaced) ∨
    ∃ error, parseWithin limit source = .error (.grammatical error) ∧
      error.code = .nestingTooDeep := by
  obtain ⟨laid, hlaid, -, hnodes, hlaidTaken⟩ := htaken.exists_withoutLayout
  rw [← withoutLayout_congr hwords] at hlaid
  by_cases hfits : Fits limit .relation (weightsOf laid)
  · obtain ⟨node, hparse, hnode⟩ :=
      parseWithin_of_takenAll_withoutLayout htokens hlaid hlaidTaken hfits
    exact .inl ⟨node, hparse, by rw [hnode, hnodes, Node.map_ofStatements]⟩
  · obtain ⟨read, token, after, hread, hstuck⟩ := exists_stuckProgram_of_not_fits hlaidTaken hfits
    obtain ⟨error, hparse, herror⟩ :=
      parseWithin_of_stuckProgram_withoutLayout htokens (hlaid.symm.trans hread) hstuck
    exact .inr ⟨error, hparse, congrArg ParseError.code herror⟩

/-! ### Trees with operations -/

namespace Grammar

/-- Separated trees do not pass if the separator passes, every tree passes or not, and one of them
does not. -/
theorem fails_joined {separator : Token} {lists : List Bool} {nodes : List Node}
    (hseparator : Passes lists [separator])
    (hpasses : ∀ node ∈ nodes, ¬ node.hasOperation → Passes lists node.displayTokens)
    (hfails : ∀ node ∈ nodes, node.hasOperation → Fails lists node.displayTokens)
    (hsome : nodes.any Node.hasOperation) :
    Fails lists ([separator].intercalate (nodes.map Node.displayTokens)) := by
  induction nodes with
  | nil => exact absurd hsome Bool.false_ne_true
  | cons first others ih =>
    obtain ⟨hfirstPasses, hothersPass⟩ := List.forall_mem_cons.mp hpasses
    obtain ⟨hfirstFails, hothersFail⟩ := List.forall_mem_cons.mp hfails
    rw [List.any_cons, Bool.or_eq_true] at hsome
    by_cases hfirst : first.hasOperation
    · rw [intercalate_map_cons]
      exact (hfirstFails hfirst).append_left _
    · have hothers := ih hothersPass hothersFail (hsome.resolve_left hfirst)
      cases others with
      | nil => exact absurd (hsome.resolve_left hfirst) Bool.false_ne_true
      | cons second others =>
        rw [List.map_cons, List.map_cons, List.intercalate_cons_cons, List.append_assoc]
        exact (hfirstPasses hfirst).fails_append (hseparator.fails_append hothers)

end Grammar

namespace Node

theorem IsExpression.passes {node : Node} (h : node.IsExpression) (hnone : ¬ node.hasOperation)
    (lists : List Bool) : Passes lists node.displayTokens := by
  obtain ⟨weights, hderives, -⟩ := h.displayDerives hnone
  exact hderives.passes lists

theorem fails_items {nodes : List Node} (hnodes : ∀ node ∈ nodes, node.IsExpression)
    (hfails : ∀ node ∈ nodes, node.hasOperation → ∀ lists, Fails lists node.displayTokens)
    (hsome : anyHasOperation nodes) (lists : List Bool) :
    Fails (true :: lists) (Token.commaSeparated (displayTokensEach nodes)) := by
  rw [anyHasOperation_eq_any] at hsome
  rw [Token.commaSeparated, displayTokensEach_eq_map]
  exact fails_joined (passes_of_comma (Token.is_ofOperator _ _) lists)
    (fun node hnode hnone ↦ (hnodes node hnode).passes hnone _)
    (fun node hnode hoperation ↦ hfails node hnode hoperation _) hsome

/-- The structural form of an expression with an operation has a comma outside of a list. -/
theorem IsExpression.fails {node : Node} (h : node.IsExpression) (hsome : node.hasOperation)
    (lists : List Bool) : Fails lists node.displayTokens := by
  induction h generalizing lists with
  | atom => exact absurd hsome Bool.false_ne_true
  | @call function arguments hfunction harguments ih =>
    have hoperand := Token.isOperand_of_isNameOrNumber hfunction
    rw [hasOperation_call hfunction] at hsome
    intro afterOperand
    rw [displayTokens, Atom.callTarget, after?_call hoperand]
    exact after?_of_fails (next?_leftParen (Token.is_ofOperator _ _) _)
      (fails_items harguments ih hsome lists) _
  | @sign sign operand hsign _ _ ih =>
    rw [hasOperation_sign] at hsome
    rw [displayTokens_sign]
    refine (passes_of_isOneOf hsign (by decide) lists).fails_append fun afterOperand ↦ ?_
    exact after?_of_fails (next?_leftParen (Token.is_ofOperator _ _) _) (ih hsome _) _
  | @operation operator left right hoperator hleft _ _ _ ihleft _ =>
    -- the comma does not pass, so that it does not matter what the right argument is
    have hinner : Fails (false :: lists)
        (left.displayTokens ++ .ofOperator .comma 0 :: right.displayTokens) := by
      by_cases hoperation : left.hasOperation
      · exact (ihleft hoperation _).append_left _
      · have hcomma := fails_of_comma (Token.is_ofOperator .comma 0) lists
        exact (hleft.passes hoperation _).fails_append (hcomma.append_left right.displayTokens)
    intro afterOperand
    rw [displayTokens_operation, Brackets.after?_cons, next?_of_isOneOf hoperator (by decide),
      Option.bind_some]
    exact after?_of_fails (next?_leftParen (Token.is_ofOperator _ _) _) hinner _
  | vector _ helements ih =>
    intro afterOperand
    exact after?_of_fails (next?_container (Token.is_ofOperator _ _) (.inl rfl) _)
      (fails_items helements ih hsome lists) _
  | set _ helements ih =>
    intro afterOperand
    exact after?_of_fails (next?_container (Token.is_ofOperator _ _) (.inr rfl) _)
      (fails_items helements ih hsome lists) _

theorem IsRelation.passes {node : Node} (h : node.IsRelation) (hnone : ¬ node.hasOperation)
    (lists : List Bool) : Passes lists node.displayTokens := by
  obtain ⟨weights, hderives⟩ := h.exists_derives hnone
  exact hderives.passes lists

theorem IsRelation.fails {node : Node} (h : node.IsRelation) (hsome : node.hasOperation)
    (lists : List Bool) : Fails lists node.displayTokens := by
  cases h with
  | @relation operator left right hoperator hleft hright =>
  rw [hasOperation, Bool.or_eq_true] at hsome
  rw [displayTokens]
  by_cases hleftSome : left.hasOperation
  · exact (hleft.fails hleftSome lists).append_left _
  · have hsides := (passes_of_isOneOf hoperator (by decide) lists).fails_append
      (hright.fails (hsome.resolve_left hleftSome) lists)
    exact (hleft.passes hleftSome lists).fails_append hsides

end Node

/-- The structural form of a program with an operation has a comma outside of a list. -/
theorem fails_displayTokens {nodes : List Node}
    (hnodes : ∀ node ∈ nodes, node = .empty ∨ node.IsRelation)
    (hsome : (ofStatements nodes).hasOperation) : Fails [] (ofStatements nodes).displayTokens := by
  rw [Node.hasOperation_ofStatements] at hsome
  rw [Node.displayTokens_ofStatements]
  refine fails_joined (passes_of_isNewLine Token.isNewLine_lineEnd [])
    (fun node hnode hnone ↦ ?_) (fun node hnode hoperation ↦ ?_) hsome
  · rcases hnodes node hnode with rfl | hrelation
    · exact passes_nil []
    · exact hrelation.passes hnone []
  · rcases hnodes node hnode with rfl | hrelation
    · exact absurd hoperation Bool.false_ne_true
    · exact hrelation.fails hoperation []

/-! ### Sources -/

/-- Tokens that are not those of a program are refused. -/
theorem exists_error_of_fails {limit : Nat} {source : String} {tokens words : List Token}
    {closing : Token} (htokens : tokenize source = .ok (tokens ++ [closing]))
    (hwords : tokens.map Token.word = words.map Token.word) (hfails : Fails [] words) :
    ∃ error, parseWithin limit source = .error (.grammatical error) := by
  cases hparse : parseWithin limit source with
  | ok node =>
    obtain ⟨statements, _, hstatements, -, -, -, -⟩ := exists_takenAll_of_parseWithin hparse
    obtain ⟨rfl, -⟩ := List.append_inj' (Except.ok.inj (htokens.symm.trans hstatements)) rfl
    obtain ⟨last, hlast⟩ := passes_tokensOf statements [] false
    rw [Brackets.after?, kinds_of_words hwords] at hlast
    cases (hfails false).symm.trans hlast
  | error failure =>
    cases failure with
    | grammatical error => exact ⟨error, rfl⟩
    | lexical error =>
      rw [tokenize_of_parseWithin hparse] at htokens
      cases htokens

theorem parseWithin_display_of_not_hasOperation {limit : Nat} {source : String} {node : Node}
    (h : parseWithin limit source = .ok node) (hnone : ¬ node.hasOperation) :
    (∃ again, parseWithin limit node.display = .ok again ∧
      again.map Token.unplaced = node.map Token.unplaced) ∨
    ∃ error, parseWithin limit node.display = .error (.grammatical error) ∧
      error.code = .nestingTooDeep := by
  obtain ⟨first, others, rfl, hgenuine, hfirst, hothers⟩ := exists_statements_of_parseWithin h
  obtain ⟨tokens, closing, htokens, hwords⟩ := exists_tokenize_display hgenuine
  rw [Node.hasOperation_ofStatements, Bool.not_eq_true, List.any_eq_false] at hnone
  have hclosing : (Token.endOfInput 0).isEndOfInput := rfl
  obtain ⟨taken, htaken, hnodes, htakenAll⟩ :=
    exists_takenAll_display hclosing hfirst hothers hnone
  rw [← htaken] at hwords
  have hparse := @parseWithin_of_words limit _ _ _ _ htokens hwords htakenAll
  rwa [hnodes] at hparse

theorem parseWithin_display_of_hasOperation {limit : Nat} {source : String} {node : Node}
    (h : parseWithin limit source = .ok node) (hsome : node.hasOperation) :
    ∃ error, parseWithin limit node.display = .error (.grammatical error) := by
  obtain ⟨first, others, rfl, hgenuine, hfirst, hothers⟩ := exists_statements_of_parseWithin h
  obtain ⟨tokens, closing, htokens, hwords⟩ := exists_tokenize_display hgenuine
  have hnodes : ∀ node ∈ first :: others, node = .empty ∨ node.IsRelation :=
    List.forall_mem_cons.mpr ⟨hfirst, fun node hnode ↦ .inr (hothers node hnode)⟩
  exact exists_error_of_fails htokens hwords (fails_displayTokens hnodes hsome)

/-- The structural form of the tree of a source is parsed as the same tree, up to positions, or not
at all: it is refused if an operator is applied to two arguments, and otherwise only for the depth
of its nesting. -/
theorem parse_display (source : String) (node : Node) (h : parse source = .ok node) :
    (¬ node.hasOperation →
      (∃ again, parse node.display = .ok again ∧
        again.map Token.unplaced = node.map Token.unplaced) ∨
      ∃ error, parse node.display = .error (.grammatical error) ∧
        error.code = .nestingTooDeep) ∧
    (node.hasOperation → ∃ error, parse node.display = .error (.grammatical error)) ∧
    (∀ again, parse node.display = .ok again →
      again.map Token.unplaced = node.map Token.unplaced) ∧
    ∀ error, parse node.display ≠ .error (.lexical error) := by
  have hnone := parseWithin_display_of_not_hasOperation h
  have hsome := parseWithin_display_of_hasOperation h
  refine ⟨hnone, hsome, fun again hagain ↦ ?_, fun error herror ↦ ?_⟩
  · by_cases hoperation : node.hasOperation
    · obtain ⟨error, herror⟩ := hsome hoperation
      cases herror.symm.trans hagain
    · rcases hnone hoperation with ⟨other, hother, htree⟩ | ⟨error, herror, -⟩
      · rw [← htree, Except.ok.inj (hagain.symm.trans hother)]
      · cases herror.symm.trans hagain
  · by_cases hoperation : node.hasOperation
    · obtain ⟨other, hother⟩ := hsome hoperation
      cases hother.symm.trans herror
    · rcases hnone hoperation with ⟨other, hother, -⟩ | ⟨other, hother, -⟩
      · cases hother.symm.trans herror
      · cases hother.symm.trans herror

/-- Signs, calls and containers are read back from the structural form; a sum is not. -/
theorem parse_display_sign :
    (∃ node again, parse "-f(x) = [1]" = .ok node ∧ ¬ node.hasOperation ∧
      parse node.display = .ok again ∧ again.map Token.unplaced = node.map Token.unplaced) ∧
    ∃ node error, parse "x + 1 = y" = .ok node ∧ node.hasOperation ∧
      parse node.display = .error (.grammatical error) := by
  obtain ⟨signed, hsigned, hnone, htext⟩ : ∃ node, parse "-f(x) = [1]" = .ok node ∧
      ¬ node.hasOperation ∧ node.display = "-(f(x)) = [1]" :=
    ⟨_, by cbv, by decide, by cbv⟩
  obtain ⟨sum, hsum, hsome⟩ : ∃ node, parse "x + 1 = y" = .ok node ∧ node.hasOperation :=
    ⟨_, by cbv, by decide⟩
  obtain ⟨-, -, hsame, -⟩ := parse_display "-f(x) = [1]" signed hsigned
  obtain ⟨-, hrefused, -⟩ := parse_display "x + 1 = y" sum hsum
  obtain ⟨again, hagain⟩ : ∃ again, parse "-(f(x)) = [1]" = .ok again := ⟨_, by cbv⟩
  rw [← htext] at hagain
  obtain ⟨error, herror⟩ := hrefused hsome
  exact ⟨⟨signed, again, hsigned, hnone, hagain, hsame again hagain⟩,
    ⟨sum, error, hsum, hsome, herror⟩⟩

end Formula
