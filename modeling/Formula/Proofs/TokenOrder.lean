import Mathlib
import Formula.Proofs.ProgramReplay

/-!
# Tokens in trees

`Node.inOrder` reads the tokens of a tree in the order in which a formula is written: an operator
stands between its two arguments, a sign and the name of a function in front of theirs. For the
tree of a source these are all tokens of the source but brackets, commas, line ends and the closing
token, with none left out, repeated or moved (`inOrder_of_parse`).
-/

set_option autoImplicit false
set_option relaxedAutoImplicit false

namespace Formula

/-! ### Tokens that are kept -/

namespace Token

/-- Whether a token is kept in trees: names, numbers and all operators that are no punctuation. -/
def isKept (token : Token) : Bool :=
  token.kind.isOperand || (token.kind.isOperator && !token.kind.isPunctuation)

variable {token : Token} {operator : Operator}

theorem isKept_of_isOperand (h : token.kind.isOperand) : token.isKept := by
  simp [isKept, h]

theorem isKept_iff_of_is (h : token.is operator) :
    token.isKept = true ↔ ¬ operator.isPunctuation := by
  rw [isKept, (is_iff token operator).mp h]
  simp [TokenKind.isOperand, TokenKind.isOperator, TokenKind.isPunctuation, TokenKind.operator?]

theorem not_isKept_of_is (h : token.is operator) (hoperator : operator.isPunctuation) :
    ¬ token.isKept := by
  rw [isKept_iff_of_is h, not_not]
  exact hoperator

theorem isKept_of_isOneOf {operators : List Operator} (h : token.isOneOf operators)
    (hoperators : ∀ operator ∈ operators, ¬ operator.isPunctuation) : token.isKept := by
  obtain ⟨operator, hmem, hkind⟩ := (isOneOf_iff token operators).mp h
  exact (isKept_iff_of_is ((is_iff token operator).mpr hkind)).mpr (hoperators operator hmem)

theorem isKept_of_isRelational (h : token.kind.isRelational) : token.isKept :=
  isKept_of_isOneOf (isOneOf_comparisons h) (by decide)

theorem not_isKept_of_isNewLine (h : token.isNewLine) : ¬ token.isKept := by
  simp [isKept, (isNewLine_iff token).mp h, TokenKind.isOperand, TokenKind.isOperator,
    TokenKind.operator?]

theorem not_isOperator_of_isOperand (h : token.kind.isOperand) : ¬ token.kind.isOperator := by
  cases hkind : token.kind <;>
    simp_all [TokenKind.isOperand, TokenKind.isOperator, TokenKind.operator?]

theorem isOperator_of_isOneOf {operators : List Operator} (h : token.isOneOf operators) :
    token.kind.isOperator := by
  obtain ⟨operator, -, hkind⟩ := (isOneOf_iff token operators).mp h
  simp [hkind, TokenKind.isOperator, TokenKind.operator?]

/-! ### Trees in order -/

/-- A function and the tokens of each of its arguments as they are written: an operator with two
arguments stands between them, everything else in front. -/
def around (function : Token) : List (List Token) → List Token
  | [left, right] =>
    if function.kind.isOperator then left ++ function :: right else function :: (left ++ right)
  | arguments => function :: arguments.flatten

theorem around_pair (h : token.kind.isOperator) (left right : List Token) :
    token.around [left, right] = left ++ token :: right :=
  if_pos h

theorem around_of_not_isOperator (h : ¬ token.kind.isOperator) (arguments : List (List Token)) :
    token.around arguments = token :: arguments.flatten := by
  unfold around
  split
  · simp [h]
  · rfl

end Token

namespace Node

mutual

/-- The tokens of a tree in the order in which they are written. -/
def inOrder : Node → List Token
  | .atom leaf => [leaf.token]
  | .apply function arguments => function.token.around (inOrderEach arguments)
  | .vector elements => (inOrderEach elements).flatten
  | .set elements => (inOrderEach elements).flatten
  | .relation left operator right => left.inOrder ++ operator.token :: right.inOrder
  | .sequence statements => (inOrderEach statements).flatten
  | .empty => []

/-- The tokens of each of several trees. -/
def inOrderEach : List Node → List (List Token)
  | [] => []
  | node :: others => node.inOrder :: inOrderEach others

end

theorem inOrderEach_eq_map (nodes : List Node) : inOrderEach nodes = nodes.map inOrder := by
  induction nodes with
  | nil => rfl
  | cons node others ih => rw [inOrderEach, List.map_cons, ih]

theorem inOrder_ofStatements (nodes : List Node) :
    (Parse.ofStatements nodes).inOrder = nodes.flatMap inOrder := by
  match nodes with
  | [] => rfl
  | [only] => simp [Parse.ofStatements]
  | first :: second :: others =>
    show inOrder (.sequence (first :: second :: others)) = _
    rw [inOrder, inOrderEach_eq_map, List.flatMap_def]

end Node

namespace Grammar

/-- The tokens in the trees of a phrase. -/
def Phrase.inOrder : Phrase → List Token
  | .items nodes => (Node.inOrderEach nodes).flatten
  | .relation node | .expression node | .sum node | .product node | .unary node | .power node
  | .primary node | .call node => node.inOrder

/-- Of two brackets and what stands between them, only the latter is kept. -/
theorem filter_closed {tokens : List Token} {opening closing : Token}
    {first last : Token.Operator} (hopening : opening.is first) (hclosing : closing.is last)
    (hfirst : first.isPunctuation) (hlast : last.isPunctuation) :
    (opening :: (tokens ++ [closing])).filter Token.isKept = tokens.filter Token.isKept := by
  rw [List.filter_cons_of_neg (Token.not_isKept_of_is hopening hfirst), List.filter_append,
    List.filter_cons_of_neg (Token.not_isKept_of_is hclosing hlast), List.filter_nil,
    List.append_nil]

/-- The trees of a phrase hold the tokens that are kept of it. -/
theorem Derives.inOrder {weights : List Nat} {tokens : List Token} {phrase : Phrase}
    (h : Derives weights tokens phrase) : phrase.inOrder = tokens.filter Token.isKept := by
  -- sums, products and powers alike put their operator between the two arguments
  have hjoined {leftTokens rightTokens : List Token} {left right : Node} {operator : Token}
      {operators : List Token.Operator} (hoperator : operator.isOneOf operators)
      (hoperators : ∀ operator ∈ operators, ¬ operator.isPunctuation)
      (ihleft : left.inOrder = leftTokens.filter Token.isKept)
      (ihright : right.inOrder = rightTokens.filter Token.isKept) :
      (Node.apply (.callTarget operator) [left, right]).inOrder =
        (leftTokens ++ operator :: rightTokens).filter Token.isKept := by
    show operator.around [left.inOrder, right.inOrder] = _
    rw [Token.around_pair (Token.isOperator_of_isOneOf hoperator), List.filter_append,
      List.filter_cons_of_pos (Token.isKept_of_isOneOf hoperator hoperators), ihleft, ihright]
  induction h with
  | relation _ hoperator _ ihleft ihright =>
    show Node.inOrder _ ++ _ :: Node.inOrder _ = _
    rw [List.filter_append, List.filter_cons_of_pos (Token.isKept_of_isRelational hoperator)]
    exact congrArg₂ (· ++ _ :: ·) ihleft ihright
  | set hopening _ hclosing ih | vector hopening _ hclosing ih | group hopening _ hclosing ih =>
    rw [filter_closed hopening hclosing rfl rfl]
    exact ih
  | item _ ih =>
    show List.flatten [Node.inOrder _] = _
    rw [List.flatten_singleton]
    exact ih
  | nextItem _ hcomma _ ihfirst ihrest =>
    show Node.inOrder _ ++ List.flatten _ = _
    rw [List.filter_append, List.filter_cons_of_neg (Token.not_isKept_of_is hcomma rfl)]
    exact congrArg₂ (· ++ ·) ihfirst ihrest
  | addition _ hoperator _ ihleft ihright | multiplication _ hoperator _ ihleft ihright =>
    exact hjoined hoperator (by decide) ihleft ihright
  | raised _ hoperator _ ihleft ihright =>
    rw [← Token.isOneOf_singleton] at hoperator
    exact hjoined hoperator (by decide) ihleft ihright
  | sign hsign _ ih =>
    show _ :: List.flatten [Node.inOrder _] = _
    rw [List.filter_cons_of_pos (Token.isKept_of_isOneOf hsign (by decide)),
      List.flatten_singleton]
    exact congrArg _ ih
  | operand hoperand =>
    rw [List.filter_cons_of_pos (Token.isKept_of_isOperand hoperand)]
    rfl
  | emptyCall hfunction hopening hclosing =>
    rw [List.filter_cons_of_pos (Token.isKept_of_isOperand hfunction), ← List.nil_append [_],
      filter_closed hopening hclosing rfl rfl]
    rfl
  | @call _ _ arguments function _ _ hfunction hopening _ hclosing ih =>
    show function.around (Node.inOrderEach arguments) = _
    rw [List.filter_cons_of_pos (Token.isKept_of_isOperand hfunction),
      filter_closed hopening hclosing rfl rfl,
      Token.around_of_not_isOperator (Token.not_isOperator_of_isOperand hfunction)]
    exact congrArg _ ih
  | expression _ ih | sum _ ih | product _ ih | unary _ ih | power _ ih | primary _ ih => exact ih

theorem Statement.inOrder (statement : Statement) :
    statement.node.inOrder = statement.tokens.filter Token.isKept := by
  have hlines {lines : List Token} (h : ∀ line ∈ lines, line.isNewLine) :
      lines.filter Token.isKept = [] :=
    List.filter_eq_nil_iff.mpr fun line hmem ↦ Token.not_isKept_of_isNewLine (h line hmem)
  obtain ⟨weights, tokens, node, derives⟩ := statement
  cases derives with
  | relation hderives hbehind =>
    rw [List.filter_append, hlines hbehind, List.append_nil]
    exact hderives.inOrder
  | empty _ hblank => exact (hlines hblank).symm

theorem inOrder_statements (statements : List Statement) :
    (Parse.ofStatements (statements.map Statement.node)).inOrder =
      (tokensOf statements).filter Token.isKept := by
  rw [Node.inOrder_ofStatements, tokensOf, List.filter_flatMap, List.flatMap_map]
  exact List.flatMap_congr fun statement _ ↦ statement.inOrder

end Grammar

open Parse Grammar

/-- The tree of a source holds exactly the names, the numbers and the operators of the source that
are no punctuation, in the order of the source. -/
theorem inOrder_of_parse (source : String) (node : Node) (h : parse source = .ok node) :
    ∃ tokens, tokenize source = .ok tokens ∧ node.inOrder = tokens.filter Token.isKept ∧
      node.inOrder.Pairwise (·.position < ·.position) := by
  obtain ⟨statements, closing, htokens, -, -, -, rfl⟩ := exists_takenAll_of_parseWithin h
  have hclosing : ¬ closing.isKept := by
    rw [closing_of_tokenize htokens]
    exact Bool.false_ne_true
  have horder : (ofStatements (statements.map Statement.node)).inOrder =
      (tokensOf statements ++ [closing]).filter Token.isKept := by
    rw [inOrder_statements, List.filter_append, List.filter_cons_of_neg hclosing, List.filter_nil,
      List.append_nil]
  refine ⟨_, htokens, horder, ?_⟩
  rw [horder, ← yielded_of_tokenize htokens]
  exact (TokenStream.pairwise_position_scan 0 0 source.toList).filter _

/-- The parentheses and the comma are gone, and the first of two signs is an operator between its
two arguments. -/
theorem inOrder_of_parse_signs :
    ∃ node, parse "f(a, (b - -c)) = 1\n" = .ok node ∧
      node.inOrder = [.identifier "f" 0, .identifier "a" 2, .identifier "b" 6,
        .ofOperator .minus 8, .ofOperator .minus 10, .identifier "c" 11, .ofOperator .equal 15,
        .number "1" 17] ∧
      node.inOrder.Pairwise (·.position < ·.position) := by
  obtain ⟨node, hparse⟩ : ∃ node, parse "f(a, (b - -c)) = 1\n" = .ok node := ⟨_, by cbv⟩
  obtain ⟨tokens, htokens, horder, hpositions⟩ := inOrder_of_parse _ node hparse
  refine ⟨node, hparse, ?_, hpositions⟩
  have hscanned : tokenize "f(a, (b - -c)) = 1\n" = .ok [.identifier "f" 0,
      .ofOperator .leftParen 1, .identifier "a" 2, .ofOperator .comma 3, .ofOperator .leftParen 5,
      .identifier "b" 6, .ofOperator .minus 8, .ofOperator .minus 10, .identifier "c" 11,
      .ofOperator .rightParen 12, .ofOperator .rightParen 13, .ofOperator .equal 15,
      .number "1" 17, ⟨.newLine, "\n", 18⟩, .endOfInput 19] := by cbv
  obtain rfl := Except.ok.inj (hscanned.symm.trans htokens)
  rw [horder]
  rfl

end Formula
