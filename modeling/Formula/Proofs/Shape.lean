import Formula.Proofs.Correctness

/-!
# The shape of trees

What the trees of sources look like, although the type of trees allows much more. `IsExpression`
are the trees that stand on the sides of relations: leaves are operands, operators have the number
of arguments that they need and none of them is a container, and containers are not empty.
`IsProgram` are the trees of whole sources: the empty statement, a relation, or a sequence of
relations that an empty statement may stand in front of. Every tree that the parser gives is one
(`isProgram_of_parse`).
-/

set_option autoImplicit false
set_option relaxedAutoImplicit false

namespace Formula

open Grammar Parse

namespace Token

/-- Whether a token is a name or a number. -/
def IsNameOrNumber (token : Token) : Prop :=
  token.kind = .identifier ∨ token.kind = .number

theorem isNameOrNumber_of_isOperand {token : Token} (h : token.kind.isOperand) :
    token.IsNameOrNumber := by
  unfold IsNameOrNumber
  cases hkind : token.kind <;> simp_all [TokenKind.isOperand]

end Token

/-! ### Shapes -/

namespace Node

/-- The trees of expressions. -/
inductive IsExpression : Node → Prop
  | atom {operand : Token} :
      operand.IsNameOrNumber →
      IsExpression (.atom (.value operand))
  | call {function : Token} {arguments : List Node} :
      function.IsNameOrNumber →
      (∀ argument ∈ arguments, IsExpression argument) →
      IsExpression (.apply (.callTarget function) arguments)
  | sign {sign : Token} {operand : Node} :
      sign.isOneOf [.plus, .minus] →
      IsExpression operand →
      ¬ isContainer operand →
      IsExpression (.apply (.callTarget sign) [operand])
  | operation {operator : Token} {left right : Node} :
      operator.isOneOf [.plus, .minus, .multiply, .divide, .power] →
      IsExpression left →
      IsExpression right →
      ¬ isContainer left →
      ¬ isContainer right →
      IsExpression (.apply (.callTarget operator) [left, right])
  | vector {elements : List Node} :
      elements ≠ [] →
      (∀ element ∈ elements, IsExpression element) →
      IsExpression (.vector elements)
  | set {elements : List Node} :
      elements ≠ [] →
      (∀ element ∈ elements, IsExpression element) →
      IsExpression (.set elements)

/-- The trees of relations. -/
inductive IsRelation : Node → Prop
  | relation {operator : Token} {left right : Node} :
      operator.isOneOf Token.comparisons →
      IsExpression left →
      IsExpression right →
      IsRelation (.relation left (.callTarget operator) right)

/-- The trees of programs. Only the first statement of several can be empty. -/
inductive IsProgram : Node → Prop
  | empty : IsProgram .empty
  | relation {node : Node} : IsRelation node → IsProgram node
  | sequence {first second : Node} {others : List Node} :
      first = .empty ∨ IsRelation first →
      (∀ statement ∈ second :: others, IsRelation statement) →
      IsProgram (.sequence (first :: second :: others))

end Node

/-! ### Shapes of phrases -/

namespace Grammar

/-- Whether the trees of a phrase have the shape that its rule gives them. -/
def Phrase.Shaped : Phrase → Prop
  | .relation node => node.IsRelation
  | .items nodes => nodes ≠ [] ∧ ∀ node ∈ nodes, node.IsExpression
  | .expression node | .sum node | .product node | .unary node | .power node | .primary node
  | .call node => node.IsExpression

theorem Derives.shaped {weights : List Nat} {tokens : List Token} {phrase : Phrase}
    (h : Derives weights tokens phrase) : phrase.Shaped := by
  induction h with
  | relation _ hoperator _ ihleft ihright =>
    exact .relation (Token.isOneOf_comparisons hoperator) ihleft ihright
  | set _ _ _ ih => exact .set ih.1 ih.2
  | vector _ _ _ ih => exact .vector ih.1 ih.2
  | item _ ih => exact ⟨List.cons_ne_nil _ _, List.forall_mem_singleton.mpr ih⟩
  | nextItem _ _ _ ihfirst ihrest =>
    exact ⟨List.cons_ne_nil _ _, List.forall_mem_cons.mpr ⟨ihfirst, ihrest.2⟩⟩
  | addition hleft hoperator hright ihleft ihright
  | multiplication hleft hoperator hright ihleft ihright =>
    exact .operation (Token.isOneOf_of_subset hoperator (by simp)) ihleft ihright
      (hleft.not_isContainer _ rfl) (hright.not_isContainer _ rfl)
  | raised hbase hoperator hexponent ihbase ihexponent =>
    rw [← Token.isOneOf_singleton] at hoperator
    exact .operation (Token.isOneOf_of_subset hoperator (by simp)) ihbase ihexponent
      (hbase.not_isContainer _ rfl) (hexponent.not_isContainer _ rfl)
  | sign hsign hoperand ih => exact .sign hsign ih (hoperand.not_isContainer _ rfl)
  | operand hoperand => exact .atom (Token.isNameOrNumber_of_isOperand hoperand)
  | emptyCall hfunction =>
    exact .call (Token.isNameOrNumber_of_isOperand hfunction) (List.forall_mem_nil _)
  | call hfunction _ _ _ ih => exact .call (Token.isNameOrNumber_of_isOperand hfunction) ih.2
  | expression _ ih | sum _ ih | product _ ih | unary _ ih | power _ ih | primary _ ih
  | group _ _ _ ih => exact ih

/-! ### Shapes of programs -/

theorem Statement.isRelation_of_not_isBlank {statement : Statement} (h : ¬ statement.isBlank) :
    statement.node.IsRelation := by
  obtain ⟨weights, tokens, node, derives⟩ := statement
  cases derives with
  | relation hderives _ => exact hderives.shaped
  | empty => exact absurd rfl h

theorem Statement.eq_empty_or_isRelation (statement : Statement) :
    statement.node = .empty ∨ statement.node.IsRelation := by
  by_cases hblank : statement.isBlank
  · exact .inl (statement.isBlank_iff.mp hblank).2.1
  · exact .inr (Statement.isRelation_of_not_isBlank hblank)

/-- A statement takes the line ends behind it, so only the first one can be blank. -/
theorem TakenAll.not_isBlank {first : Statement} {others : List Statement} {next : Token}
    (h : TakenAll (first :: others) next) : ∀ statement ∈ others, ¬ statement.isBlank := by
  induction others generalizing first with
  | nil => exact List.forall_mem_nil _
  | cons second others ih =>
    cases h with
    | cons htaken hothers =>
    refine List.forall_mem_cons.mpr ⟨fun hblank ↦ ?_, ih hothers⟩
    obtain ⟨-, -, hlines⟩ := second.isBlank_iff.mp hblank
    obtain ⟨line, rest, htokens⟩ := List.exists_cons_of_ne_nil second.derives.ne_nil
    have hline := htaken.not_isNewLine
    rw [tokensOf_cons, htokens] at hline
    exact hline (hlines line (htokens ▸ List.mem_cons_self))

theorem TakenAll.isProgram {statements : List Statement} {next : Token}
    (h : TakenAll statements next) : (ofStatements (statements.map Statement.node)).IsProgram := by
  match statements with
  | [] => exact .empty
  | [only] =>
    rcases only.eq_empty_or_isRelation with hempty | hrelation
    · show only.node.IsProgram
      exact hempty ▸ .empty
    · exact .relation hrelation
  | first :: second :: others =>
    refine .sequence first.eq_empty_or_isRelation ?_
    rw [← List.map_cons, List.forall_mem_map]
    exact fun statement hmem ↦ Statement.isRelation_of_not_isBlank (h.not_isBlank statement hmem)

end Grammar

/-- Every tree of a source is the tree of a program. -/
theorem isProgram_of_parse (source : String) (node : Node) (h : parse source = .ok node) :
    node.IsProgram := by
  obtain ⟨statements, closing, -, -, htaken, -, rfl⟩ := exists_takenAll_of_parseWithin h
  exact htaken.isProgram

/-- Blank lines give a statement of their own only in front of the first relation. -/
theorem isProgram_of_parse_blankLines :
    ∃ node, parse "\n\nf() = \x7b[1], -x ** 2\x7d\n\ny < 3" = .ok node ∧ node.IsProgram := by
  obtain ⟨node, hparse⟩ : ∃ node, parse "\n\nf() = \x7b[1], -x ** 2\x7d\n\ny < 3" = .ok node :=
    ⟨_, by cbv⟩
  exact ⟨node, hparse, isProgram_of_parse _ node hparse⟩

end Formula
