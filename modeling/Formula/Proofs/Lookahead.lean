import Mathlib.Data.List.Basic
import Formula.Proofs.Grammar

/-!
# One token of lookahead

How a reader that sees one token ahead tells the rules of the grammar apart. `Derives.starts` says
which tokens a phrase begins with, and `Ends` which tokens after a phrase cannot belong to it: no
operator of a chain that is still open, and no parenthesis after a bare operand.

`Fits` bounds the weights of a phrase by the nesting levels that are left to the rule reading it.
An expression opens a level of its own and so does every unary in it, which is why a rule needs up
to two levels more than the weights of its paths.
-/

set_option autoImplicit false
set_option relaxedAutoImplicit false

namespace Formula

/-! ### Kinds of tokens -/

namespace Token

@[simp] theorem is_iff (token : Token) (operator : Operator) :
    token.is operator = true ↔ token.kind = .operator operator := by
  simp [Token.is]

@[simp] theorem isOneOf_iff (token : Token) (operators : List Operator) :
    token.isOneOf operators = true ↔ ∃ operator ∈ operators, token.kind = .operator operator := by
  simp [isOneOf]

theorem isOneOf_singleton (token : Token) (operator : Operator) :
    token.isOneOf [operator] = token.is operator := by
  simp [isOneOf]

theorem isOneOf_of_subset {token : Token} {operators more : List Operator}
    (h : token.isOneOf operators) (hsubset : operators ⊆ more) : token.isOneOf more := by
  obtain ⟨operator, hmem, hkind⟩ := (isOneOf_iff token operators).mp h
  exact (isOneOf_iff token more).mpr ⟨operator, hsubset hmem, hkind⟩

@[simp] theorem isNewLine_iff (token : Token) : token.isNewLine = true ↔ token.kind = .newLine := by
  simp [isNewLine]

@[simp] theorem isEndOfInput_iff (token : Token) :
    token.isEndOfInput = true ↔ token.kind = .endOfInput := by
  simp [isEndOfInput]

theorem not_isOperand_of_is {token : Token} {operator : Operator} (h : token.is operator) :
    ¬ token.kind.isOperand := by
  rw [(is_iff token operator).mp h]
  exact Bool.false_ne_true

/-- Whether a token can stand inside a phrase. -/
def IsInner (token : Token) : Prop :=
  token.kind.isOperand ∨ token.kind.isOperator

theorem isInner_of_isOneOf {token : Token} {operators : List Operator}
    (h : token.isOneOf operators) : token.IsInner := by
  obtain ⟨operator, -, hkind⟩ := (isOneOf_iff token operators).mp h
  rw [IsInner, hkind]
  exact .inr rfl

theorem isInner_of_is {token : Token} {operator : Operator} (h : token.is operator) :
    token.IsInner := by
  rw [IsInner, (is_iff token operator).mp h]
  exact .inr rfl

/-- The six comparisons. -/
def comparisons : List Operator :=
  [.equal, .lessEqual, .greaterEqual, .notEqual, .lessThan, .greaterThan]

theorem isOneOf_comparisons {token : Token} (h : token.kind.isRelational) :
    token.isOneOf comparisons := by
  cases hkind : token.kind with
  | operator symbol =>
    rw [hkind] at h
    refine (isOneOf_iff token comparisons).mpr ⟨symbol, ?_, hkind⟩
    cases symbol <;> simp_all [comparisons, TokenKind.isRelational, TokenKind.operator?,
      Operator.isRelational]
  | _ => simp [hkind, TokenKind.isRelational, TokenKind.operator?] at h

theorem isInner_of_isRelational {token : Token} (h : token.kind.isRelational) : token.IsInner :=
  isInner_of_isOneOf (isOneOf_comparisons h)

theorem IsInner.not_isNewLine {token : Token} (h : token.IsInner) : ¬ token.isNewLine := by
  intro hline
  rw [IsInner, (isNewLine_iff token).mp hline] at h
  exact h.elim Bool.false_ne_true Bool.false_ne_true

theorem IsInner.not_isEndOfInput {token : Token} (h : token.IsInner) : ¬ token.isEndOfInput := by
  intro hend
  rw [IsInner, (isEndOfInput_iff token).mp hend] at h
  exact h.elim Bool.false_ne_true Bool.false_ne_true

end Token

namespace Grammar

/-! ### Rules -/

/-- A rule of the grammar of relations and expressions. -/
inductive Goal where
  | relation
  | expression
  | items
  | sum
  | product
  | unary
  | power
  | primary
  | call
  deriving DecidableEq

/-- The rule by which a phrase is derived. -/
def Phrase.goal : Phrase → Goal
  | .relation _ => .relation
  | .expression _ => .expression
  | .items _ => .items
  | .sum _ => .sum
  | .product _ => .product
  | .unary _ => .unary
  | .power _ => .power
  | .primary _ => .primary
  | .call _ => .call

/-- The levels that a rule opens on every path before the path adds any weight: one for the
expression and one for the unary of the path. -/
def Goal.levels : Goal → Nat
  | .relation | .expression | .items => 2
  | .sum | .product | .unary => 1
  | .power | .primary | .call => 0

/-- Whether a rule can read a phrase with paths of these weights when it may open the given number
of levels. -/
def Fits (levels : Nat) (goal : Goal) (weights : List Nat) : Prop :=
  ∀ weight ∈ weights, weight + goal.levels ≤ levels

section

variable {levels outerLevels more : Nat} {goal inner : Goal} {weights : List Nat}

theorem fits_map_add (h : Fits levels inner weights)
    (hmore : more + goal.levels + levels ≤ inner.levels + outerLevels) :
    Fits outerLevels goal (weights.map (· + more)) := by
  intro weight hweight
  obtain ⟨weight, hmem, rfl⟩ := List.mem_map.mp hweight
  have hfits := h weight hmem
  omega

theorem fits_of_map_add (h : Fits outerLevels goal (weights.map (· + more)))
    (hmore : inner.levels + outerLevels ≤ more + goal.levels + levels) :
    Fits levels inner weights := by
  intro weight hweight
  have hfits := h _ (List.mem_map_of_mem hweight)
  omega

theorem fits_of_le (h : Fits levels inner weights)
    (hgoal : goal.levels + levels ≤ inner.levels + outerLevels) :
    Fits outerLevels goal weights := by
  intro weight hweight
  have hfits := h weight hweight
  omega

theorem fits_append {others : List Nat} (hfirst : Fits levels goal weights)
    (hsecond : Fits levels goal others) : Fits levels goal (weights ++ others) :=
  List.forall_mem_append.mpr ⟨hfirst, hsecond⟩

end

theorem Derives.weights_ne_nil {weights : List Nat} {tokens : List Token} {phrase : Phrase}
    (h : Derives weights tokens phrase) : weights ≠ [] := by
  induction h with
  | relation _ _ _ ih _ | nextItem _ _ _ ih _ | addition _ _ _ ih _ | multiplication _ _ _ ih _
  | raised _ _ _ ih _ => exact List.append_ne_nil_of_left_ne_nil ih _
  | set _ _ _ ih | vector _ _ _ ih | sign _ _ ih | group _ _ _ ih | call _ _ _ _ ih =>
    exact fun h ↦ ih (List.map_eq_nil_iff.mp h)
  | expression _ ih | item _ ih | sum _ ih | product _ ih | unary _ ih | power _ ih
  | primary _ ih => exact ih
  | operand | emptyCall => exact List.cons_ne_nil _ _

theorem Derives.map_weights_ne_nil {weights : List Nat} {tokens : List Token} {phrase : Phrase}
    (h : Derives weights tokens phrase) (change : Nat → Nat) : weights.map change ≠ [] :=
  fun hnil ↦ h.weights_ne_nil (List.map_eq_nil_iff.mp hnil)

/-- A rule that opens levels of its own can only read a phrase if it may open one. -/
theorem exists_levels_of_fits {levels : Nat} {goal : Goal} {weights : List Nat}
    (hfits : Fits levels goal weights) (hweights : weights ≠ []) (hgoal : goal.levels ≠ 0) :
    ∃ inner, levels = inner + 1 := by
  obtain ⟨weight, hweight⟩ := List.exists_mem_of_ne_nil weights hweights
  have hlevels := hfits weight hweight
  exact ⟨levels - 1, by omega⟩

/-! ### Tokens of a phrase -/

theorem Derives.isInner {weights : List Nat} {tokens : List Token} {phrase : Phrase}
    (h : Derives weights tokens phrase) : ∀ token ∈ tokens, token.IsInner := by
  have hclosed {inner : List Token} {opening closing : Token} {first last : Token.Operator}
      (hopening : opening.is first) (hinner : ∀ token ∈ inner, token.IsInner)
      (hclosing : closing.is last) : ∀ token ∈ opening :: (inner ++ [closing]), token.IsInner :=
    List.forall_mem_cons.mpr ⟨Token.isInner_of_is hopening, List.forall_mem_append.mpr
      ⟨hinner, List.forall_mem_singleton.mpr (Token.isInner_of_is hclosing)⟩⟩
  have hjoined {left right : List Token} {operator : Token}
      (hleft : ∀ token ∈ left, token.IsInner) (hoperator : operator.IsInner)
      (hright : ∀ token ∈ right, token.IsInner) :
      ∀ token ∈ left ++ operator :: right, token.IsInner :=
    List.forall_mem_append.mpr ⟨hleft, List.forall_mem_cons.mpr ⟨hoperator, hright⟩⟩
  induction h with
  | relation _ hoperator _ ihleft ihright =>
    exact hjoined ihleft (Token.isInner_of_isRelational hoperator) ihright
  | set hopening _ hclosing ih | vector hopening _ hclosing ih | group hopening _ hclosing ih =>
    exact hclosed hopening ih hclosing
  | nextItem _ hoperator _ ihleft ihright | raised _ hoperator _ ihleft ihright =>
    exact hjoined ihleft (Token.isInner_of_is hoperator) ihright
  | addition _ hoperator _ ihleft ihright | multiplication _ hoperator _ ihleft ihright =>
    exact hjoined ihleft (Token.isInner_of_isOneOf hoperator) ihright
  | sign hsign _ ih => exact List.forall_mem_cons.mpr ⟨Token.isInner_of_isOneOf hsign, ih⟩
  | operand hoperand => exact List.forall_mem_singleton.mpr (.inl hoperand)
  | emptyCall hfunction hopening hclosing =>
    exact List.forall_mem_cons.mpr ⟨.inl hfunction,
      hclosed hopening (List.forall_mem_nil _) hclosing⟩
  | call hfunction hopening _ hclosing ih =>
    exact List.forall_mem_cons.mpr ⟨.inl hfunction, hclosed hopening ih hclosing⟩
  | expression _ ih | item _ ih | sum _ ih | product _ ih | unary _ ih | power _ ih
  | primary _ ih => exact ih

/-! ### First tokens -/

/-- The operators with which a phrase of a rule can begin. -/
def Goal.openings : Goal → List Token.Operator
  | .relation | .expression | .items => [.leftParen, .plus, .minus, .leftCurly, .leftSquare]
  | .sum | .product | .unary => [.leftParen, .plus, .minus]
  | .power | .primary => [.leftParen]
  | .call => []

/-- Whether a phrase of a rule can begin with a token. -/
def Goal.Starts (goal : Goal) (token : Token) : Prop :=
  token.kind.isOperand ∨ token.isOneOf goal.openings

theorem Goal.Starts.not_isOneOf {goal : Goal} {token : Token} (h : goal.Starts token)
    (operators : List Token.Operator)
    (hoperators : ∀ operator ∈ operators, operator ∉ goal.openings) :
    ¬ token.isOneOf operators := by
  intro hone
  obtain ⟨operator, hmem, hkind⟩ := (Token.isOneOf_iff _ _).mp hone
  rcases h with hoperand | hopening
  · exact Token.not_isOperand_of_is ((Token.is_iff _ _).mpr hkind) hoperand
  · obtain ⟨other, hother, hotherKind⟩ := (Token.isOneOf_iff _ _).mp hopening
    rw [hkind, TokenKind.operator.injEq] at hotherKind
    exact hoperators operator hmem (hotherKind ▸ hother)

theorem Goal.Starts.not_is {goal : Goal} {token : Token} (h : goal.Starts token)
    (operator : Token.Operator) (hoperator : operator ∉ goal.openings) : ¬ token.is operator := by
  rw [← Token.isOneOf_singleton]
  exact h.not_isOneOf [operator] (List.forall_mem_singleton.mpr hoperator)

theorem Goal.Starts.isInner {goal : Goal} {token : Token} (h : goal.Starts token) :
    token.IsInner :=
  h.elim .inl Token.isInner_of_isOneOf

theorem Goal.Starts.mono {goal more : Goal} {token : Token} (h : goal.Starts token)
    (hopenings : goal.openings ⊆ more.openings) : more.Starts token :=
  h.imp_right fun hopening ↦ Token.isOneOf_of_subset hopening hopenings

theorem Derives.starts {weights : List Nat} {tokens : List Token} {phrase : Phrase}
    (h : Derives weights tokens phrase) :
    ∃ first rest, tokens = first :: rest ∧ phrase.goal.Starts first := by
  induction h with
  | relation _ _ _ ihleft | nextItem _ _ _ ihleft | addition _ _ _ ihleft
  | multiplication _ _ _ ihleft | raised _ _ _ ihleft =>
    obtain ⟨first, rest, rfl, hstarts⟩ := ihleft
    exact ⟨first, _, rfl, hstarts⟩
  | set hopening | vector hopening | group hopening =>
    refine ⟨_, _, rfl, .inr ((Token.isOneOf_iff _ _).mpr ⟨_, ?_, (Token.is_iff _ _).mp hopening⟩)⟩
    simp [Phrase.goal, Goal.openings]
  | sign hsign =>
    exact ⟨_, _, rfl, .inr (Token.isOneOf_of_subset hsign (by simp [Phrase.goal, Goal.openings]))⟩
  | expression _ ih | item _ ih | sum _ ih | product _ ih | unary _ ih | power _ ih
  | primary _ ih =>
    obtain ⟨first, rest, rfl, hstarts⟩ := ih
    exact ⟨first, rest, rfl, hstarts.mono (by simp [Phrase.goal, Goal.openings])⟩
  | operand hoperand | emptyCall hoperand | call hoperand => exact ⟨_, _, rfl, .inl hoperand⟩

/-- The tokens of a phrase are not none at all. -/
theorem Derives.ne_nil {weights : List Nat} {tokens : List Token} {phrase : Phrase}
    (h : Derives weights tokens phrase) : tokens ≠ [] := by
  obtain ⟨first, rest, rfl, -⟩ := h.starts
  exact List.cons_ne_nil first rest

/-! ### Tokens after a phrase -/

/-- Whether a tree is a container, which takes no part in a chain of operators. -/
def isContainer : Node → Bool
  | .set _ | .vector _ => true
  | _ => false

/-- The tree of a phrase that takes part in a chain of operators. -/
def Phrase.operand? : Phrase → Option Node
  | .sum node | .product node | .unary node | .power node | .primary node | .call node => node
  | .relation _ | .expression _ | .items _ => none

theorem Derives.not_isContainer {weights : List Nat} {tokens : List Token} {phrase : Phrase}
    (h : Derives weights tokens phrase) : ∀ node ∈ phrase.operand?, ¬ isContainer node := by
  induction h with
  | relation | set | vector | expression | item | nextItem => exact fun _ h ↦ nomatch h
  | sum _ ih | product _ ih | unary _ ih | power _ ih | primary _ ih | group _ _ _ ih => exact ih
  | addition | multiplication | sign | raised | operand | emptyCall | call =>
    rintro _ ⟨⟩
    exact Bool.false_ne_true

/-- The operators of the chains that are still open after an expression. -/
def chainsAfter (node : Node) : List Token.Operator :=
  if isContainer node then [] else [.plus, .minus, .multiply, .divide, .power]

/-- The operators with which a phrase goes on. -/
def Phrase.continuations : Phrase → List Token.Operator
  | .relation (.relation _ _ right) => chainsAfter right
  | .relation _ => []
  | .expression node => chainsAfter node
  | .items nodes => .comma :: (nodes.getLast?.map chainsAfter).getD []
  | .sum _ => [.plus, .minus, .multiply, .divide, .power]
  | .product _ => [.multiply, .divide, .power]
  | .unary _ | .power _ => [.power]
  | .primary _ | .call _ => []

/-- Whether a phrase made of the given tokens ends before the next token. -/
structure Ends (phrase : Phrase) (tokens : List Token) (next : Token) : Prop where
  notContinued : ¬ next.isOneOf phrase.continuations
  notCalled : next.is .leftParen → ∀ last ∈ tokens.getLast?, ¬ last.kind.isOperand

/-- Whether every phrase ends before a token. -/
def Stops (next : Token) : Prop :=
  ¬ next.isOneOf [.comma, .plus, .minus, .multiply, .divide, .power, .leftParen]

theorem chainsAfter_subset (node : Node) :
    chainsAfter node ⊆ [.plus, .minus, .multiply, .divide, .power] := by
  unfold chainsAfter
  split
  · exact List.nil_subset _
  · exact List.Subset.refl _

theorem stops_of_is {next : Token} {operator : Token.Operator} (h : next.is operator)
    (hoperator : operator ∉
      [.comma, .plus, .minus, .multiply, .divide, .power, Token.Operator.leftParen]) :
    Stops next := by
  intro hcontinued
  obtain ⟨other, hmem, hkind⟩ := (Token.isOneOf_iff _ _).mp hcontinued
  rw [(Token.is_iff _ _).mp h, TokenKind.operator.injEq] at hkind
  exact hoperator (hkind ▸ hmem)

theorem stops_of_isRelational {next : Token} (h : next.kind.isRelational) : Stops next := by
  obtain ⟨operator, hmem, hkind⟩ := (Token.isOneOf_iff _ _).mp (Token.isOneOf_comparisons h)
  have hfollowing : ∀ comparison ∈ Token.comparisons, comparison ∉
      [.comma, .plus, .minus, .multiply, .divide, .power, Token.Operator.leftParen] := by decide
  exact stops_of_is ((Token.is_iff next operator).mpr hkind) (hfollowing operator hmem)

theorem stops_of_isNewLine {next : Token} (h : next.isNewLine) : Stops next := by
  simp_all [Stops]

theorem stops_of_isEndOfInput {next : Token} (h : next.isEndOfInput) : Stops next := by
  simp_all [Stops]

theorem stops_of_isOperand {next : Token} (h : next.kind.isOperand) : Stops next := by
  intro hcontinued
  obtain ⟨operator, -, hkind⟩ := (Token.isOneOf_iff _ _).mp hcontinued
  exact Token.not_isOperand_of_is ((Token.is_iff _ _).mpr hkind) h

theorem Phrase.continuations_subset (phrase : Phrase) :
    phrase.continuations ⊆ [.comma, .plus, .minus, .multiply, .divide, .power] := by
  have hchains (node : Node) :
      chainsAfter node ⊆ [.comma, .plus, .minus, .multiply, .divide, .power] :=
    List.subset_cons_of_subset _ (chainsAfter_subset node)
  unfold continuations
  split
  case h_1 | h_3 => exact hchains _
  case h_4 nodes =>
    cases nodes.getLast? with
    | none => simp
    | some last => simpa using hchains last
  all_goals simp

theorem continuations_items_cons (first second : Node) (others : List Node) :
    (Phrase.items (first :: second :: others)).continuations =
      (Phrase.items (second :: others)).continuations := by
  rw [Phrase.continuations, Phrase.continuations, List.getLast?_cons_cons]

theorem continuations_items_subset (first : Node) (others : List Node) :
    (Phrase.items others).continuations ⊆ (Phrase.items (first :: others)).continuations := by
  cases others with
  | nil => simp [Phrase.continuations]
  | cons second others =>
    rw [continuations_items_cons]
    exact List.Subset.refl _

theorem Stops.ends {next : Token} (h : Stops next) (phrase : Phrase) (tokens : List Token) :
    Ends phrase tokens next where
  notContinued hcontinued := h (Token.isOneOf_of_subset hcontinued
    (List.Subset.trans phrase.continuations_subset
      (List.subset_append_left _ [Token.Operator.leftParen])))
  notCalled hparen := absurd ((Token.isOneOf_iff _ _).mpr
    ⟨Token.Operator.leftParen, by simp, (Token.is_iff _ _).mp hparen⟩) h

/-- A phrase ends before an operator that continues nothing in it. -/
theorem ends_of_isOneOf {operators : List Token.Operator} {next : Token}
    (hnext : next.isOneOf operators) {phrase : Phrase} (tokens : List Token)
    (hcontinuations : ∀ operator ∈ operators, operator ∉ phrase.continuations)
    (hparen : Token.Operator.leftParen ∉ operators) : Ends phrase tokens next := by
  obtain ⟨operator, hmem, hkind⟩ := (Token.isOneOf_iff _ _).mp hnext
  constructor
  · intro hcontinued
    obtain ⟨other, hother, hotherKind⟩ := (Token.isOneOf_iff _ _).mp hcontinued
    rw [hkind, TokenKind.operator.injEq] at hotherKind
    exact hcontinuations operator hmem (hotherKind ▸ hother)
  · intro hcall
    rw [Token.is_iff, hkind, TokenKind.operator.injEq] at hcall
    exact absurd (hcall ▸ hmem) hparen

theorem ends_of_is {operator : Token.Operator} {next : Token} (hnext : next.is operator)
    {phrase : Phrase} (tokens : List Token) (hcontinuations : operator ∉ phrase.continuations)
    (hparen : operator ≠ .leftParen) : Ends phrase tokens next := by
  rw [← Token.isOneOf_singleton] at hnext
  exact ends_of_isOneOf hnext tokens (List.forall_mem_singleton.mpr hcontinuations)
    fun h ↦ hparen (List.mem_singleton.mp h).symm

theorem ends_expression_of_comma {next : Token} (hnext : next.is .comma) (node : Node)
    (tokens : List Token) : Ends (.expression node) tokens next := by
  refine ends_of_is hnext tokens (fun hchain ↦ ?_) (by decide)
  simpa using chainsAfter_subset node hchain

/-- A phrase without continuations that ends in an operator ends before every token. -/
theorem Ends.of_closed {phrase : Phrase} (hcontinuations : phrase.continuations = [])
    (tokens : List Token) {closing : Token} {operator : Token.Operator}
    (hclosing : closing.is operator) (next : Token) : Ends phrase (tokens ++ [closing]) next where
  notContinued := by simp [hcontinuations]
  notCalled := by
    intro _ last hlast
    rw [List.getLast?_concat, Option.mem_some] at hlast
    exact hlast ▸ Token.not_isOperand_of_is hclosing

/-- A phrase also ends where a part of it with more continuations does, if none of the missing
operators comes next. -/
theorem Ends.widen {phrase whole : Phrase} {tokens : List Token} {next : Token}
    (h : Ends phrase tokens next) (operators : List Token.Operator)
    (hoperators : ¬ next.isOneOf operators)
    (hcontinuations : whole.continuations ⊆ operators ++ phrase.continuations) :
    Ends whole tokens next where
  notContinued := by
    intro hcontinued
    obtain ⟨operator, hmem, hkind⟩ := (Token.isOneOf_iff _ _).mp hcontinued
    rcases List.mem_append.mp (hcontinuations hmem) with hmem | hmem
    · exact hoperators ((Token.isOneOf_iff _ _).mpr ⟨operator, hmem, hkind⟩)
    · exact h.notContinued ((Token.isOneOf_iff _ _).mpr ⟨operator, hmem, hkind⟩)
  notCalled := h.notCalled

theorem Ends.mono {phrase whole : Phrase} {tokens : List Token} {next : Token}
    (h : Ends phrase tokens next) (hcontinuations : whole.continuations ⊆ phrase.continuations) :
    Ends whole tokens next :=
  h.widen [] (by simp) hcontinuations

/-- Where the last part of a phrase ends, more tokens in front of it change nothing. -/
theorem Ends.prepend {phrase : Phrase} {tokens : List Token} {next : Token}
    (h : Ends phrase tokens next) (htokens : tokens ≠ []) (before : List Token) (token : Token) :
    Ends phrase (before ++ token :: tokens) next where
  notContinued := h.notContinued
  notCalled := by
    rw [List.append_cons, List.getLast?_append_of_ne_nil _ htokens]
    exact h.notCalled

/-- The last part of a phrase ends where the phrase does. -/
theorem Ends.last {phrase whole : Phrase} (before : List Token) {tokens : List Token}
    {token next : Token} (h : Ends whole (before ++ token :: tokens) next) (htokens : tokens ≠ [])
    (hcontinuations : phrase.continuations ⊆ whole.continuations) : Ends phrase tokens next where
  notContinued hcontinued := h.notContinued (Token.isOneOf_of_subset hcontinued hcontinuations)
  notCalled := by
    have hcalled := h.notCalled
    rw [List.append_cons, List.getLast?_append_of_ne_nil _ htokens] at hcalled
    exact hcalled

end Grammar

end Formula
