import Formula.Parser.Expression
import Formula.Proofs.Reading
import Formula.Proofs.Refusal

/-!
# What the rules of the parser do

Every rule of the parser does at every state what the grammar says: it accepts the tokens of one
of its phrases, which fits into the levels it may open and ends before the next token, or it gets
stuck where `Stuck` says so, or it runs into a lexical error (`implements_expression_and_unary`).
-/

set_option autoImplicit false
set_option relaxedAutoImplicit false

namespace Formula.Parse

open Grammar

/-- Whether a phrase within a number of levels is made of the tokens and ends before the next
one. -/
def Accepted (levels : Nat) (phrase : Phrase) (tokens : List Token) (next : Token) : Prop :=
  ∃ weights, Derives weights tokens phrase ∧ Fits levels phrase.goal weights ∧
    Ends phrase tokens next

/-- Whether a part of a parser does what a rule of the grammar says. -/
def Implements {α : Type} (limit levels : Nat) (goal : Goal) (phrase : α → Phrase)
    (rule : Parse α) : Prop :=
  ∀ state : ParserState, state.Live →
    Outcome state (fun tokens value ↦ Accepted levels (phrase value) tokens)
      (Stuck limit goal levels) (rule.run state)

variable {limit levels : Nat}

/-! ### Brackets -/

/-- A phrase of an inner rule followed by a closing delimiter. -/
theorem outcome_closed {α : Type} {goal : Goal} {phrase : α → Phrase} {inner : Parse α}
    {delimiter : Token.Operator} {rule : Rule} {build : α → Node} {state : ParserState}
    {accepts : List Token → Node → Token → Prop} {refuses : List Token → ParseError → Prop}
    (hinner : Implements limit levels goal phrase inner) (hlive : state.Live)
    (haccepts : ∀ tokens value closing next, Accepted levels (phrase value) tokens closing →
      closing.is delimiter → accepts (tokens ++ [closing]) (build value) next)
    (hstuck : ∀ tokens error, tokens.headD error.token = state.current →
      Stuck limit goal levels tokens error → refuses tokens error)
    (hmissing : ∀ tokens value next, Accepted levels (phrase value) tokens next →
      ¬ next.is delimiter → refuses tokens (.unexpected rule (.delimiter delimiter) next)) :
    Outcome state accepts refuses
      ((do
        let value ← inner
        expect delimiter rule
        return build value : Parse Node).run state) := by
  refine Outcome.bind hlive (hinner state hlive) hstuck ?_
  intro tokens value middle _ hmiddle haccepted
  refine Outcome.expect_bind hmiddle ?_ ?_
  · intro hdelimiter
    rw [List.append_nil]
    exact hmissing tokens value middle.current haccepted hdelimiter
  · intro final hdelimiter _
    exact .pure (haccepts tokens value middle.current final.current haccepted hdelimiter)

variable {expressionRule unaryRule : Parse Node}

/-! ### Operands -/

theorem outcome_setLiteral (hitems : Implements limit levels .items .items (items expressionRule))
    {state : ParserState} (hlive : state.Live) (hopening : state.current.is .leftCurly) :
    Outcome state (fun tokens value ↦ Accepted (levels + 1) (.expression value) tokens)
      (Stuck limit .expression (levels + 1)) ((setLiteral expressionRule).run state) := by
  refine Outcome.expect_bind hlive (fun h ↦ absurd hopening h) fun middle _ hmiddle ↦ ?_
  refine outcome_closed hitems hmiddle ?_ ?_ ?_
  · rintro tokens elements closing next ⟨weights, hderives, hfits, -⟩ hclosing
    have hlevels : 1 + 2 + levels ≤ 2 + (levels + 1) := by omega
    exact ⟨_, .set hopening hderives hclosing, fits_map_add hfits hlevels,
      .of_closed rfl (state.current :: tokens) hclosing next⟩
  · exact fun tokens error _ h ↦ .setItems hopening h
  · rintro tokens elements next ⟨weights, hderives, hfits, hends⟩ hnext
    exact .setEnd hopening hderives hfits hends hnext

theorem outcome_vectorLiteral
    (hitems : Implements limit levels .items .items (items expressionRule))
    {state : ParserState} (hlive : state.Live) (hopening : state.current.is .leftSquare) :
    Outcome state (fun tokens value ↦ Accepted (levels + 1) (.expression value) tokens)
      (Stuck limit .expression (levels + 1)) ((vectorLiteral expressionRule).run state) := by
  refine Outcome.expect_bind hlive (fun h ↦ absurd hopening h) fun middle _ hmiddle ↦ ?_
  refine outcome_closed hitems hmiddle ?_ ?_ ?_
  · rintro tokens elements closing next ⟨weights, hderives, hfits, -⟩ hclosing
    have hlevels : 1 + 2 + levels ≤ 2 + (levels + 1) := by omega
    exact ⟨_, .vector hopening hderives hclosing, fits_map_add hfits hlevels,
      .of_closed rfl (state.current :: tokens) hclosing next⟩
  · exact fun tokens error _ h ↦ .vectorItems hopening h
  · rintro tokens elements next ⟨weights, hderives, hfits, hends⟩ hnext
    exact .vectorEnd hopening hderives hfits hends hnext

theorem implements_call (hitems : Implements limit levels .items .items (items expressionRule)) :
    Implements limit levels .call .call (call expressionRule) := by
  intro state hlive
  rw [call, run_lookahead_bind]
  by_cases hoperand : state.current.kind.isOperand
  · rw [if_pos hoperand]
    refine .forward_bind hlive (Token.IsInner.not_isEndOfInput (.inl hoperand))
      fun middle _ hmiddle _ ↦ ?_
    rw [run_lookahead_bind]
    by_cases hopening : middle.current.is .leftParen
    · rw [if_pos hopening]
      refine .forward_bind hmiddle (Token.isInner_of_is hopening).not_isEndOfInput
        fun inner _ hinner _ ↦ ?_
      rw [run_lookahead_bind]
      by_cases hclosing : inner.current.is .rightParen
      · rw [if_pos hclosing, pure_bind]
        refine Outcome.expect_bind hinner (fun h ↦ absurd hclosing h) fun final _ _ ↦ .pure ?_
        refine ⟨[0], .emptyCall hoperand hopening hclosing, ?_,
          .of_closed rfl [state.current, middle.current] hclosing final.current⟩
        simp [Fits, Phrase.goal, Goal.levels]
      · rw [if_neg hclosing]
        refine outcome_closed hitems hinner ?_ ?_ ?_
        · rintro tokens arguments closing next ⟨weights, hderives, hfits, -⟩ hclosed
          exact ⟨_, .call hoperand hopening hderives hclosed, fits_map_add hfits (Nat.le_refl _),
            .of_closed rfl (state.current :: middle.current :: tokens) hclosed next⟩
        · intro tokens error hhead hstuck
          exact .arguments hoperand hopening (hhead ▸ hclosing) hstuck
        · rintro tokens arguments next ⟨weights, hderives, hfits, hends⟩ hnext
          exact .callEnd hoperand hopening hderives hfits hends hnext
    · rw [if_neg hopening]
      refine .pure ⟨[0], .operand hoperand, ?_, ?_⟩
      · simp [Fits, Phrase.goal, Goal.levels]
      · exact ⟨by simp [Phrase.continuations], fun h ↦ absurd h hopening⟩
  · rw [if_neg hoperand]
    exact .fail (.operand hoperand)

theorem implements_primary (hsum : Implements limit levels .sum .sum (sum unaryRule))
    (hcall : Implements limit levels .call .call (call expressionRule)) :
    Implements limit levels .primary .primary (primary expressionRule unaryRule) := by
  intro state hlive
  rw [primary, run_lookahead_bind]
  by_cases hopening : state.current.is .leftParen
  · rw [if_pos hopening]
    refine .forward_bind hlive (Token.isInner_of_is hopening).not_isEndOfInput
      fun middle _ hmiddle _ ↦ ?_
    refine outcome_closed hsum hmiddle ?_ ?_ ?_
    · rintro tokens inner closing next ⟨weights, hderives, hfits, -⟩ hclosing
      exact ⟨_, .group hopening hderives hclosing, fits_map_add hfits (Nat.le_refl _),
        .of_closed rfl (state.current :: tokens) hclosing next⟩
    · exact fun tokens error _ h ↦ .group hopening h
    · rintro tokens inner next ⟨weights, hderives, hfits, hends⟩ hnext
      exact .groupEnd hopening hderives hfits hends hnext
  · rw [if_neg hopening]
    refine (hcall state hlive).mono ?_ ?_
    · rintro tokens node next ⟨weights, hderives, hfits, hends⟩
      exact ⟨weights, .primary hderives, hfits, hends.notContinued, hends.notCalled⟩
    · exact fun tokens error hhead h ↦ .primary (hhead ▸ hopening) h

theorem implements_power
    (hprimary : Implements limit levels .primary .primary (primary expressionRule unaryRule))
    (hunary : Implements limit levels .unary .unary unaryRule) :
    Implements limit levels .power .power (power expressionRule unaryRule) := by
  intro state hlive
  rw [power]
  refine Outcome.bind hlive (hprimary state hlive) (fun _ _ _ h ↦ .power h) ?_
  rintro baseTokens base middle - hmiddle ⟨weights, hderives, hfits, hends⟩
  rw [run_lookahead_bind]
  by_cases hpower : middle.current.is .power
  · rw [if_pos hpower]
    refine .forward_bind hmiddle (Token.isInner_of_is hpower).not_isEndOfInput
      fun inner _ hinner _ ↦ ?_
    refine Outcome.bind hinner (hunary inner hinner)
      (fun _ _ _ h ↦ .raised hderives hfits hpower h) ?_
    rintro tokens exponent final - - ⟨moreWeights, hexponent, hmore, hfinal⟩
    refine .pure ?_
    rw [List.append_nil]
    exact ⟨_, .raised hderives hpower hexponent,
      fits_append hfits (fits_map_add hmore (Nat.le_refl _)),
      (hfinal.prepend hexponent.ne_nil _ _).mono (List.Subset.refl _)⟩
  · rw [if_neg hpower]
    refine .pure ?_
    rw [List.append_nil]
    exact ⟨weights, .power hderives, hfits,
      hends.widen [.power] (by simpa using hpower) (List.Subset.refl _)⟩

/-! ### Chains -/

/-- A rule whose phrases are chains of the phrases of an inner rule, joined by operators. -/
structure Chains (limit levels : Nat) (operators : List Token.Operator) (goal innerGoal : Goal)
    (phrase inner : Node → Phrase) : Prop where
  goal_phrase : ∀ node, (phrase node).goal = goal
  goal_inner : ∀ node, (inner node).goal = innerGoal
  levels_eq : goal.levels = innerGoal.levels
  continuations : ∀ node operand,
    (phrase node).continuations = operators ++ (inner operand).continuations
  derives : ∀ {weights tokens node},
    Derives weights tokens (inner node) → Derives weights tokens (phrase node)
  derives_next : ∀ {weights tokens left operator moreWeights moreTokens right},
    Derives weights tokens (phrase left) → Token.isOneOf operator operators →
    Derives moreWeights moreTokens (inner right) →
    Derives (weights ++ moreWeights) (tokens ++ operator :: moreTokens)
      (phrase (.apply (.callTarget operator) [left, right]))
  stuck : ∀ {tokens error}, Stuck limit innerGoal levels tokens error →
    Stuck limit goal levels tokens error
  stuck_next : ∀ {weights tokens left operator moreTokens error},
    Derives weights tokens (phrase left) → Fits levels goal weights →
    Token.isOneOf operator operators → Stuck limit innerGoal levels moreTokens error →
    Stuck limit goal levels (tokens ++ operator :: moreTokens) error

theorem chains_sum (limit levels : Nat) :
    Chains limit levels [.plus, .minus] .sum .product .sum .product where
  goal_phrase _ := rfl
  goal_inner _ := rfl
  levels_eq := rfl
  continuations _ _ := rfl
  derives := .sum
  derives_next := .addition
  stuck := .sum
  stuck_next := .addition

theorem chains_product (limit levels : Nat) :
    Chains limit levels [.multiply, .divide] .product .unary .product .unary where
  goal_phrase _ := rfl
  goal_inner _ := rfl
  levels_eq := rfl
  continuations _ _ := rfl
  derives := .product
  derives_next := .multiplication
  stuck := .product
  stuck_next := .multiplication

section

variable {operators : List Token.Operator} {goal innerGoal : Goal} {phrase inner : Node → Phrase}
  {operand : Parse Node}

theorem Chains.fits_iff (hchains : Chains limit levels operators goal innerGoal phrase inner)
    (weights : List Nat) : Fits levels goal weights ↔ Fits levels innerGoal weights := by
  rw [Fits, Fits, hchains.levels_eq]

/-- A chain ends where its last operand does and no further operator follows. -/
theorem Chains.accepted (hchains : Chains limit levels operators goal innerGoal phrase inner)
    {node last : Node} {weights : List Nat} {tokens : List Token} {next : Token}
    (hderives : Derives weights tokens (phrase node)) (hfits : Fits levels goal weights)
    (hends : Ends (inner last) tokens next) (hoperators : ¬ next.isOneOf operators) :
    Accepted levels (phrase node) tokens next := by
  refine ⟨weights, hderives, hchains.goal_phrase node ▸ hfits, hends.widen _ hoperators ?_⟩
  rw [hchains.continuations node last]
  exact List.Subset.refl _

/-- Reading on in a chain, behind the tokens of its first operands. -/
theorem outcome_chainFrom (hchains : Chains limit levels operators goal innerGoal phrase inner)
    (hoperand : Implements limit levels innerGoal inner operand) {count : Nat} {left last : Node}
    {weights : List Nat} {tokens : List Token} {state : ParserState} (hlive : state.Live)
    (hcount : state.upcoming.size ≤ count) (hleft : Derives weights tokens (phrase left))
    (hfits : Fits levels goal weights) (hends : Ends (inner last) tokens state.current) :
    Outcome state (fun more value ↦ Accepted levels (phrase value) (tokens ++ more))
      (fun more ↦ Stuck limit goal levels (tokens ++ more))
      ((chainFrom operators operand count left).run state) := by
  induction count generalizing left last weights tokens state with
  | zero =>
    have hend := hlive.isEndOfInput (Nat.le_zero.mp hcount)
    refine .pure ?_
    rw [List.append_nil]
    exact hchains.accepted hleft hfits hends (by simp_all)
  | succ count ih =>
    rw [chainFrom, run_lookahead_bind]
    by_cases hoperator : state.current.isOneOf operators
    · rw [if_pos hoperator]
      refine .forward_bind hlive (Token.isInner_of_isOneOf hoperator).not_isEndOfInput
        fun middle _ hmiddle hsize ↦ ?_
      refine Outcome.bind hmiddle (hoperand middle hmiddle)
        (fun _ _ _ h ↦ hchains.stuck_next hleft hfits hoperator h) ?_
      rintro moreTokens right final hreads hfinal ⟨moreWeights, hright, hmore, hrightEnds⟩
      rw [hchains.goal_inner] at hmore
      have hrest := ih hfinal (by have := hreads.size hmiddle; omega)
        (hchains.derives_next hleft hoperator hright)
        (fits_append hfits ((hchains.fits_iff _).mpr hmore))
        (hrightEnds.prepend hright.ne_nil tokens state.current)
      simpa only [List.append_assoc, List.cons_append] using hrest
    · rw [if_neg hoperator]
      refine .pure ?_
      rw [List.append_nil]
      exact hchains.accepted hleft hfits hends hoperator

theorem implements_chain (hchains : Chains limit levels operators goal innerGoal phrase inner)
    (hoperand : Implements limit levels innerGoal inner operand) :
    Implements limit levels goal phrase (chain operators operand) := by
  intro state hlive
  rw [chain]
  refine Outcome.bind hlive (hoperand state hlive) (fun _ _ _ h ↦ hchains.stuck h) ?_
  rintro tokens first middle - hmiddle ⟨weights, hderives, hfits, hends⟩
  rw [run_remaining_bind]
  rw [hchains.goal_inner] at hfits
  exact outcome_chainFrom hchains hoperand hmiddle (Nat.le_refl _) (hchains.derives hderives)
    ((hchains.fits_iff _).mpr hfits) hends

end

/-! ### Items -/

theorem accepted_item {first : Node} {weights : List Nat} {tokens : List Token} {next : Token}
    (hfirst : Derives weights tokens (.expression first))
    (hfits : Fits levels .expression weights) (hends : Ends (.expression first) tokens next)
    (hcomma : ¬ next.is .comma) : Accepted levels (.items [first]) tokens next :=
  ⟨weights, .item hfirst, hfits,
    hends.widen [.comma] (by simpa using hcomma) (List.Subset.refl _)⟩

/-- Reading on behind an item. -/
theorem outcome_separatedFrom
    (hexpression : Implements limit levels .expression .expression expressionRule) {count : Nat}
    {first : Node} {weights : List Nat} {tokens : List Token} {state : ParserState}
    (hlive : state.Live) (hcount : state.upcoming.size ≤ count)
    (hfirst : Derives weights tokens (.expression first))
    (hfits : Fits levels .expression weights)
    (hends : Ends (.expression first) tokens state.current) :
    Outcome state
      (fun more others ↦ Accepted levels (.items (first :: others)) (tokens ++ more))
      (fun more ↦ Stuck limit .items levels (tokens ++ more))
      ((separatedFrom .comma expressionRule count).run state) := by
  induction count generalizing first weights tokens state with
  | zero =>
    have hend := hlive.isEndOfInput (Nat.le_zero.mp hcount)
    refine .pure ?_
    rw [List.append_nil]
    exact accepted_item hfirst hfits hends (by simp_all)
  | succ count ih =>
    rw [separatedFrom, run_lookahead_bind]
    by_cases hcomma : state.current.is .comma
    · rw [if_pos hcomma]
      refine .forward_bind hlive (Token.isInner_of_is hcomma).not_isEndOfInput
        fun middle _ hmiddle hsize ↦ ?_
      refine Outcome.bind hmiddle (hexpression middle hmiddle)
        (fun _ _ _ h ↦ .nextItem hfirst hfits hcomma (.item h)) ?_
      rintro secondTokens second inner hreads hinner ⟨secondWeights, hsecond, hmore, hsecondEnds⟩
      have hrest := ih hinner (by have := hreads.size hmiddle; omega) hsecond hmore hsecondEnds
      refine Outcome.bind hinner hrest (fun _ _ _ h ↦ .nextItem hfirst hfits hcomma h) ?_
      rintro moreTokens others final - - ⟨moreWeights, hitems, hitemsFit, hitemsEnd⟩
      refine .pure ?_
      rw [List.append_nil]
      refine ⟨_, .nextItem hfirst hcomma hitems, fits_append hfits hitemsFit,
        (hitemsEnd.prepend hitems.ne_nil _ _).mono ?_⟩
      rw [continuations_items_cons]
      exact List.Subset.refl _
    · rw [if_neg hcomma]
      refine .pure ?_
      rw [List.append_nil]
      exact accepted_item hfirst hfits hends hcomma

theorem implements_items
    (hexpression : Implements limit levels .expression .expression expressionRule) :
    Implements limit levels .items .items (items expressionRule) := by
  intro state hlive
  rw [items, separated]
  refine Outcome.bind hlive (hexpression state hlive) (fun _ _ _ h ↦ .item h) ?_
  rintro tokens first middle - hmiddle ⟨weights, hfirst, hfits, hends⟩
  rw [run_remaining_bind]
  refine Outcome.bind hmiddle
    (outcome_separatedFrom hexpression hmiddle (Nat.le_refl _) hfirst hfits hends)
    (fun _ _ _ h ↦ h) ?_
  rintro moreTokens others final - - haccepted
  refine .pure ?_
  rw [List.append_nil]
  exact haccepted

/-! ### Nesting -/

theorem implements_expression_succ
    (hexpression : Implements limit levels .expression .expression (expression limit levels))
    (hunary : Implements limit levels .unary .unary (unary limit levels)) :
    Implements limit (levels + 1) .expression .expression (expression limit (levels + 1)) := by
  have hitems := implements_items hexpression
  have hsum := implements_chain (chains_sum limit levels)
    (implements_chain (chains_product limit levels) hunary)
  intro state hlive
  rw [expression, run_lookahead_bind]
  by_cases hset : state.current.is .leftCurly
  · rw [if_pos hset]
    exact outcome_setLiteral hitems hlive hset
  rw [if_neg hset]
  by_cases hvector : state.current.is .leftSquare
  · rw [if_pos hvector]
    exact outcome_vectorLiteral hitems hlive hvector
  rw [if_neg hvector]
  refine (hsum state hlive).mono ?_ ?_
  · rintro tokens node next ⟨weights, hderives, hfits, hends⟩
    have hlevels : 2 + levels ≤ 1 + (levels + 1) := by omega
    exact ⟨weights, .expression hderives, fits_of_le hfits hlevels,
      hends.mono (chainsAfter_subset node)⟩
  · exact fun tokens error hhead h ↦ .expression (by simp_all) h

theorem implements_unary_succ
    (hexpression : Implements limit levels .expression .expression (expression limit levels))
    (hunary : Implements limit levels .unary .unary (unary limit levels)) :
    Implements limit (levels + 1) .unary .unary (unary limit (levels + 1)) := by
  have hsum := implements_chain (chains_sum limit levels)
    (implements_chain (chains_product limit levels) hunary)
  have hpower := implements_power
    (implements_primary hsum (implements_call (implements_items hexpression))) hunary
  intro state hlive
  rw [unary, run_lookahead_bind]
  by_cases hsign : state.current.isOneOf [.plus, .minus]
  · rw [if_pos hsign]
    refine .forward_bind hlive (Token.isInner_of_isOneOf hsign).not_isEndOfInput
      fun middle _ hmiddle _ ↦ ?_
    refine Outcome.bind hmiddle (hunary middle hmiddle) (fun _ _ _ h ↦ .sign hsign h) ?_
    rintro tokens operand final - - ⟨weights, hderives, hfits, hends⟩
    refine .pure ?_
    rw [List.append_nil]
    have hlevels : 1 + 1 + levels ≤ 1 + (levels + 1) := by omega
    exact ⟨_, .sign hsign hderives, fits_map_add hfits hlevels,
      (hends.prepend hderives.ne_nil [] _).mono (List.Subset.refl _)⟩
  · rw [if_neg hsign]
    refine (hpower state hlive).mono ?_ ?_
    · rintro tokens node next ⟨weights, hderives, hfits, hends⟩
      have hlevels : 1 + levels ≤ 0 + (levels + 1) := by omega
      exact ⟨weights, .unary hderives, fits_of_le hfits hlevels, hends.mono (List.Subset.refl _)⟩
    · exact fun tokens error hhead h ↦ .unary (hhead ▸ hsign) h

/-- The expressions and unaries of the parser follow the grammar at every number of levels. -/
theorem implements_expression_and_unary (limit levels : Nat) :
    Implements limit levels .expression .expression (expression limit levels) ∧
      Implements limit levels .unary .unary (unary limit levels) := by
  induction levels with
  | zero =>
    constructor
    · intro state _
      rw [expression]
      exact .tooDeep (.expressionLimit state.current)
    · intro state _
      rw [unary]
      exact .tooDeep (.unaryLimit state.current)
  | succ levels ih =>
    obtain ⟨hexpression, hunary⟩ := ih
    exact ⟨implements_expression_succ hexpression hunary, implements_unary_succ hexpression hunary⟩

end Formula.Parse
