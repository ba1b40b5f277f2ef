import Formula.Proofs.MaximalMunch
import Formula.Proofs.ProgramReplay

/-!
# The nesting limit only refuses

The rules of expressions once more, this time with other rules for the expressions and unaries
inside of them (`expressionOf`, `unaryOf`). The limited rules are such rules with one level less in
them, and `freeExpression` and `freeUnary` are the rules that have themselves in them, so that
nothing counts levels (`freeExpression_eq`, `freeUnary_eq`). `parseFree` reads a source with them.

`Follows` compares two parts of a parser at a state: both do the same, or the first one stops at a
token because of its limit and the second one goes on from there. From this it follows that another
limit or none at all makes no difference for a source that is not refused for its nesting, and that
a source which is refused for it has no error in front of the token at which this happens
(`parseWithin_limit`).
-/

set_option autoImplicit false
set_option relaxedAutoImplicit false

namespace Formula

namespace Parse

/-! ### Rules inside of rules -/

/-- An expression with given rules for the expressions and the unaries inside of it. -/
def expressionOf (expression unary : Parse Node) : Parse Node := do
  let next ← lookahead
  if next.is .leftCurly then
    setLiteral expression
  else if next.is .leftSquare then
    vectorLiteral expression
  else
    sum unary

/-- A unary with given rules for the expressions and the unaries inside of it. -/
def unaryOf (expression unary : Parse Node) : Parse Node := do
  if (← lookahead).isOneOf [.plus, .minus] then
    let sign ← forward
    let operand ← unary
    return .apply (.callTarget sign) [operand]
  else
    power expression unary

/-- A relation with a given rule for its two sides. -/
def relationOf (expression : Parse Node) : Parse Node := do
  let left ← expression
  if (← lookahead).kind.isRelational then
    let operator ← forward
    let right ← expression
    return .relation left (.callTarget operator) right
  else
    fail .relation .relationalOperator

/-- A statement with a given rule for the sides of its relation. -/
def statementOf (expression : Parse Node) : Parse Node := do
  if (← lookahead).isNewLine then
    skipNewLines
    return .empty
  else
    let node ← relationOf expression
    skipNewLines
    return node

/-- All statements of a source with a given rule for the sides of their relations. -/
def programOf (expression : Parse Node) : Parse Node := do
  return ofStatements (← untilEnd (statementOf expression))

/-- The tree of a source with a given rule for the sides of its relations. -/
def parseOf (expression : Parse Node) (source : String) : Except SyntaxError Node := do
  let state ← start source
  let (node, _) ← (programOf expression).run state
  return node

theorem expression_succ (limit levels : Nat) :
    expression limit (levels + 1) =
      expressionOf (expression limit levels) (unary limit levels) := by
  rw [expression, expressionOf]

theorem unary_succ (limit levels : Nat) :
    unary limit (levels + 1) = unaryOf (expression limit levels) (unary limit levels) := by
  rw [unary, unaryOf]

theorem parseWithin_eq_parseOf (limit : Nat) (source : String) :
    parseWithin limit source = parseOf (expression limit limit) source := by
  rfl

/-! ### Reading without a limit -/

/-- A rule that is asked only at states with fewer items left than a bound. -/
def below (bound : Nat) (rule : (state : ParserState) → state.upcoming.size < bound →
    Except SyntaxError (Node × ParserState)) : Parse Node := fun state ↦
  if h : state.upcoming.size < bound then rule state h else .ok (.empty, state)

mutual

/-- An expression at a state, however deep it nests. -/
def freeExpression (state : ParserState) : Except SyntaxError (Node × ParserState) :=
  (expressionOf (below state.upcoming.size fun inner _ ↦ freeExpression inner)
    (below (state.upcoming.size + 1) fun inner _ ↦ freeUnary inner)).run state
termination_by (state.upcoming.size, 1)
decreasing_by all_goals (rw [Prod.lex_def]; omega)

/-- A unary at a state, however deep it nests. -/
def freeUnary (state : ParserState) : Except SyntaxError (Node × ParserState) :=
  (unaryOf (below state.upcoming.size fun inner _ ↦ freeExpression inner)
    (below state.upcoming.size fun inner _ ↦ freeUnary inner)).run state
termination_by (state.upcoming.size, 0)
decreasing_by all_goals (rw [Prod.lex_def]; omega)

end

/-! ### Parts of a parser that follow each other -/

theorem run_expect_bind {α : Type} {delimiter : Token.Operator} {rule : Rule}
    {next : Unit → Parse α} {state : ParserState} (hdelimiter : state.current.is delimiter) :
    (expect delimiter rule >>= next).run state = (forward >>= fun _ ↦ next ()).run state := by
  rw [expect, bind_assoc, run_lookahead_bind, if_pos hdelimiter, bind_assoc]
  rfl

/-- Whether a result is found at a state or behind it. -/
def Onward {α : Type} (state : ParserState) (result : Except SyntaxError (α × ParserState)) :
    Prop :=
  Outcome state (fun _ _ _ ↦ True) (fun _ _ ↦ True) result

/-- How the result of a part of a parser without a limit follows the one of a part that may have a
limit, both at the same state: it is the same result, or the second part has stopped at a token
because of its limit, and the first one goes on from there. -/
def Follows {α : Type} (limit? : Option Nat) (state : ParserState)
    (limited free : Except SyntaxError (α × ParserState)) : Prop :=
  (limited = free ∧ Onward state free) ∨
    ∃ limit ∈ limit?, ∃ tokens middle, Reads state tokens middle ∧
      limited = .error (.grammatical (.nestingTooDeep .expression limit middle.current)) ∧
      Onward middle free

section

variable {α β : Type} {limit? : Option Nat} {state : ParserState}

theorem Outcome.onward {accepts : List Token → α → Token → Prop}
    {refuses : List Token → ParseError → Prop} {result : Except SyntaxError (α × ParserState)}
    (h : Outcome state accepts refuses result) : Onward state result :=
  h.mono (fun _ _ _ _ ↦ trivial) fun _ _ _ _ ↦ trivial

theorem Follows.onward {limited free : Except SyntaxError (α × ParserState)}
    (h : Follows limit? state limited free) : Onward state free := by
  rcases h with ⟨-, honward⟩ | ⟨_, -, _, _, hreads, -, honward⟩
  · exact honward
  · exact Outcome.after hreads honward

theorem Follows.of_onward {result : Except SyntaxError (α × ParserState)}
    (h : Onward state result) : Follows limit? state result result :=
  .inl ⟨rfl, h⟩

theorem Follows.pure (value : α) :
    Follows limit? state ((pure value : Parse α).run state) ((pure value : Parse α).run state) :=
  .of_onward (Outcome.pure trivial)

theorem Follows.fail (rule : Rule) (expected : Expected) :
    Follows limit? state ((fail rule expected : Parse α).run state)
      ((fail rule expected : Parse α).run state) :=
  .of_onward (Outcome.fail trivial)

theorem Follows.ite {holds : Prop} [Decidable holds] {first second other otherwise : Parse α}
    (hpositive : holds → Follows limit? state (first.run state) (second.run state))
    (hnegative : ¬ holds → Follows limit? state (other.run state) (otherwise.run state)) :
    Follows limit? state ((if holds then first else other).run state)
      ((if holds then second else otherwise).run state) := by
  split
  · next h => exact hpositive h
  · next h => exact hnegative h

/-- What is compared behind some tokens is compared in front of them, too. -/
theorem Follows.after {before : ParserState} {tokens : List Token}
    {limited free : Except SyntaxError (α × ParserState)} (hreads : Reads before tokens state)
    (h : Follows limit? state limited free) : Follows limit? before limited free := by
  rcases h with ⟨hsame, honward⟩ | ⟨limit, hlimit, more, middle, hmore, hlimited, honward⟩
  · exact .inl ⟨hsame, Outcome.after hreads honward⟩
  · exact .inr ⟨limit, hlimit, tokens ++ more, middle, hreads.append hmore, hlimited, honward⟩

theorem Follows.bind {first second : Parse α} {next other : α → Parse β} (hlive : state.Live)
    (hfirst : Follows limit? state (first.run state) (second.run state))
    (hnext : ∀ value middle, middle.Live → middle.upcoming.size ≤ state.upcoming.size →
      Follows limit? middle ((next value).run middle) ((other value).run middle)) :
    Follows limit? state ((first >>= next).run state) ((second >>= other).run state) := by
  have hbehind {middle final : ParserState} {tokens more : List Token} (value : α)
      (hreads : Reads state tokens middle) (hmore : Reads middle more final) :
      Follows limit? final ((next value).run final) ((other value).run final) := by
    have hlater := hreads.append hmore
    have hsize := hlater.size hlive
    exact hnext value final (hlater.live hlive) (by omega)
  rcases hfirst with ⟨hsame, honward⟩ | ⟨limit, hlimit, tokens, middle, hreads, hlimited, honward⟩
  · match hresult : second.run state, honward with
    | .ok (value, final), ⟨tokens, hreads, _⟩ =>
      rw [run_bind_ok (hsame.trans hresult), run_bind_ok hresult]
      exact (hbehind value hreads (.nil final)).after hreads
    | .error error, honward =>
      rw [run_bind_error (hsame.trans hresult), run_bind_error hresult]
      refine .of_onward ?_
      cases error <;> exact honward
  · refine .inr ⟨limit, hlimit, tokens, middle, hreads, run_bind_error hlimited, ?_⟩
    match hresult : second.run state, honward with
    | .ok (value, final), ⟨more, hmore, _⟩ =>
      rw [run_bind_ok hresult]
      exact Outcome.after hmore (hbehind value hreads hmore).onward
    | .error error, honward =>
      rw [run_bind_error hresult]
      cases error <;> exact honward

theorem Follows.forward_bind {next other : Token → Parse α} (hlive : state.Live)
    (hcurrent : state.current.IsInner)
    (hnext : ∀ middle : ParserState, middle.Live →
      middle.upcoming.size < state.upcoming.size →
      Follows limit? middle ((next state.current).run middle) ((other state.current).run middle)) :
    Follows limit? state ((forward >>= next).run state) ((forward >>= other).run state) := by
  rcases forward_cases hlive hcurrent.not_isEndOfInput with
    ⟨middle, hforward, hmiddle, hsize⟩ | ⟨error, hupcoming, hforward⟩
  · rw [run_bind_ok hforward, run_bind_ok hforward]
    have hreads : Reads state [state.current] middle :=
      .cons hcurrent.not_isEndOfInput hforward (.nil middle)
    exact (hnext middle hmiddle (by omega)).after hreads
  · rw [run_bind_error hforward, run_bind_error hforward]
    exact .of_onward ⟨[], state, .nil state, hupcoming⟩

theorem Follows.expect_bind {delimiter : Token.Operator} {rule : Rule}
    {next other : Unit → Parse α} (hlive : state.Live)
    (hnext : ∀ middle : ParserState, middle.Live →
      middle.upcoming.size < state.upcoming.size →
      Follows limit? middle ((next ()).run middle) ((other ()).run middle)) :
    Follows limit? state ((expect delimiter rule >>= next).run state)
      ((expect delimiter rule >>= other).run state) := by
  by_cases hdelimiter : state.current.is delimiter
  · rw [run_expect_bind hdelimiter, run_expect_bind hdelimiter]
    exact .forward_bind hlive (Token.isInner_of_is hdelimiter) hnext
  · have hmissing : (expect delimiter rule).run state = _ := run_expect_missing hdelimiter
    rw [run_bind_error hmissing, run_bind_error hmissing]
    exact .of_onward ⟨[], state, .nil state, rfl, trivial⟩

end

/-! ### Rules that follow each other -/

/-- Whether a rule follows another one at all states in use with fewer items left than a bound. -/
def FollowsBelow {α : Type} (limit? : Option Nat) (bound : Nat) (limited free : Parse α) : Prop :=
  ∀ state : ParserState, state.Live → state.upcoming.size < bound →
    Follows limit? state (limited.run state) (free.run state)

section

variable {limit? : Option Nat} {bound : Nat} {limited free limitedUnary freeUnary : Parse Node}

theorem followsBelow_chain (operators : List Token.Operator)
    (h : FollowsBelow limit? bound limited free) :
    FollowsBelow limit? bound (chain operators limited) (chain operators free) := by
  have hloop (count : Nat) (left : Node) : FollowsBelow limit? bound
      (chainFrom operators limited count left) (chainFrom operators free count left) := by
    induction count generalizing left with
    | zero => exact fun _ _ _ ↦ .pure left
    | succ count ih =>
      intro state hlive hbound
      rw [chainFrom, chainFrom, run_lookahead_bind, run_lookahead_bind]
      refine .ite (fun hoperator ↦ ?_) fun _ ↦ .pure left
      refine .forward_bind hlive (Token.isInner_of_isOneOf hoperator) fun middle hmiddle hsize ↦ ?_
      refine .bind hmiddle (h middle hmiddle (by omega)) fun right final hfinal hsmaller ↦ ?_
      exact ih _ final hfinal (by omega)
  intro state hlive hbound
  rw [chain, chain]
  refine .bind hlive (h state hlive hbound) fun first middle hmiddle hsize ↦ ?_
  rw [run_remaining_bind, run_remaining_bind]
  exact hloop _ first middle hmiddle (by omega)

theorem followsBelow_items (h : FollowsBelow limit? bound limited free) :
    FollowsBelow limit? bound (items limited) (items free) := by
  have hloop (count : Nat) : FollowsBelow limit? bound
      (separatedFrom .comma limited count) (separatedFrom .comma free count) := by
    induction count with
    | zero => exact fun _ _ _ ↦ .pure []
    | succ count ih =>
      intro state hlive hbound
      rw [separatedFrom, separatedFrom, run_lookahead_bind, run_lookahead_bind]
      refine .ite (fun hcomma ↦ ?_) fun _ ↦ .pure []
      refine .forward_bind hlive (Token.isInner_of_is hcomma) fun middle hmiddle hsize ↦ ?_
      refine .bind hmiddle (h middle hmiddle (by omega)) fun next final hfinal hsmaller ↦ ?_
      exact .bind hfinal (ih final hfinal (by omega)) fun _ _ _ _ ↦ .pure _
  intro state hlive hbound
  rw [items, items, separated, separated]
  refine .bind hlive (h state hlive hbound) fun first middle hmiddle hsize ↦ ?_
  rw [run_remaining_bind, run_remaining_bind]
  exact .bind hmiddle (hloop _ middle hmiddle (by omega)) fun _ _ _ _ ↦ .pure _

theorem followsBelow_call (h : FollowsBelow limit? bound limited free) :
    FollowsBelow limit? (bound + 1) (call limited) (call free) := by
  intro state hlive hbound
  rw [call, call, run_lookahead_bind, run_lookahead_bind]
  refine .ite (fun hoperand ↦ ?_) fun _ ↦ .fail _ _
  refine .forward_bind hlive (.inl hoperand) fun middle hmiddle hsize ↦ ?_
  rw [run_lookahead_bind, run_lookahead_bind]
  refine .ite (fun hparen ↦ ?_) fun _ ↦ .pure _
  refine .forward_bind hmiddle (Token.isInner_of_is hparen) fun inner hinner hsmaller ↦ ?_
  rw [run_lookahead_bind, run_lookahead_bind]
  have hend (arguments : List Node) (final : ParserState) (hfinal : final.Live) :
      Follows limit? final
        ((expect .rightParen .call >>= fun _ ↦
          (return .apply (.callTarget state.current) arguments : Parse Node)).run final)
        ((expect .rightParen .call >>= fun _ ↦
          (return .apply (.callTarget state.current) arguments : Parse Node)).run final) :=
    .expect_bind hfinal fun _ _ _ ↦ .pure _
  refine .ite (fun _ ↦ hend [] inner hinner) fun _ ↦ ?_
  exact .bind hinner (followsBelow_items h inner hinner (by omega))
    fun arguments final hfinal _ ↦ hend arguments final hfinal

theorem followsBelow_primary (h : FollowsBelow limit? bound limited free)
    (hunary : FollowsBelow limit? bound limitedUnary freeUnary) :
    FollowsBelow limit? (bound + 1) (primary limited limitedUnary) (primary free freeUnary) := by
  intro state hlive hbound
  rw [primary, primary, run_lookahead_bind, run_lookahead_bind]
  refine .ite (fun hparen ↦ ?_) fun _ ↦ followsBelow_call h state hlive hbound
  refine .forward_bind hlive (Token.isInner_of_is hparen) fun middle hmiddle hsize ↦ ?_
  have hsum := followsBelow_chain [.plus, .minus] (followsBelow_chain [.multiply, .divide] hunary)
  refine .bind hmiddle (hsum middle hmiddle (by omega)) fun inner final hfinal _ ↦ ?_
  exact .expect_bind hfinal fun _ _ _ ↦ .pure inner

theorem followsBelow_power (h : FollowsBelow limit? bound limited free)
    (hunary : FollowsBelow limit? bound limitedUnary freeUnary) :
    FollowsBelow limit? (bound + 1) (power limited limitedUnary) (power free freeUnary) := by
  intro state hlive hbound
  rw [power, power]
  refine .bind hlive (followsBelow_primary h hunary state hlive hbound)
    fun base middle hmiddle hsize ↦ ?_
  rw [run_lookahead_bind, run_lookahead_bind]
  refine .ite (fun hoperator ↦ ?_) fun _ ↦ .pure base
  refine .forward_bind hmiddle (Token.isInner_of_is hoperator) fun inner hinner hsmaller ↦ ?_
  exact .bind hinner (hunary inner hinner (by omega)) fun _ _ _ _ ↦ .pure _

theorem followsBelow_unaryOf (h : FollowsBelow limit? bound limited free)
    (hunary : FollowsBelow limit? bound limitedUnary freeUnary) :
    FollowsBelow limit? (bound + 1) (unaryOf limited limitedUnary) (unaryOf free freeUnary) := by
  intro state hlive hbound
  rw [unaryOf, unaryOf, run_lookahead_bind, run_lookahead_bind]
  refine .ite (fun hsign ↦ ?_) fun _ ↦ followsBelow_power h hunary state hlive hbound
  refine .forward_bind hlive (Token.isInner_of_isOneOf hsign) fun middle hmiddle hsize ↦ ?_
  exact .bind hmiddle (hunary middle hmiddle (by omega)) fun _ _ _ _ ↦ .pure _

/-- A container reads its elements behind its opening bracket. -/
theorem Follows.container {opening closing : Token.Operator} {rule : Rule}
    {make : List Node → Node} {state : ParserState} (hlive : state.Live)
    (hbound : state.upcoming.size < bound + 1) (h : FollowsBelow limit? bound limited free) :
    Follows limit? state
      ((do expect opening rule
           let elements ← items limited
           expect closing rule
           return make elements : Parse Node).run state)
      ((do expect opening rule
           let elements ← items free
           expect closing rule
           return make elements : Parse Node).run state) := by
  refine .expect_bind hlive fun middle hmiddle hsize ↦ ?_
  refine .bind hmiddle (followsBelow_items h middle hmiddle (by omega))
    fun elements final hfinal _ ↦ ?_
  exact .expect_bind hfinal fun _ _ _ ↦ .pure _

theorem followsBelow_expressionOf (h : FollowsBelow limit? bound limited free)
    (hunary : FollowsBelow limit? (bound + 1) limitedUnary freeUnary) :
    FollowsBelow limit? (bound + 1) (expressionOf limited limitedUnary)
      (expressionOf free freeUnary) := by
  intro state hlive hbound
  rw [expressionOf, expressionOf, run_lookahead_bind, run_lookahead_bind]
  refine .ite (fun _ ↦ .container hlive hbound h) fun _ ↦ ?_
  refine .ite (fun _ ↦ .container hlive hbound h) fun _ ↦ ?_
  have hsum := followsBelow_chain [.plus, .minus] (followsBelow_chain [.multiply, .divide] hunary)
  exact hsum state hlive hbound

theorem followsBelow_relationOf (h : FollowsBelow limit? bound limited free) :
    FollowsBelow limit? bound (relationOf limited) (relationOf free) := by
  intro state hlive hbound
  rw [relationOf, relationOf]
  refine .bind hlive (h state hlive hbound) fun left middle hmiddle hsize ↦ ?_
  rw [run_lookahead_bind, run_lookahead_bind]
  refine .ite (fun hoperator ↦ ?_) fun _ ↦ .fail _ _
  refine .forward_bind hmiddle (Token.isInner_of_isRelational hoperator)
    fun inner hinner hsmaller ↦ ?_
  exact .bind hinner (h inner hinner (by omega)) fun _ _ _ _ ↦ .pure _

theorem followsBelow_statementOf (h : FollowsBelow limit? bound limited free) :
    FollowsBelow limit? bound (statementOf limited) (statementOf free) := by
  have hlines (node : Node) (state : ParserState) (hlive : state.Live) :
      Follows limit? state ((do skipNewLines; return node : Parse Node).run state)
        ((do skipNewLines; return node : Parse Node).run state) :=
    .bind hlive (.of_onward (outcome_skipNewLines hlive).onward) fun _ _ _ _ ↦ .pure node
  intro state hlive hbound
  rw [statementOf, statementOf, run_lookahead_bind, run_lookahead_bind]
  refine .ite (fun _ ↦ hlines .empty state hlive) fun _ ↦ ?_
  exact .bind hlive (followsBelow_relationOf h state hlive hbound)
    fun node middle hmiddle _ ↦ hlines node middle hmiddle

theorem followsBelow_programOf (h : FollowsBelow limit? bound limited free) :
    FollowsBelow limit? bound (programOf limited) (programOf free) := by
  have hloop (count : Nat) : FollowsBelow limit? bound
      (untilEndFrom (statementOf limited) count) (untilEndFrom (statementOf free) count) := by
    induction count with
    | zero => exact fun _ _ _ ↦ .pure []
    | succ count ih =>
      intro state hlive hbound
      rw [untilEndFrom, untilEndFrom, run_lookahead_bind, run_lookahead_bind]
      refine .ite (fun _ ↦ .pure []) fun _ ↦ ?_
      refine .bind hlive (followsBelow_statementOf h state hlive hbound)
        fun next middle hmiddle hsize ↦ ?_
      exact .bind hmiddle (ih middle hmiddle (by omega)) fun _ _ _ _ ↦ .pure _
  intro state hlive hbound
  rw [programOf, programOf, untilEnd, untilEnd, bind_assoc, bind_assoc, run_remaining_bind,
    run_remaining_bind]
  exact .bind hlive (hloop _ state hlive hbound) fun _ _ _ _ ↦ .pure _

end

/-! ### The rules without a limit -/

theorem Follows.eq {α : Type} {state : ParserState}
    {limited free : Except SyntaxError (α × ParserState)} (h : Follows none state limited free) :
    limited = free := by
  rcases h with ⟨hsame, -⟩ | ⟨_, hlimit, -⟩
  · exact hsame
  · cases hlimit

theorem followsBelow_below {bound : Nat} {rule : Parse Node}
    (h : ∀ state : ParserState, state.Live → state.upcoming.size < bound →
      Onward state (rule.run state)) :
    FollowsBelow none bound (below bound fun inner _ ↦ rule.run inner) rule := by
  intro state hlive hbound
  have hrun : (below bound fun inner _ ↦ rule.run inner).run state = rule.run state :=
    dif_pos hbound
  rw [hrun]
  exact .of_onward (h state hlive hbound)

section

variable {state : ParserState}

theorem follows_freeUnary (hlive : state.Live)
    (hexpression : ∀ inner : ParserState, inner.Live →
      inner.upcoming.size < state.upcoming.size → Onward inner (freeExpression inner))
    (hunary : ∀ inner : ParserState, inner.Live →
      inner.upcoming.size < state.upcoming.size → Onward inner (freeUnary inner)) :
    Follows none state (freeUnary state) ((unaryOf freeExpression freeUnary).run state) := by
  rw [freeUnary]
  exact followsBelow_unaryOf (followsBelow_below hexpression) (followsBelow_below hunary) state
    hlive (Nat.lt_succ_self _)

theorem follows_freeExpression (hlive : state.Live)
    (hexpression : ∀ inner : ParserState, inner.Live →
      inner.upcoming.size < state.upcoming.size → Onward inner (freeExpression inner))
    (hunary : ∀ inner : ParserState, inner.Live →
      inner.upcoming.size < state.upcoming.size + 1 → Onward inner (freeUnary inner)) :
    Follows none state (freeExpression state)
      ((expressionOf freeExpression freeUnary).run state) := by
  rw [freeExpression]
  exact followsBelow_expressionOf (followsBelow_below hexpression) (followsBelow_below hunary)
    state hlive (Nat.lt_succ_self _)

theorem onward_free (bound : Nat) : ∀ state : ParserState, state.Live →
    state.upcoming.size < bound →
    Onward state (freeExpression state) ∧ Onward state (freeUnary state) := by
  induction bound with
  | zero => exact fun _ _ h ↦ absurd h (Nat.not_lt_zero _)
  | succ bound ih =>
    have hunary (state : ParserState) (hlive : state.Live)
        (hbound : state.upcoming.size < bound + 1) : Onward state (freeUnary state) := by
      have hfollows := follows_freeUnary hlive (fun inner h hsize ↦ (ih inner h (by omega)).1)
        fun inner h hsize ↦ (ih inner h (by omega)).2
      exact hfollows.eq ▸ hfollows.onward
    refine fun state hlive hbound ↦ ⟨?_, hunary state hlive hbound⟩
    have hfollows := follows_freeExpression hlive (fun inner h hsize ↦ (ih inner h (by omega)).1)
      fun inner h hsize ↦ hunary inner h (by omega)
    exact hfollows.eq ▸ hfollows.onward

theorem onward_freeExpression (hlive : state.Live) : Onward state (freeExpression state) :=
  (onward_free _ state hlive (Nat.lt_succ_self _)).1

theorem onward_freeUnary (hlive : state.Live) : Onward state (freeUnary state) :=
  (onward_free _ state hlive (Nat.lt_succ_self _)).2

/-- The expressions without a limit have expressions and unaries without a limit inside. -/
theorem freeExpression_eq (hlive : state.Live) :
    freeExpression state = (expressionOf freeExpression freeUnary).run state :=
  (follows_freeExpression hlive (fun _ h _ ↦ onward_freeExpression h)
    fun _ h _ ↦ onward_freeUnary h).eq

/-- The unaries without a limit have expressions and unaries without a limit inside. -/
theorem freeUnary_eq (hlive : state.Live) :
    freeUnary state = (unaryOf freeExpression freeUnary).run state :=
  (follows_freeUnary hlive (fun _ h _ ↦ onward_freeExpression h)
    fun _ h _ ↦ onward_freeUnary h).eq

end

/-! ### Rules with a limit and with more levels -/

/-- Whether an expression and a unary follow those that may open a number of levels of a limit. -/
def FollowLevels (limit levels : Nat) (freeExpression freeUnary : Parse Node) : Prop :=
  ∀ bound, FollowsBelow (some limit) bound (expression limit levels) freeExpression ∧
    FollowsBelow (some limit) bound (unary limit levels) freeUnary

theorem followLevels_zero (limit : Nat) {freeExpression freeUnary : Parse Node}
    (hexpression : ∀ state : ParserState, state.Live → Onward state (freeExpression.run state))
    (hunary : ∀ state : ParserState, state.Live → Onward state (freeUnary.run state)) :
    FollowLevels limit 0 freeExpression freeUnary := by
  refine fun _ ↦ ⟨fun state hlive _ ↦ ?_, fun state hlive _ ↦ ?_⟩
  · rw [expression]
    exact .inr ⟨limit, rfl, [], state, .nil state, rfl, hexpression state hlive⟩
  · rw [unary]
    exact .inr ⟨limit, rfl, [], state, .nil state, rfl, hunary state hlive⟩

theorem FollowLevels.succ {limit levels : Nat} {freeExpression freeUnary : Parse Node}
    (h : FollowLevels limit levels freeExpression freeUnary) :
    FollowLevels limit (levels + 1) (expressionOf freeExpression freeUnary)
      (unaryOf freeExpression freeUnary) := by
  intro bound
  rw [expression_succ, unary_succ]
  have hexpression := followsBelow_expressionOf (h bound).1 (h (bound + 1)).2
  have hunary := followsBelow_unaryOf (h bound).1 (h bound).2
  exact ⟨fun state hlive hbound ↦ hexpression state hlive (Nat.lt_succ_of_lt hbound),
    fun state hlive hbound ↦ hunary state hlive (Nat.lt_succ_of_lt hbound)⟩

/-- A rule that may open more levels, of another limit, follows one that may open fewer. -/
theorem followLevels_of_le (limit more : Nat) {levels moreLevels : Nat} (h : levels ≤ moreLevels) :
    FollowLevels limit levels (expression more moreLevels) (unary more moreLevels) := by
  induction levels generalizing moreLevels with
  | zero =>
    have himplements := implements_expression_and_unary more moreLevels
    exact followLevels_zero limit (fun state hlive ↦ (himplements.1 state hlive).onward)
      fun state hlive ↦ (himplements.2 state hlive).onward
  | succ levels ih =>
    obtain ⟨inner, rfl⟩ : ∃ inner, moreLevels = inner + 1 := ⟨moreLevels - 1, by omega⟩
    rw [expression_succ, unary_succ]
    exact (ih (Nat.le_of_succ_le_succ h)).succ

/-- A rule without a limit follows one with a limit. -/
theorem followLevels_free (limit levels : Nat) :
    FollowLevels limit levels freeExpression freeUnary := by
  induction levels with
  | zero =>
    exact followLevels_zero limit (fun _ ↦ onward_freeExpression) fun _ ↦ onward_freeUnary
  | succ levels ih =>
    intro bound
    obtain ⟨hexpression, hunary⟩ := ih.succ bound
    refine ⟨fun state hlive hbound ↦ ?_, fun state hlive hbound ↦ ?_⟩
    · have h := hexpression state hlive hbound
      rwa [← freeExpression_eq hlive] at h
    · have h := hunary state hlive hbound
      rwa [← freeUnary_eq hlive] at h

/-! ### Sources -/

/-- The tree of a source, however deep it nests. -/
def parseFree (source : String) : Except SyntaxError Node :=
  parseOf freeExpression source

theorem position_lt_offset_of_tokenize {source : String} {error : LexError}
    (h : tokenize source = .error error) :
    ∀ token ∈ (TokenStream.ofSource source).yielded, token.position < error.offset := by
  obtain ⟨passed, _, -, -, hpassed⟩ := exists_tokenize_of_error h
  have hpositions := TokenStream.pairwise_position_scan 0 0 (String.ofList passed).toList
  rw [← TokenStream.ofSource, yielded_of_tokenize hpassed, List.pairwise_append] at hpositions
  exact fun token hmem ↦ hpositions.2.2 token hmem _ (List.mem_singleton_self _)

/-- What stops behind a state stops at its token or behind it. -/
theorem position_le_offset_of_onward {source : String} {before state : ParserState}
    {tokens : List Token} {result : Except SyntaxError (Node × ParserState)} {error : SyntaxError}
    (hlive : before.Live) (htokenize : tokenize source = (stream before).toTokens)
    (hyielded : (TokenStream.ofSource source).yielded = (stream before).yielded)
    (hreads : Reads before tokens state) (honward : Onward state result)
    (herror : result = .error error) : state.current.position ≤ error.offset := by
  subst herror
  rw [yielded_of_reads hlive hreads] at hyielded
  cases error with
  | lexical failure =>
    obtain ⟨more, final, hmore, hfinal⟩ := honward
    have hfailure := toTokens_of_breaks hlive ⟨_, final, hreads.append hmore, hfinal⟩
    refine (position_lt_offset_of_tokenize (htokenize.trans hfailure) _ ?_).le
    rw [hyielded]
    exact List.mem_append_right _ List.mem_cons_self
  | grammatical failure =>
    obtain ⟨more, final, hmore, htoken, -⟩ := honward
    have hmem : final.current ∈ (stream state).yielded := by
      rw [yielded_of_reads (hreads.live hlive) hmore]
      exact List.mem_append_right _ List.mem_cons_self
    have hpositions := TokenStream.pairwise_position_scan 0 0 source.toList
    rw [← TokenStream.ofSource, hyielded, List.pairwise_append, List.pairwise_cons] at hpositions
    change _ ≤ failure.token.position
    rw [← htoken]
    rcases List.mem_cons.mp hmem with hsame | hlater
    · rw [hsame]
    · exact (hpositions.2.1.1 _ hlater).le

/-- Reading with a rule that follows a limited one gives the same, unless the limited one stops at
a token because of its limit; in this case nothing in front of the token is refused. -/
theorem parseOf_eq_or_tooDeep {limit : Nat} {limited free : Parse Node}
    (h : ∀ bound, FollowsBelow (some limit) bound limited free) (source : String) :
    parseOf limited source = parseOf free source ∨
      ∃ token, parseOf limited source =
          .error (.grammatical (.nestingTooDeep .expression limit token)) ∧
        ∀ error, parseOf free source = .error error → token.position ≤ error.offset := by
  rcases start_cases source with
    ⟨state, hstart, hlive, htokenize, hyielded⟩ | ⟨error, hstart, -⟩
  · have hparse (rule : Parse Node) :
        parseOf rule source = ((programOf rule).run state).map Prod.fst := by
      rw [parseOf, hstart]
      change ((programOf rule).run state >>= fun result ↦ pure result.1) = _
      cases (programOf rule).run state <;> rfl
    rw [hparse, hparse]
    rcases followsBelow_programOf (h _) state hlive (Nat.lt_succ_self _) with
      ⟨hsame, -⟩ | ⟨_, ⟨⟩, tokens, middle, hreads, hlimited, honward⟩
    · exact .inl (congrArg _ hsame)
    · refine .inr ⟨middle.current, by rw [hlimited]; rfl, fun error herror ↦ ?_⟩
      match hresult : (programOf free).run state with
      | .ok _ =>
        rw [hresult] at herror
        cases herror
      | .error failure =>
        rw [hresult] at herror
        cases herror
        exact position_le_offset_of_onward hlive htokenize hyielded hreads honward hresult
  · have hparse (rule : Parse Node) : parseOf rule source = .error (.lexical error) := by
      rw [parseOf, hstart]
      rfl
    exact .inl ((hparse limited).trans (hparse free).symm)

end Parse

open Parse

/-- A nesting limit only refuses. Where a source is not refused because of its nesting, a higher
limit or none at all makes no difference. Where it is refused for this reason, it has no error in
front of the token at which this happens, however deep it may nest. -/
theorem parseWithin_limit (limit : Nat) (source : String) :
    ((∀ error, parseWithin limit source = .error (.grammatical error) →
        error.code ≠ .nestingTooDeep) →
      (∀ more, limit ≤ more → parseWithin more source = parseWithin limit source) ∧
        parseFree source = parseWithin limit source) ∧
    ∀ error, parseWithin limit source = .error (.grammatical error) →
      error.code = .nestingTooDeep →
      ∀ failure, parseFree source = .error failure → error.token.position ≤ failure.offset := by
  simp only [parseWithin_eq_parseOf, parseFree]
  have hmore (more : Nat) (h : limit ≤ more) :=
    parseOf_eq_or_tooDeep (fun bound ↦ (followLevels_of_le limit more h bound).1) source
  have hfree := parseOf_eq_or_tooDeep (fun bound ↦ (followLevels_free limit limit bound).1) source
  refine ⟨fun haccepted ↦ ⟨fun more h ↦ ?_, ?_⟩, ?_⟩
  · rcases hmore more h with hsame | ⟨token, hlimited, -⟩
    · exact hsame.symm
    · exact absurd rfl (haccepted _ hlimited)
  · rcases hfree with hsame | ⟨token, hlimited, -⟩
    · exact hsame.symm
    · exact absurd rfl (haccepted _ hlimited)
  · intro error herror hcode failure hfailure
    rcases hfree with hsame | ⟨token, hlimited, hlater⟩
    · rw [← hsame, herror] at hfailure
      cases hfailure
      exact Nat.le_refl _
    · obtain rfl : ParseError.nestingTooDeep .expression limit token = error := by
        rw [hlimited] at herror
        cases herror
        rfl
      exact hlater failure hfailure

/-- A sign and a parenthesis need two levels more than the side of the relation that they stand on.
With three levels the name inside is refused, and nothing in front of it. -/
theorem parseWithin_limit_sign :
    (∃ node, parseWithin 4 "-(x) = y" = .ok node ∧ parse "-(x) = y" = .ok node ∧
      parseFree "-(x) = y" = .ok node) ∧
    ∃ error, parseWithin 3 "-(x) ?" = .error (.grammatical error) ∧
      error.code = .nestingTooDeep ∧ error.token = .identifier "x" 2 ∧
      ∀ failure, parseFree "-(x) ?" = .error failure → 2 ≤ failure.offset := by
  constructor
  · obtain ⟨node, hnode⟩ : ∃ node, parseWithin 4 "-(x) = y" = .ok node := ⟨_, by cbv⟩
    obtain ⟨hmore, hfree⟩ := (parseWithin_limit 4 "-(x) = y").1 fun error herror ↦ by
      rw [hnode] at herror
      cases herror
    exact ⟨node, hnode, (hmore maxNesting (by decide)).trans hnode, hfree.trans hnode⟩
  · have herror : parseWithin 3 "-(x) ?" =
        .error (.grammatical (.nestingTooDeep .expression 3 (.identifier "x" 2))) := by cbv
    exact ⟨_, herror, rfl, rfl, (parseWithin_limit 3 "-(x) ?").2 _ herror rfl⟩

end Formula
