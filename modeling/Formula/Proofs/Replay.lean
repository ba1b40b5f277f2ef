import Formula.Parser.Program
import Formula.Proofs.Reading
import Formula.Proofs.Refusal

/-!
# Phrases make the parser run

The converse of what the rules of the parser do. Where the tokens of a phrase come next, and the
phrase fits into the levels of a rule and ends before the token behind it, the rule accepts exactly
this phrase (`runs_of_derives`); where `Stuck` says that a rule gets stuck, it reports exactly this
error (`refuses_of_stuck`).
-/

set_option autoImplicit false
set_option relaxedAutoImplicit false

namespace Formula.Parse

open Grammar

/-! ### Loops -/

section

variable {operators : List Token.Operator} {operand : Parse Node} {left right : Node}
  {state middle after : ParserState} {count : Nat}

theorem run_chainFrom_done (h : ¬ state.current.isOneOf operators) (count : Nat) (left : Node) :
    (chainFrom operators operand count left).run state = .ok (left, state) := by
  cases count with
  | zero => rfl
  | succ count =>
    rw [chainFrom, run_lookahead_bind, if_neg h]
    rfl

theorem run_chainFrom_next (hlive : state.Live) (hcount : state.upcoming.size ≤ count)
    (hoperator : state.current.isOneOf operators)
    (hforward : forward.run state = .ok (state.current, middle))
    (hoperand : operand.run middle = .ok (right, after))
    (hsize : after.upcoming.size < state.upcoming.size) :
    ∃ rounds, after.upcoming.size ≤ rounds ∧
      (chainFrom operators operand count left).run state =
        (chainFrom operators operand rounds
          (.apply (.callTarget state.current) [left, right])).run after := by
  obtain ⟨rounds, rfl⟩ :=
    hlive.exists_round (Token.isInner_of_isOneOf hoperator).not_isEndOfInput hcount
  refine ⟨rounds, by omega, ?_⟩
  rw [chainFrom, run_lookahead_bind, if_pos hoperator, run_bind_ok hforward, run_bind_ok hoperand]

theorem run_chainFrom_error {error : SyntaxError} (hlive : state.Live)
    (hcount : state.upcoming.size ≤ count) (hoperator : state.current.isOneOf operators)
    (hforward : forward.run state = .ok (state.current, middle))
    (hoperand : operand.run middle = .error error) :
    (chainFrom operators operand count left).run state = .error error := by
  obtain ⟨rounds, rfl⟩ :=
    hlive.exists_round (Token.isInner_of_isOneOf hoperator).not_isEndOfInput hcount
  rw [chainFrom, run_lookahead_bind, if_pos hoperator, run_bind_ok hforward,
    run_bind_error hoperand]

end

section

variable {element : Parse Node} {next : Node} {state middle after : ParserState} {count : Nat}

theorem run_separatedFrom_done (h : ¬ state.current.is .comma) (count : Nat) :
    (separatedFrom .comma element count).run state = .ok ([], state) := by
  cases count with
  | zero => rfl
  | succ count =>
    rw [separatedFrom, run_lookahead_bind, if_neg h]
    rfl

theorem run_separatedFrom_next (hlive : state.Live) (hcount : state.upcoming.size ≤ count)
    (hcomma : state.current.is .comma)
    (hforward : forward.run state = .ok (state.current, middle))
    (helement : element.run middle = .ok (next, after))
    (hsize : after.upcoming.size < state.upcoming.size) :
    ∃ rounds, after.upcoming.size ≤ rounds ∧
      (separatedFrom .comma element count).run state =
        (separatedFrom .comma element rounds >>= fun others ↦ return next :: others).run after := by
  obtain ⟨rounds, rfl⟩ := hlive.exists_round (Token.isInner_of_is hcomma).not_isEndOfInput hcount
  refine ⟨rounds, by omega, ?_⟩
  rw [separatedFrom, run_lookahead_bind, if_pos hcomma, run_bind_ok hforward,
    run_bind_ok helement]

theorem run_separatedFrom_error {error : SyntaxError} (hlive : state.Live)
    (hcount : state.upcoming.size ≤ count) (hcomma : state.current.is .comma)
    (hforward : forward.run state = .ok (state.current, middle))
    (helement : element.run middle = .error error) :
    (separatedFrom .comma element count).run state = .error error := by
  obtain ⟨rounds, rfl⟩ := hlive.exists_round (Token.isInner_of_is hcomma).not_isEndOfInput hcount
  rw [separatedFrom, run_lookahead_bind, if_pos hcomma, run_bind_ok hforward,
    run_bind_error helement]

end

/-! ### Accepted phrases -/

/-- The phrase whose end is all that the rule of a phrase has seen before it looks for the next
operator of a chain. -/
def operandOf : Phrase → Phrase
  | .sum node => .product node
  | .product node => .unary node
  | phrase => phrase

/-- Where a phrase ends, its rule has also seen the end of the last operand. -/
theorem ends_operandOf {phrase : Phrase} {tokens : List Token} {next : Token}
    (h : Ends phrase tokens next) : Ends (operandOf phrase) tokens next := by
  cases phrase with
  | sum | product => exact h.mono (by simp [operandOf, Phrase.continuations])
  | _ => exact h

/-- What the rule of a phrase does between two states when it accepts the phrase. Where the rule is
a loop, it is said for any number of rounds that suffices. -/
def Runs (limit levels : Nat) (before after : ParserState) : Phrase → Prop
  | .relation node => levels = limit → (relation limit).run before = .ok (node, after)
  | .expression node => (expression limit levels).run before = .ok (node, after)
  | .items nodes => ∃ first others middle, nodes = first :: others ∧
      (expression limit levels).run before = .ok (first, middle) ∧
      middle.upcoming.size ≤ before.upcoming.size ∧
      ∀ count, middle.upcoming.size ≤ count →
        (separatedFrom .comma (expression limit levels) count).run middle = .ok (others, after)
  | .sum node => ∃ count, after.upcoming.size ≤ count ∧ (sum (unary limit levels)).run before =
      (chainFrom [.plus, .minus] (product (unary limit levels)) count node).run after
  | .product node => ∃ count, after.upcoming.size ≤ count ∧
      (product (unary limit levels)).run before =
        (chainFrom [.multiply, .divide] (unary limit levels) count node).run after
  | .unary node => (unary limit levels).run before = .ok (node, after)
  | .power node =>
    (power (expression limit levels) (unary limit levels)).run before = .ok (node, after)
  | .primary node =>
    (primary (expression limit levels) (unary limit levels)).run before = .ok (node, after)
  | .call node => (call (expression limit levels)).run before = .ok (node, after)

variable {limit levels : Nat} {before after : ParserState} {tokens : List Token}

theorem Runs.items {nodes : List Node} (h : Runs limit levels before after (.items nodes)) :
    (items (expression limit levels)).run before = .ok (nodes, after) := by
  obtain ⟨first, others, middle, rfl, hfirst, -, hothers⟩ := h
  rw [Parse.items, separated, run_bind_ok hfirst, run_remaining_bind,
    run_bind_ok (hothers _ (Nat.le_refl _))]
  rfl

theorem Runs.sum {node : Node} (h : Runs limit levels before after (.sum node))
    (hends : Ends (.sum node) tokens after.current) :
    (Parse.sum (unary limit levels)).run before = .ok (node, after) := by
  obtain ⟨count, -, hrun⟩ := h
  rw [hrun, run_chainFrom_done _ count node]
  exact fun h ↦ hends.notContinued (Token.isOneOf_of_subset h (by simp [Phrase.continuations]))

theorem Runs.product {node : Node} (h : Runs limit levels before after (.product node))
    (hends : Ends (.product node) tokens after.current) :
    (Parse.product (unary limit levels)).run before = .ok (node, after) := by
  obtain ⟨count, -, hrun⟩ := h
  rw [hrun, run_chainFrom_done _ count node]
  exact fun h ↦ hends.notContinued (Token.isOneOf_of_subset h (by simp [Phrase.continuations]))

/-! ### Parts of what is read -/

/-- What is read splits at every token in the middle of it. -/
theorem Reads.exists_middle {firstTokens moreTokens : List Token} {operator : Token}
    (h : Reads before (firstTokens ++ operator :: moreTokens) after) (hlive : before.Live) :
    ∃ middle inner, Reads before firstTokens middle ∧ middle.Live ∧ middle.current = operator ∧
      forward.run middle = .ok (middle.current, inner) ∧ Reads inner moreTokens after ∧
      inner.Live ∧ after.upcoming.size < middle.upcoming.size := by
  obtain ⟨middle, hfirst, hrest⟩ := h.exists_append
  have hmiddle := hfirst.live hlive
  have hsize := hrest.size hmiddle
  rw [List.length_cons] at hsize
  obtain ⟨rfl, inner, hforward, hmore, hinner⟩ := hrest.exists_next hmiddle
  exact ⟨middle, inner, hfirst, hmiddle, rfl, hforward, hmore, hinner, by omega⟩

/-- What is read between two brackets. -/
theorem Reads.exists_closed {innerTokens : List Token} {opening closing : Token}
    (h : Reads before (opening :: (innerTokens ++ [closing])) after) (hlive : before.Live) :
    ∃ inner middle, before.current = opening ∧ forward.run before = .ok (before.current, inner) ∧
      Reads inner innerTokens middle ∧ inner.Live ∧ middle.current = closing ∧
      forward.run middle = .ok (middle.current, after) := by
  obtain ⟨rfl, inner, hforward, hrest, hinner⟩ := h.exists_next hlive
  obtain ⟨middle, hmiddle, hclosing⟩ := hrest.exists_append
  obtain ⟨rfl, -, last, hlast, hnil⟩ := hclosing.exists_cons
  cases hnil
  exact ⟨inner, middle, rfl, hforward, hmiddle, hinner, rfl, hlast⟩

/-- A phrase begins with the token that comes next. -/
theorem starts_of_reads {weights : List Nat} {phrase : Phrase} (h : Derives weights tokens phrase)
    (hreads : Reads before tokens after) : phrase.goal.Starts before.current := by
  obtain ⟨first, rest, rfl, hstarts⟩ := h.starts
  exact hreads.exists_cons.1 ▸ hstarts

/-- A rule accepts each of its phrases that fits and ends before the next token. -/
theorem runs_of_derives (limit : Nat) {weights : List Nat} {phrase : Phrase}
    (h : Derives weights tokens phrase) (hlive : before.Live) (hreads : Reads before tokens after)
    (hfits : Fits levels phrase.goal weights)
    (hends : Ends (operandOf phrase) tokens after.current) :
    Runs limit levels before after phrase := by
  induction h generalizing levels before after with
  | relation hleft hoperator hright ihleft ihright =>
    rintro rfl
    obtain ⟨hleftFits, hrightFits⟩ := List.forall_mem_append.mp hfits
    obtain ⟨middle, inner, hfirst, hmiddle, rfl, hforward, hrest, hinner, -⟩ :=
      hreads.exists_middle hlive
    have hleftRun := ihleft hlive hfirst hleftFits ((stops_of_isRelational hoperator).ends _ _)
    have hrightRun := ihright hinner hrest hrightFits
      (hends.last _ hright.ne_nil (List.Subset.refl _))
    rw [relation, run_bind_ok hleftRun, run_lookahead_bind, if_pos hoperator,
      run_bind_ok hforward, run_bind_ok hrightRun]
    rfl
  | set hopening hderives hclosing ih =>
    obtain ⟨levels, rfl⟩ :=
      exists_levels_of_fits hfits (hderives.map_weights_ne_nil _) (Nat.succ_ne_zero _)
    obtain ⟨inner, middle, rfl, hforward, hmore, hinner, rfl, hlast⟩ := hreads.exists_closed hlive
    have hlevels : 2 + (levels + 1) ≤ 1 + 2 + levels := by omega
    have hitems := (ih hinner hmore (fits_of_map_add hfits hlevels)
      ((stops_of_is hclosing (by decide)).ends _ _)).items
    rw [Runs, expression, run_lookahead_bind, if_pos hopening, setLiteral,
      run_bind_ok (run_expect_ok hopening hforward), run_bind_ok hitems,
      run_bind_ok (run_expect_ok hclosing hlast)]
    rfl
  | vector hopening hderives hclosing ih =>
    obtain ⟨levels, rfl⟩ :=
      exists_levels_of_fits hfits (hderives.map_weights_ne_nil _) (Nat.succ_ne_zero _)
    obtain ⟨inner, middle, rfl, hforward, hmore, hinner, rfl, hlast⟩ := hreads.exists_closed hlive
    have hlevels : 2 + (levels + 1) ≤ 1 + 2 + levels := by omega
    have hitems := (ih hinner hmore (fits_of_map_add hfits hlevels)
      ((stops_of_is hclosing (by decide)).ends _ _)).items
    have hset : ¬ before.current.is .leftCurly := by simp_all
    rw [Runs, expression, run_lookahead_bind, if_neg hset, if_pos hopening, vectorLiteral,
      run_bind_ok (run_expect_ok hopening hforward), run_bind_ok hitems,
      run_bind_ok (run_expect_ok hclosing hlast)]
    rfl
  | @expression _ _ node hderives ih =>
    obtain ⟨levels, rfl⟩ := exists_levels_of_fits hfits hderives.weights_ne_nil (Nat.succ_ne_zero _)
    have hlevels : 1 + (levels + 1) ≤ 2 + levels := by omega
    have hcontinuations : (Phrase.sum node).continuations ⊆ chainsAfter node := by
      rw [chainsAfter, if_neg (hderives.not_isContainer node rfl)]
      exact List.Subset.refl _
    have hsumEnds : Ends (.sum node) _ after.current := hends.mono hcontinuations
    have hsum := (ih hlive hreads (fits_of_le hfits hlevels)
      (ends_operandOf hsumEnds)).sum hsumEnds
    have hstarts := (starts_of_reads hderives hreads).not_isOneOf
      [.leftCurly, .leftSquare] (by simp [Phrase.goal, Goal.openings])
    rw [Runs, expression, run_lookahead_bind, if_neg (by simp_all), if_neg (by simp_all), hsum]
  | item hderives ih =>
    have hrun := ih hlive hreads hfits (hends.mono (by simp [operandOf, Phrase.continuations]))
    have hcomma : ¬ after.current.is .comma := fun hcomma ↦ hends.notContinued
      ((Token.isOneOf_iff _ _).mpr ⟨.comma, List.mem_cons_self, (Token.is_iff _ _).mp hcomma⟩)
    exact ⟨_, [], after, rfl, hrun, by have := hreads.size hlive; omega,
      fun count _ ↦ run_separatedFrom_done hcomma count⟩
  | nextItem hfirst hcomma hrest ihfirst ihrest =>
    obtain ⟨hfirstFits, hrestFits⟩ := List.forall_mem_append.mp hfits
    obtain ⟨middle, inner, hreadsFirst, hmiddle, rfl, hforward, hreadsRest, hinner, hsize⟩ :=
      hreads.exists_middle hlive
    have hfirstRun := ihfirst hlive hreadsFirst hfirstFits (ends_expression_of_comma hcomma _ _)
    obtain ⟨second, others, last, rfl, hsecond, hlast, hothers⟩ := ihrest hinner hreadsRest
      hrestFits (hends.last _ hrest.ne_nil (continuations_items_subset _ _))
    obtain ⟨-, hinnerSize⟩ :=
      forward_next hmiddle (Token.isInner_of_is hcomma).not_isEndOfInput hforward
    have hmiddleSize := hreadsFirst.size hlive
    refine ⟨_, _, middle, rfl, hfirstRun, by omega, fun count hcount ↦ ?_⟩
    obtain ⟨rounds, hrounds, hrun⟩ :=
      run_separatedFrom_next hmiddle hcount hcomma hforward hsecond (by omega)
    rw [hrun, run_bind_ok (hothers rounds hrounds)]
    rfl
  | sum hderives ih =>
    have hproduct := ih hlive hreads hfits (hends.mono (by simp [operandOf, Phrase.continuations]))
    refine ⟨after.upcoming.size, Nat.le_refl _, ?_⟩
    rw [Parse.sum, chain, run_bind_ok (hproduct.product hends), run_remaining_bind]
  | @addition _ _ _ _ _ right _ hleft hoperator hright ihleft ihright =>
    obtain ⟨hleftFits, hrightFits⟩ := List.forall_mem_append.mp hfits
    obtain ⟨middle, inner, hfirst, hmiddle, rfl, hforward, hrest, hinner, hsize⟩ :=
      hreads.exists_middle hlive
    obtain ⟨count, hcount, hrun⟩ := ihleft hlive hfirst hleftFits
      (ends_of_isOneOf hoperator _ (by simp [operandOf, Phrase.continuations]) (by decide))
    have hrightEnds : Ends (.product right) _ after.current := hends.last _ hright.ne_nil
      (List.Subset.refl _)
    have hrightRun := (ihright hinner hrest hrightFits
      (ends_operandOf hrightEnds)).product hrightEnds
    obtain ⟨more, hmore, hchain⟩ :=
      run_chainFrom_next hmiddle hcount hoperator hforward hrightRun hsize
    exact ⟨more, hmore, hrun.trans hchain⟩
  | product hderives ih =>
    have hunary := ih hlive hreads hfits hends
    refine ⟨after.upcoming.size, Nat.le_refl _, ?_⟩
    rw [Parse.product, chain, run_bind_ok hunary, run_remaining_bind]
  | multiplication hleft hoperator hright ihleft ihright =>
    obtain ⟨hleftFits, hrightFits⟩ := List.forall_mem_append.mp hfits
    obtain ⟨middle, inner, hfirst, hmiddle, rfl, hforward, hrest, hinner, hsize⟩ :=
      hreads.exists_middle hlive
    obtain ⟨count, hcount, hrun⟩ := ihleft hlive hfirst hleftFits
      (ends_of_isOneOf hoperator _ (by simp [operandOf, Phrase.continuations]) (by decide))
    have hrightRun := ihright hinner hrest hrightFits
      (hends.last _ hright.ne_nil (List.Subset.refl _))
    obtain ⟨more, hmore, hchain⟩ :=
      run_chainFrom_next hmiddle hcount hoperator hforward hrightRun hsize
    exact ⟨more, hmore, hrun.trans hchain⟩
  | sign hsign hderives ih =>
    obtain ⟨levels, rfl⟩ :=
      exists_levels_of_fits hfits (hderives.map_weights_ne_nil _) (Nat.succ_ne_zero _)
    obtain ⟨rfl, inner, hforward, hrest, hinner⟩ := hreads.exists_next hlive
    have hlevels : 1 + (levels + 1) ≤ 1 + 1 + levels := by omega
    have hrun := ih hinner hrest (fits_of_map_add hfits hlevels)
      (hends.last [] hderives.ne_nil (List.Subset.refl _))
    rw [Runs, unary, run_lookahead_bind, if_pos hsign, run_bind_ok hforward, run_bind_ok hrun]
    rfl
  | unary hderives ih =>
    obtain ⟨levels, rfl⟩ := exists_levels_of_fits hfits hderives.weights_ne_nil (Nat.succ_ne_zero _)
    have hlevels : 0 + (levels + 1) ≤ 1 + levels := by omega
    have hrun := ih hlive hreads (fits_of_le hfits hlevels) (hends.mono (List.Subset.refl _))
    have hstarts := (starts_of_reads hderives hreads).not_isOneOf
      [.plus, .minus] (by simp [Phrase.goal, Goal.openings])
    rw [Runs, unary, run_lookahead_bind, if_neg hstarts, hrun]
  | power hderives ih =>
    have hrun := ih hlive hreads hfits (hends.mono (List.nil_subset _))
    have hpower : ¬ after.current.is .power := by
      simpa [operandOf, Phrase.continuations] using hends.notContinued
    rw [Runs, power, run_bind_ok hrun, run_lookahead_bind, if_neg hpower]
    rfl
  | raised hbase hoperator hexponent ihbase ihexponent =>
    obtain ⟨hbaseFits, hexponentFits⟩ := List.forall_mem_append.mp hfits
    obtain ⟨middle, inner, hfirst, hmiddle, rfl, hforward, hrest, hinner, -⟩ :=
      hreads.exists_middle hlive
    have hbaseRun := ihbase hlive hfirst hbaseFits
      (ends_of_is hoperator _ (by simp [operandOf, Phrase.continuations]) (by decide))
    have hexponentRun := ihexponent hinner hrest
      (fits_of_map_add hexponentFits (Nat.le_refl _))
      (hends.last _ hexponent.ne_nil (List.Subset.refl _))
    rw [Runs, power, run_bind_ok hbaseRun, run_lookahead_bind, if_pos hoperator,
      run_bind_ok hforward, run_bind_ok hexponentRun]
    rfl
  | group hopening hderives hclosing ih =>
    obtain ⟨inner, middle, rfl, hforward, hmore, hinner, rfl, hlast⟩ := hreads.exists_closed hlive
    have hstops := stops_of_is hclosing (by decide)
    have hsum := (ih hinner hmore (fits_of_map_add hfits (Nat.le_refl _))
      (hstops.ends _ _)).sum (hstops.ends _ [])
    rw [Runs, primary, run_lookahead_bind, if_pos hopening, run_bind_ok hforward,
      run_bind_ok hsum, run_bind_ok (run_expect_ok hclosing hlast)]
    rfl
  | primary hderives ih =>
    have hrun := ih hlive hreads hfits (hends.mono (List.Subset.refl _))
    have hparen := (starts_of_reads hderives hreads).not_is .leftParen
      (by simp [Phrase.goal, Goal.openings])
    rw [Runs, primary, run_lookahead_bind, if_neg hparen, hrun]
  | operand hoperand =>
    obtain ⟨rfl, hcurrent, inner, hforward, hnil⟩ := hreads.exists_cons
    cases hnil
    have hparen : ¬ after.current.is .leftParen := fun h ↦ hends.notCalled h _ rfl hoperand
    rw [Runs, call, run_lookahead_bind, if_pos hoperand, run_bind_ok hforward,
      run_lookahead_bind, if_neg hparen]
    rfl
  | emptyCall hfunction hopening hclosing =>
    obtain ⟨rfl, hcurrent, inner, hforward, hrest⟩ := hreads.exists_cons
    obtain ⟨rfl, -, middle, hopeningForward, hrest⟩ := hrest.exists_cons
    obtain ⟨rfl, -, last, hlast, hnil⟩ := hrest.exists_cons
    cases hnil
    rw [Runs, call, run_lookahead_bind, if_pos hfunction, run_bind_ok hforward,
      run_lookahead_bind, if_pos hopening, run_bind_ok hopeningForward, run_lookahead_bind,
      if_pos hclosing, pure_bind, run_bind_ok (run_expect_ok hclosing hlast)]
    rfl
  | call hfunction hopening hderives hclosing ih =>
    obtain ⟨rfl, inner, hforward, hrest, hinner⟩ := hreads.exists_next hlive
    obtain ⟨inside, middle, rfl, hopeningForward, hmore, hinside, rfl, hlast⟩ :=
      hrest.exists_closed hinner
    have hitems := (ih hinside hmore (fits_of_map_add hfits (Nat.le_refl _))
      ((stops_of_is hclosing (by decide)).ends _ _)).items
    have hparen := (starts_of_reads hderives hmore).not_is .rightParen
      (by simp [Phrase.goal, Goal.openings])
    rw [Runs, call, run_lookahead_bind, if_pos hfunction, run_bind_ok hforward,
      run_lookahead_bind, if_pos hopening, run_bind_ok hopeningForward, run_lookahead_bind,
      if_neg hparen, run_bind_ok hitems, run_bind_ok (run_expect_ok hclosing hlast)]
    rfl

/-! ### Refused tokens -/

/-- What a rule does at a state when it reports the error. Where the rule is a loop, it is said for
any number of rounds that suffices. -/
def Refuses (limit levels : Nat) (before : ParserState) (error : ParseError) : Goal → Prop
  | .relation => levels = limit → (relation limit).run before = .error (.grammatical error)
  | .expression => (expression limit levels).run before = .error (.grammatical error)
  | .items => (expression limit levels).run before = .error (.grammatical error) ∨
      ∃ first middle, (expression limit levels).run before = .ok (first, middle) ∧
        middle.upcoming.size ≤ before.upcoming.size ∧
        ∀ count, middle.upcoming.size ≤ count →
          (separatedFrom .comma (expression limit levels) count).run middle =
            .error (.grammatical error)
  | .sum => (sum (unary limit levels)).run before = .error (.grammatical error)
  | .product => (product (unary limit levels)).run before = .error (.grammatical error)
  | .unary => (unary limit levels).run before = .error (.grammatical error)
  | .power =>
    (power (expression limit levels) (unary limit levels)).run before = .error (.grammatical error)
  | .primary =>
    (primary (expression limit levels) (unary limit levels)).run before =
      .error (.grammatical error)
  | .call => (call (expression limit levels)).run before = .error (.grammatical error)

theorem Refuses.items {error : ParseError} (h : Refuses limit levels before error .items) :
    (items (expression limit levels)).run before = .error (.grammatical error) := by
  rw [Parse.items, separated]
  rcases h with hfirst | ⟨first, middle, hfirst, -, hothers⟩
  · rw [run_bind_error hfirst]
  · rw [run_bind_ok hfirst, run_remaining_bind, run_bind_error (hothers _ (Nat.le_refl _))]

/-- Where a rule gets stuck it reports the error. -/
theorem refuses_of_stuck {goal : Goal} {error : ParseError}
    (h : Stuck limit goal levels tokens error) (hlive : before.Live)
    (hreads : Reads before tokens after) (htoken : after.current = error.token) :
    Refuses limit levels before error goal := by
  have hhead : tokens.headD error.token = before.current := htoken ▸ hreads.headD
  induction h generalizing before with
  | left _ ih =>
    rintro rfl
    rw [relation, run_bind_error (ih hlive hreads htoken hhead)]
  | @comparison levels _ _ _ _ hleft hfits hends hnext =>
    rintro rfl
    cases htoken
    have hleftRun := runs_of_derives levels hleft hlive hreads hfits hends
    rw [relation, run_bind_ok hleftRun, run_lookahead_bind, if_neg hnext, run_fail]
  | @right levels _ _ _ _ _ _ hleft hfits hoperator _ ih =>
    rintro rfl
    obtain ⟨middle, inner, hfirst, hmiddle, rfl, hforward, hrest, hinner, -⟩ :=
      hreads.exists_middle hlive
    have hleftRun := runs_of_derives levels hleft hlive hfirst hfits
      ((stops_of_isRelational hoperator).ends _ _)
    have hrightRun := ih hinner hrest htoken (htoken ▸ hrest.headD)
    rw [relation, run_bind_ok hleftRun, run_lookahead_bind, if_pos hoperator,
      run_bind_ok hforward, run_bind_error hrightRun]
  | expressionLimit next =>
    cases hreads
    cases htoken
    rw [Refuses, expression, run_tooDeep]
  | setItems hopening _ ih =>
    obtain ⟨rfl, inner, hforward, hrest, hinner⟩ := hreads.exists_next hlive
    have hitems := (ih hinner hrest htoken (htoken ▸ hrest.headD)).items
    rw [Refuses, expression, run_lookahead_bind, if_pos hopening, setLiteral,
      run_bind_ok (run_expect_ok hopening hforward), run_bind_error hitems]
  | setEnd hopening hitems hfits hends hnext =>
    obtain ⟨rfl, inner, hforward, hrest, hinner⟩ := hreads.exists_next hlive
    cases htoken
    have hrun := (runs_of_derives limit hitems hinner hrest hfits hends).items
    rw [Refuses, expression, run_lookahead_bind, if_pos hopening, setLiteral,
      run_bind_ok (run_expect_ok hopening hforward), run_bind_ok hrun,
      run_bind_error (run_expect_missing hnext)]
  | vectorItems hopening _ ih =>
    obtain ⟨rfl, inner, hforward, hrest, hinner⟩ := hreads.exists_next hlive
    have hitems := (ih hinner hrest htoken (htoken ▸ hrest.headD)).items
    have hset : ¬ before.current.is .leftCurly := by simp_all
    rw [Refuses, expression, run_lookahead_bind, if_neg hset, if_pos hopening, vectorLiteral,
      run_bind_ok (run_expect_ok hopening hforward), run_bind_error hitems]
  | vectorEnd hopening hitems hfits hends hnext =>
    obtain ⟨rfl, inner, hforward, hrest, hinner⟩ := hreads.exists_next hlive
    cases htoken
    have hrun := (runs_of_derives limit hitems hinner hrest hfits hends).items
    have hset : ¬ before.current.is .leftCurly := by simp_all
    rw [Refuses, expression, run_lookahead_bind, if_neg hset, if_pos hopening, vectorLiteral,
      run_bind_ok (run_expect_ok hopening hforward), run_bind_ok hrun,
      run_bind_error (run_expect_missing hnext)]
  | expression hfirst _ ih =>
    rw [hhead] at hfirst
    have hsum := ih hlive hreads htoken hhead
    rw [Refuses, expression, run_lookahead_bind, if_neg (by simp_all), if_neg (by simp_all), hsum]
  | item _ ih => exact .inl (ih hlive hreads htoken hhead)
  | nextItem hfirst hfits hcomma _ ih =>
    obtain ⟨middle, inner, hreadsFirst, hmiddle, rfl, hforward, hrest, hinner, -⟩ :=
      hreads.exists_middle hlive
    have hfirstRun := runs_of_derives limit hfirst hlive hreadsFirst hfits
      (ends_expression_of_comma hcomma _ _)
    obtain ⟨-, hinnerSize⟩ :=
      forward_next hmiddle (Token.isInner_of_is hcomma).not_isEndOfInput hforward
    have hmiddleSize := hreadsFirst.size hlive
    refine .inr ⟨_, middle, hfirstRun, by omega, fun count hcount ↦ ?_⟩
    rcases ih hinner hrest htoken (htoken ▸ hrest.headD) with
      hsecond | ⟨second, last, hsecond, hlast, hothers⟩
    · exact run_separatedFrom_error hmiddle hcount hcomma hforward hsecond
    · obtain ⟨rounds, hrounds, hrun⟩ :=
        run_separatedFrom_next hmiddle hcount hcomma hforward hsecond (by omega)
      rw [hrun, run_bind_error (hothers rounds hrounds)]
  | sum _ ih =>
    rw [Refuses, Parse.sum, chain, run_bind_error (ih hlive hreads htoken hhead)]
  | addition hleft hfits hoperator _ ih | multiplication hleft hfits hoperator _ ih =>
    obtain ⟨middle, inner, hfirst, hmiddle, rfl, hforward, hrest, hinner, -⟩ :=
      hreads.exists_middle hlive
    obtain ⟨count, hcount, hrun⟩ := runs_of_derives limit hleft hlive hfirst hfits
      (ends_of_isOneOf hoperator _ (by simp [operandOf, Phrase.continuations]) (by decide))
    have hright := ih hinner hrest htoken (htoken ▸ hrest.headD)
    exact hrun.trans (run_chainFrom_error hmiddle hcount hoperator hforward hright)
  | product _ ih =>
    rw [Refuses, Parse.product, chain, run_bind_error (ih hlive hreads htoken hhead)]
  | unaryLimit next =>
    cases hreads
    cases htoken
    rw [Refuses, unary, run_tooDeep]
  | sign hsign _ ih =>
    obtain ⟨rfl, inner, hforward, hrest, hinner⟩ := hreads.exists_next hlive
    have hoperand := ih hinner hrest htoken (htoken ▸ hrest.headD)
    rw [Refuses, unary, run_lookahead_bind, if_pos hsign, run_bind_ok hforward,
      run_bind_error hoperand]
  | unary hfirst _ ih =>
    rw [hhead] at hfirst
    have hpower := ih hlive hreads htoken hhead
    rw [Refuses, unary, run_lookahead_bind, if_neg hfirst, hpower]
  | power _ ih => rw [Refuses, power, run_bind_error (ih hlive hreads htoken hhead)]
  | raised hbase hfits hoperator _ ih =>
    obtain ⟨middle, inner, hfirst, hmiddle, rfl, hforward, hrest, hinner, -⟩ :=
      hreads.exists_middle hlive
    have hbaseRun := runs_of_derives limit hbase hlive hfirst hfits
      (ends_of_is hoperator _ (by simp [operandOf, Phrase.continuations]) (by decide))
    have hexponent := ih hinner hrest htoken (htoken ▸ hrest.headD)
    rw [Refuses, power, run_bind_ok hbaseRun, run_lookahead_bind, if_pos hoperator,
      run_bind_ok hforward, run_bind_error hexponent]
  | group hopening _ ih =>
    obtain ⟨rfl, inner, hforward, hrest, hinner⟩ := hreads.exists_next hlive
    have hsum := ih hinner hrest htoken (htoken ▸ hrest.headD)
    rw [Refuses, primary, run_lookahead_bind, if_pos hopening, run_bind_ok hforward,
      run_bind_error hsum]
  | groupEnd hopening hgroup hfits hends hnext =>
    obtain ⟨rfl, inner, hforward, hrest, hinner⟩ := hreads.exists_next hlive
    cases htoken
    have hrun := (runs_of_derives limit hgroup hinner hrest hfits
      (ends_operandOf hends)).sum hends
    rw [Refuses, primary, run_lookahead_bind, if_pos hopening, run_bind_ok hforward,
      run_bind_ok hrun, run_bind_error (run_expect_missing hnext)]
  | primary hfirst _ ih =>
    rw [hhead] at hfirst
    have hcall := ih hlive hreads htoken hhead
    rw [Refuses, primary, run_lookahead_bind, if_neg hfirst, hcall]
  | operand hnext =>
    cases hreads
    cases htoken
    rw [Refuses, call, run_lookahead_bind, if_neg hnext, run_fail]
  | arguments hfunction hopening hfirst _ ih =>
    obtain ⟨rfl, inner, hforward, hrest, hinner⟩ := hreads.exists_next hlive
    obtain ⟨rfl, inside, hopeningForward, hmore, hinside⟩ := hrest.exists_next hinner
    rw [← htoken, hmore.headD] at hfirst
    have hitems := (ih hinside hmore htoken (htoken ▸ hmore.headD)).items
    rw [Refuses, call, run_lookahead_bind, if_pos hfunction, run_bind_ok hforward,
      run_lookahead_bind, if_pos hopening, run_bind_ok hopeningForward, run_lookahead_bind,
      if_neg hfirst, run_bind_error hitems]
  | callEnd hfunction hopening hitems hfits hends hnext =>
    obtain ⟨rfl, inner, hforward, hrest, hinner⟩ := hreads.exists_next hlive
    obtain ⟨rfl, inside, hopeningForward, hmore, hinside⟩ := hrest.exists_next hinner
    cases htoken
    have hrun := (runs_of_derives limit hitems hinside hmore hfits hends).items
    have hparen := (starts_of_reads hitems hmore).not_is .rightParen
      (by simp [Phrase.goal, Goal.openings])
    rw [Refuses, call, run_lookahead_bind, if_pos hfunction, run_bind_ok hforward,
      run_lookahead_bind, if_pos hopening, run_bind_ok hopeningForward, run_lookahead_bind,
      if_neg hparen, run_bind_ok hrun, run_bind_error (run_expect_missing hnext)]

end Formula.Parse
