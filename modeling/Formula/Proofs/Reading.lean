import Mathlib.Data.List.Basic
import Formula.Parser.State
import Formula.Proofs.Lookahead

/-!
# What a parser reads

The steps of a parser as a relation between states: `Reads` says which tokens are moved past on
the way from one state to another. `Outcome` is what a part of a parser may do at a state: give a
value after some tokens, refuse the token behind some tokens, or run into the lexical error at the
end of the stream. `Outcome.bind` follows a part of a parser by another one.
-/

set_option autoImplicit false
set_option relaxedAutoImplicit false

namespace Formula

/-! ### Streams and states in use -/

/-- Whether a stream ends in the token that closes a source or in a lexical error, with no closing
token before. -/
def TokenStream.Terminated : TokenStream → Prop
  | .token first following => ¬ first.isEndOfInput ∧ following.Terminated
  | .finish _ => True
  | .invalid _ => True
  | .exhausted => False

/-- Whether a stream still has what a parser looks for: after the closing token nothing is left,
and after any other token the stream goes on. -/
def ParserState.Live (state : ParserState) : Prop :=
  if state.current.isEndOfInput then state.upcoming = .exhausted else state.upcoming.Terminated

theorem TokenStream.Terminated.size_pos {stream : TokenStream} (h : stream.Terminated) :
    0 < stream.size := by
  cases stream with
  | token first following => exact Nat.succ_pos _
  | finish | invalid => exact Nat.one_pos
  | exhausted => exact False.elim h

namespace ParserState

theorem Live.size_pos {state : ParserState} (hlive : state.Live)
    (hcurrent : ¬ state.current.isEndOfInput) : 0 < state.upcoming.size := by
  rw [Live, if_neg hcurrent] at hlive
  exact hlive.size_pos

theorem Live.isEndOfInput {state : ParserState} (hlive : state.Live)
    (hsize : state.upcoming.size = 0) : state.current.isEndOfInput := by
  by_contra hcurrent
  exact absurd (hlive.size_pos hcurrent) (by omega)

/-- A loop with enough rounds for a state has a round left in front of any token but the closing
one. -/
theorem Live.exists_round {state : ParserState} {count : Nat} (hlive : state.Live)
    (hcurrent : ¬ state.current.isEndOfInput) (hcount : state.upcoming.size ≤ count) :
    ∃ rounds, count = rounds + 1 :=
  Nat.exists_eq_add_one.mpr (Nat.lt_of_lt_of_le (hlive.size_pos hcurrent) hcount)

end ParserState

namespace Parse

variable {α β : Type}

/-! ### Runs of single steps -/

@[simp] theorem run_lookahead_bind (next : Token → Parse α) (state : ParserState) :
    (lookahead >>= next).run state = (next state.current).run state :=
  rfl

@[simp] theorem run_remaining_bind (next : Nat → Parse α) (state : ParserState) :
    (remaining >>= next).run state = (next state.upcoming.size).run state :=
  rfl

@[simp] theorem run_fail (rule : Rule) (expected : Expected) (state : ParserState) :
    (fail rule expected : Parse α).run state =
      .error (.grammatical (.unexpected rule expected state.current)) :=
  rfl

@[simp] theorem run_tooDeep (limit : Nat) (state : ParserState) :
    (tooDeep limit : Parse α).run state =
      .error (.grammatical (.nestingTooDeep .expression limit state.current)) :=
  rfl

theorem run_bind_ok {first : Parse α} {next : α → Parse β} {state middle : ParserState} {value : α}
    (h : first.run state = .ok (value, middle)) :
    (first >>= next).run state = (next value).run middle := by
  rw [StateT.run_bind, h]
  rfl

theorem run_bind_error {first : Parse α} {next : α → Parse β} {state : ParserState}
    {error : SyntaxError} (h : first.run state = .error error) :
    (first >>= next).run state = .error error := by
  rw [StateT.run_bind, h]
  rfl

theorem run_expect_ok {delimiter : Token.Operator} {rule : Rule} {state next : ParserState}
    {token : Token} (hdelimiter : state.current.is delimiter)
    (hforward : forward.run state = .ok (token, next)) :
    (expect delimiter rule).run state = .ok ((), next) := by
  rw [expect, run_lookahead_bind, if_pos hdelimiter, run_bind_ok hforward]
  rfl

theorem run_expect_missing {delimiter : Token.Operator} {rule : Rule} {state : ParserState}
    (hdelimiter : ¬ state.current.is delimiter) :
    (expect delimiter rule).run state =
      .error (.grammatical (.unexpected rule (.delimiter delimiter) state.current)) := by
  rw [expect, run_lookahead_bind, if_neg hdelimiter, run_fail]

/-- In front of any token but the closing one, moving on leads to a state that can be used again or
stops at a lexical error. -/
theorem forward_cases {state : ParserState} (hlive : state.Live)
    (hcurrent : ¬ state.current.isEndOfInput) :
    (∃ next, forward.run state = .ok (state.current, next) ∧ next.Live ∧
        next.upcoming.size + 1 = state.upcoming.size) ∨
      ∃ error, state.upcoming = .invalid error ∧ forward.run state = .error (.lexical error) := by
  rw [ParserState.Live, if_neg hcurrent] at hlive
  obtain ⟨current, upcoming, sourceSize⟩ := state
  cases upcoming with
  | token first following =>
    refine .inl ⟨⟨first, following, sourceSize⟩, rfl, ?_, rfl⟩
    rw [ParserState.Live, if_neg hlive.1]
    exact hlive.2
  | finish size => exact .inl ⟨⟨.endOfInput size, .exhausted, sourceSize⟩, rfl, rfl, rfl⟩
  | invalid error => exact .inr ⟨error, rfl, rfl⟩
  | exhausted => exact False.elim hlive

theorem forward_next {state next : ParserState} (hlive : state.Live)
    (hcurrent : ¬ state.current.isEndOfInput)
    (hforward : forward.run state = .ok (state.current, next)) :
    next.Live ∧ next.upcoming.size + 1 = state.upcoming.size := by
  rcases forward_cases hlive hcurrent with ⟨other, hother, h⟩ | ⟨error, -, herror⟩
  · rw [hforward] at hother
    cases hother
    exact h
  · rw [hforward] at herror
    cases herror

/-! ### Moving past tokens -/

/-- `Reads before tokens after` says that moving past these tokens leads from one state to the
other. The token that closes the source is never moved past. -/
inductive Reads : ParserState → List Token → ParserState → Prop
  | nil (state : ParserState) : Reads state [] state
  | cons {before middle after : ParserState} {tokens : List Token} :
      ¬ before.current.isEndOfInput →
      forward.run before = .ok (before.current, middle) →
      Reads middle tokens after →
      Reads before (before.current :: tokens) after

theorem Reads.append {before middle after : ParserState} {tokens others : List Token}
    (hfirst : Reads before tokens middle) (hsecond : Reads middle others after) :
    Reads before (tokens ++ others) after := by
  induction hfirst with
  | nil => exact hsecond
  | cons hcurrent hforward _ ih => exact .cons hcurrent hforward (ih hsecond)

theorem Reads.exists_cons {before after : ParserState} {token : Token} {tokens : List Token}
    (h : Reads before (token :: tokens) after) :
    before.current = token ∧ ¬ token.isEndOfInput ∧
      ∃ middle, forward.run before = .ok (token, middle) ∧ Reads middle tokens after := by
  cases h with
  | cons hcurrent hforward hrest => exact ⟨rfl, hcurrent, _, hforward, hrest⟩

theorem Reads.exists_next {before after : ParserState} {token : Token} {tokens : List Token}
    (h : Reads before (token :: tokens) after) (hlive : before.Live) :
    before.current = token ∧
      ∃ middle, forward.run before = .ok (token, middle) ∧ Reads middle tokens after ∧
        middle.Live := by
  obtain ⟨rfl, hcurrent, middle, hforward, hrest⟩ := h.exists_cons
  exact ⟨rfl, middle, hforward, hrest, (forward_next hlive hcurrent hforward).1⟩

theorem Reads.exists_append {before after : ParserState} {tokens others : List Token}
    (h : Reads before (tokens ++ others) after) :
    ∃ middle, Reads before tokens middle ∧ Reads middle others after := by
  induction tokens generalizing before with
  | nil => exact ⟨before, .nil before, h⟩
  | cons token tokens ih =>
    obtain ⟨rfl, hcurrent, next, hforward, hrest⟩ := h.exists_cons
    obtain ⟨middle, hfirst, hsecond⟩ := ih hrest
    exact ⟨middle, .cons hcurrent hforward hfirst, hsecond⟩

theorem Reads.not_isEndOfInput {before after : ParserState} {tokens : List Token}
    (h : Reads before tokens after) : ∀ token ∈ tokens, ¬ token.isEndOfInput := by
  induction h with
  | nil => exact List.forall_mem_nil _
  | cons hcurrent _ _ ih => exact List.forall_mem_cons.mpr ⟨hcurrent, ih⟩

theorem Reads.live {before after : ParserState} {tokens : List Token}
    (h : Reads before tokens after) (hlive : before.Live) : after.Live := by
  induction h with
  | nil => exact hlive
  | cons hcurrent hforward _ ih => exact ih (forward_next hlive hcurrent hforward).1

theorem Reads.size {before after : ParserState} {tokens : List Token}
    (h : Reads before tokens after) (hlive : before.Live) :
    after.upcoming.size + tokens.length = before.upcoming.size := by
  induction h with
  | nil => rfl
  | cons hcurrent hforward _ ih =>
    obtain ⟨hnext, hsize⟩ := forward_next hlive hcurrent hforward
    rw [← hsize, ← ih hnext, List.length_cons, Nat.add_assoc]

/-- The first of the tokens that are moved past and the token behind them is the next token. -/
theorem Reads.headD {before after : ParserState} {tokens : List Token}
    (h : Reads before tokens after) : tokens.headD after.current = before.current := by
  cases h <;> rfl

/-- Whether a lexical error stands behind the tokens that can be moved past. -/
def Breaks (state : ParserState) (error : LexError) : Prop :=
  ∃ tokens final, Reads state tokens final ∧ final.upcoming = .invalid error

/-! ### Outcomes -/

/-- What a part of a parser does at a state. It `accepts` some tokens with a value in front of the
next token, or it `refuses` the next token after some tokens, or there is a lexical error. -/
def Outcome (state : ParserState) (accepts : List Token → α → Token → Prop)
    (refuses : List Token → ParseError → Prop) : Except SyntaxError (α × ParserState) → Prop
  | .ok (value, final) => ∃ tokens, Reads state tokens final ∧ accepts tokens value final.current
  | .error (.grammatical error) =>
    ∃ tokens final, Reads state tokens final ∧ final.current = error.token ∧ refuses tokens error
  | .error (.lexical error) => Breaks state error

section

variable {state : ParserState} {accepts : List Token → α → Token → Prop}
  {refuses : List Token → ParseError → Prop}

theorem Outcome.mono {acceptsMore : List Token → α → Token → Prop}
    {refusesMore : List Token → ParseError → Prop} {result : Except SyntaxError (α × ParserState)}
    (h : Outcome state accepts refuses result)
    (haccepts : ∀ tokens value next, accepts tokens value next → acceptsMore tokens value next)
    (hrefuses : ∀ tokens error, tokens.headD error.token = state.current → refuses tokens error →
      refusesMore tokens error) :
    Outcome state acceptsMore refusesMore result := by
  match result, h with
  | .ok (value, final), ⟨tokens, hreads, h⟩ => exact ⟨tokens, hreads, haccepts _ _ _ h⟩
  | .error (.grammatical error), ⟨tokens, final, hreads, htoken, h⟩ =>
    exact ⟨tokens, final, hreads, htoken, hrefuses _ _ (htoken ▸ hreads.headD) h⟩
  | .error (.lexical error), h => exact h

/-- An outcome behind tokens that have been moved past already. -/
theorem Outcome.after {before : ParserState} {tokens : List Token}
    {result : Except SyntaxError (α × ParserState)} (hreads : Reads before tokens state)
    (h : Outcome state (fun more ↦ accepts (tokens ++ more)) (fun more ↦ refuses (tokens ++ more))
      result) :
    Outcome before accepts refuses result := by
  match result, h with
  | .ok (value, final), ⟨more, hmore, h⟩ => exact ⟨_, hreads.append hmore, h⟩
  | .error (.grammatical error), ⟨more, final, hmore, htoken, h⟩ =>
    exact ⟨_, final, hreads.append hmore, htoken, h⟩
  | .error (.lexical error), ⟨more, final, hmore, h⟩ => exact ⟨_, final, hreads.append hmore, h⟩

theorem Outcome.pure {value : α} (h : accepts [] value state.current) :
    Outcome state accepts refuses ((pure value : Parse α).run state) :=
  ⟨[], .nil state, h⟩

theorem Outcome.fail {rule : Rule} {expected : Expected}
    (h : refuses [] (.unexpected rule expected state.current)) :
    Outcome state accepts refuses ((fail rule expected : Parse α).run state) :=
  ⟨[], state, .nil state, rfl, h⟩

theorem Outcome.tooDeep {limit : Nat}
    (h : refuses [] (.nestingTooDeep .expression limit state.current)) :
    Outcome state accepts refuses ((tooDeep limit : Parse α).run state) :=
  ⟨[], state, .nil state, rfl, h⟩

/-- Following a part of a parser by another one. What the first part refuses the whole refuses. -/
theorem Outcome.bind {first : Parse β} {next : β → Parse α}
    {acceptsFirst : List Token → β → Token → Prop} {refusesFirst : List Token → ParseError → Prop}
    (hlive : state.Live) (hfirst : Outcome state acceptsFirst refusesFirst (first.run state))
    (hrefuses : ∀ tokens error, tokens.headD error.token = state.current →
      refusesFirst tokens error → refuses tokens error)
    (hnext : ∀ tokens value middle, Reads state tokens middle → middle.Live →
      acceptsFirst tokens value middle.current →
      Outcome middle (fun more ↦ accepts (tokens ++ more)) (fun more ↦ refuses (tokens ++ more))
        ((next value).run middle)) :
    Outcome state accepts refuses ((first >>= next).run state) := by
  match hresult : first.run state, hfirst with
  | .ok (value, middle), ⟨tokens, hreads, h⟩ =>
    rw [run_bind_ok hresult]
    exact (hnext tokens value middle hreads (hreads.live hlive) h).after hreads
  | .error (.grammatical error), ⟨tokens, final, hreads, htoken, h⟩ =>
    rw [run_bind_error hresult]
    exact ⟨tokens, final, hreads, htoken, hrefuses tokens error (htoken ▸ hreads.headD) h⟩
  | .error (.lexical error), hbroken =>
    rw [run_bind_error hresult]
    exact hbroken

/-- Moving past a token that does not close the source. -/
theorem Outcome.forward_bind {next : Token → Parse α} (hlive : state.Live)
    (hcurrent : ¬ state.current.isEndOfInput)
    (hnext : ∀ middle, Reads state [state.current] middle → middle.Live →
      middle.upcoming.size + 1 = state.upcoming.size →
      Outcome middle (fun more ↦ accepts (state.current :: more))
        (fun more ↦ refuses (state.current :: more)) ((next state.current).run middle)) :
    Outcome state accepts refuses ((forward >>= next).run state) := by
  rcases forward_cases hlive hcurrent with
    ⟨middle, hforward, hmiddle, hsize⟩ | ⟨error, hupcoming, hforward⟩
  · rw [run_bind_ok hforward]
    have hreads : Reads state [state.current] middle := .cons hcurrent hforward (.nil middle)
    exact (hnext middle hreads hmiddle hsize).after hreads
  · rw [run_bind_error hforward]
    exact ⟨[], state, .nil state, hupcoming⟩

/-- Asking for a delimiter. -/
theorem Outcome.expect_bind {delimiter : Token.Operator} {rule : Rule} {next : Unit → Parse α}
    (hlive : state.Live)
    (hmissing : ¬ state.current.is delimiter →
      refuses [] (.unexpected rule (.delimiter delimiter) state.current))
    (hnext : ∀ middle, state.current.is delimiter → middle.Live →
      Outcome middle (fun more ↦ accepts (state.current :: more))
        (fun more ↦ refuses (state.current :: more)) ((next ()).run middle)) :
    Outcome state accepts refuses ((expect delimiter rule >>= next).run state) := by
  by_cases hdelimiter : state.current.is delimiter
  · have hcurrent : ¬ state.current.isEndOfInput := by simp_all
    rcases forward_cases hlive hcurrent with
      ⟨middle, hforward, hmiddle, -⟩ | ⟨error, hupcoming, hforward⟩
    · rw [run_bind_ok (run_expect_ok hdelimiter hforward)]
      have hreads : Reads state [state.current] middle := .cons hcurrent hforward (.nil middle)
      exact (hnext middle hdelimiter hmiddle).after hreads
    · have hrun : (expect delimiter rule).run state = .error (.lexical error) := by
        rw [expect, run_lookahead_bind, if_pos hdelimiter, run_bind_error hforward]
      rw [run_bind_error hrun]
      exact ⟨[], state, .nil state, hupcoming⟩
  · rw [run_bind_error (run_expect_missing hdelimiter)]
    exact ⟨[], state, .nil state, rfl, hmissing hdelimiter⟩

end

end Parse

end Formula
