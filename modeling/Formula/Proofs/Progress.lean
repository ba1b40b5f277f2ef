import Formula.Proofs.NestingLimit
import Formula.Proofs.Tracking

/-!
# Progress and balance

What the rules of the tracked parser do at the tracks that can be reached. `Agrees` compares how a
rule of the tracked parser ends with the result of the parser at the same state: it does end, with
the same value or error and in front of the same tokens; behind a value the number of open levels
is the one before, and behind an error the track is in order. The rules are taken over one by one
(`matches_expression_and_unary`), where the levels that a rule of the parser may still open are the
limit without the open ones, and the rounds of each loop are bounded by the tokens that are left.
`tracked_progress` puts together what this says about every rule and about whole sources.
-/

set_option autoImplicit false
set_option relaxedAutoImplicit false

namespace Formula.Tracked

open Parse (Reads)

variable {α β : Type} {limit depth levels : Nat} {advances : Prop} {track : Track}

/-! ### Agreement -/

/-- How a rule of the tracked parser ends from a track, beside the result of the parser at the state
of the track: with the same value or error, and behind a value at the given depth. If it `advances`,
a value comes behind at least one token. -/
inductive Agrees (limit depth : Nat) (advances : Prop) (track : Track) (rule : Nat → Tracked α) :
    Except SyntaxError (α × ParserState) → Prop
  | ok {tokens : List Token} {value : α} {final : Track} :
      Ends rule track (.ok value) final →
      Reads track.state tokens final.state →
      (advances → tokens ≠ []) →
      final.depth = depth →
      Reachable limit final →
      Agrees limit depth advances track rule (.ok (value, final.state))
  | error {error : SyntaxError} {final : Track} :
      Ends rule track (.error error) final →
      final.Orderly limit →
      Agrees limit depth advances track rule (.error error)

/-- Whether a rule of the tracked parser agrees with a rule of the parser, and moves past a token,
at every reachable track with the given number of open levels. -/
def Matches (limit depth : Nat) (modelled : Parse α) (rule : Nat → Tracked α) : Prop :=
  ∀ track, Reachable limit track → track.depth = depth →
    Agrees limit depth True track rule (modelled.run track.state)

section

variable {rule other : Nat → Tracked α} {result : Except SyntaxError (α × ParserState)}

/-- What agrees behind some tokens agrees in front of them, too. -/
theorem Agrees.after {middle : Track} {tokens : List Token}
    (hreads : Reads track.state tokens middle.state) (hadvances : advances → tokens ≠ [])
    (hexec : ∀ {result final}, Ends other middle result final → Ends rule track result final)
    (h : Agrees limit depth False middle other result) :
    Agrees limit depth advances track rule result := by
  cases h with
  | ok hends hmore _ hdepth hreachable =>
    exact .ok (hexec hends) (hreads.append hmore)
      (fun h ↦ List.append_ne_nil_of_left_ne_nil (hadvances h) _) hdepth hreachable
  | error hends horderly => exact .error (hexec hends) horderly

theorem Agrees.weaken {weaker : Prop} (h : Agrees limit depth advances track rule result)
    (hadvances : weaker → advances) : Agrees limit depth weaker track rule result := by
  cases h with
  | ok hends hreads htokens hdepth hreachable =>
    exact .ok hends hreads (htokens ∘ hadvances) hdepth hreachable
  | error hends horderly => exact .error hends horderly

theorem Agrees.of_exec (hexec : ∀ calls, exec (rule calls) track = exec (other calls) track)
    (h : Agrees limit depth advances track other result) :
    Agrees limit depth advances track rule result := by
  cases h with
  | ok hends hreads htokens hdepth hreachable =>
    exact .ok (hends.of_exec hexec) hreads htokens hdepth hreachable
  | error hends horderly => exact .error (hends.of_exec hexec) horderly

/-- A call of a rule does what its body does with one call less. -/
theorem Agrees.succ (h : Agrees limit depth advances track (fun calls ↦ rule (calls + 1)) result) :
    Agrees limit depth advances track rule result := by
  cases h with
  | ok hends hreads htokens hdepth hreachable =>
    exact .ok hends.succ hreads htokens hdepth hreachable
  | error hends horderly => exact .error hends.succ horderly

end

theorem Matches.of_body {modelled : Parse α} {rule body : Nat → Tracked α}
    (hbody : ∀ calls, rule (calls + 1) = body calls) (h : Matches limit depth modelled body) :
    Matches limit depth modelled rule := by
  intro track hreachable hdepth
  refine .succ ?_
  rw [funext hbody]
  exact h track hreachable hdepth

theorem Agrees.pure (hreachable : Reachable limit track) (hdepth : track.depth = depth)
    (value : α) :
    Agrees limit depth False track (fun _ ↦ pure value) ((pure value : Parse α).run track.state) :=
  .ok ⟨0, fun _ _ ↦ rfl⟩ (.nil track.state) False.elim hdepth hreachable

theorem Agrees.fail (hreachable : Reachable limit track) (rule : Rule) (expected : Expected) :
    Agrees limit depth advances track (fun _ ↦ fail rule expected)
      ((Parse.fail rule expected : Parse α).run track.state) :=
  .error ⟨0, fun _ _ ↦ rfl⟩ hreachable.orderly

theorem Agrees.ite {holds : Prop} [Decidable holds] {first second : Parse α}
    {other otherwise : Nat → Tracked α}
    (hpositive : holds → Agrees limit depth advances track other (first.run track.state))
    (hnegative : ¬ holds → Agrees limit depth advances track otherwise (second.run track.state)) :
    Agrees limit depth advances track (fun calls ↦ if holds then other calls else otherwise calls)
      ((if holds then first else second).run track.state) := by
  by_cases h : holds
  · simp only [if_pos h]
    exact hpositive h
  · simp only [if_neg h]
    exact hnegative h

/-- Looking at the next token. -/
theorem Agrees.lookahead_bind {next : Token → Parse α} {otherNext : Nat → Token → Tracked α}
    (h : Agrees limit depth advances track (fun calls ↦ otherNext calls track.state.current)
      ((next track.state.current).run track.state)) :
    Agrees limit depth advances track (fun calls ↦ lookahead >>= otherNext calls)
      ((Parse.lookahead >>= next).run track.state) :=
  .of_exec (fun calls ↦ exec_lookahead_bind (otherNext calls) track) h

/-- Following a rule by another part of a parser. -/
theorem Agrees.bind {first : Parse α} {next : α → Parse β} {other : Nat → Tracked α}
    {otherNext : Nat → α → Tracked β} (hreachable : Reachable limit track)
    (hfirst : Agrees limit depth advances track other (first.run track.state))
    (hnext : ∀ value middle, Reachable limit middle → middle.depth = depth →
      (advances → middle.state.upcoming.size < track.state.upcoming.size) →
      Agrees limit depth False middle (fun calls ↦ otherNext calls value)
        ((next value).run middle.state)) :
    Agrees limit depth advances track (fun calls ↦ other calls >>= otherNext calls)
      ((first >>= next).run track.state) := by
  generalize hresult : first.run track.state = result at hfirst
  cases hfirst with
  | @ok tokens value middle hends hreads hadvances hdepth hmiddle =>
    rw [Parse.run_bind_ok hresult]
    have hsize := hreads.size hreachable.inUse.live
    refine .after hreads hadvances hends.bind_ok (hnext value middle hmiddle hdepth fun h ↦ ?_)
    have htokens := List.length_pos_iff.mpr (hadvances h)
    omega
  | error hends horderly =>
    rw [Parse.run_bind_error hresult]
    exact .error hends.bind_error horderly

/-- Following a rule that moves past a token by another part of a parser, for which fewer tokens are
left. -/
theorem Matches.bind {first : Parse α} {next : α → Parse β} {other : Nat → Tracked α}
    {otherNext : Nat → α → Tracked β} (hfirst : Matches limit depth first other)
    (hreachable : Reachable limit track) (hdepth : track.depth = depth)
    (hnext : ∀ value middle, Reachable limit middle → middle.depth = depth →
      middle.state.upcoming.size < track.state.upcoming.size →
      Agrees limit depth False middle (fun calls ↦ otherNext calls value)
        ((next value).run middle.state)) :
    Agrees limit depth advances track (fun calls ↦ other calls >>= otherNext calls)
      ((first >>= next).run track.state) := by
  have hadvanced := hfirst track hreachable hdepth
  refine (Agrees.bind hreachable hadvanced fun value middle hmiddle hmiddleDepth hsize ↦ ?_).weaken
    fun _ ↦ trivial
  exact hnext value middle hmiddle hmiddleDepth (hsize trivial)

/-- Moving past a token that does not close the source. -/
theorem Agrees.forward_bind {next : Token → Parse α} {otherNext : Nat → Token → Tracked α}
    (hreachable : Reachable limit track) (hdepth : track.depth = depth)
    (hcurrent : ¬ track.state.current.isEndOfInput)
    (hnext : ∀ middle, Reachable limit middle → middle.depth = depth →
      middle.state.upcoming.size < track.state.upcoming.size →
      Agrees limit depth False middle (fun calls ↦ otherNext calls track.state.current)
        ((next track.state.current).run middle.state)) :
    Agrees limit depth advances track (fun calls ↦ forward >>= otherNext calls)
      ((Parse.forward >>= next).run track.state) := by
  have hlive := hreachable.inUse.live
  have hterminated := hlive
  rw [ParserState.Live, if_neg hcurrent] at hterminated
  refine .of_exec (fun calls ↦ exec_forward_bind (otherNext calls) track) ?_
  rcases advance_cases track hterminated with
    ⟨state, -, hforward, hadvance⟩ | ⟨error, _, hforward, herror⟩
  · rw [Parse.run_bind_ok hforward]
    have hsize : state.upcoming.size < track.state.upcoming.size :=
      Nat.lt_of_succ_le (Parse.forward_next hlive hcurrent hforward).2.le
    have hmiddle : Reachable limit _ := .advance hreachable hcurrent hadvance
    have hreads : Reads track.state [track.state.current] state :=
      .cons hcurrent hforward (.nil state)
    refine .after hreads (fun _ ↦ List.cons_ne_nil _ _) (fun hends ↦ ?_)
      (hnext _ hmiddle hdepth hsize)
    exact hends.of_exec fun _ ↦ exec_bind_ok hadvance
  · rw [Parse.run_bind_error hforward]
    have huse := hreachable.inUse
    refine .error ⟨0, fun _ _ ↦ exec_bind_error herror⟩ ?_
    exact Track.orderly_pulled track huse.isAllowed (huse.pulls_goOn hcurrent)

/-- Asking for a delimiter. -/
theorem Agrees.expect_bind {delimiter : Token.Operator} {rule : Rule} {next : Unit → Parse α}
    {otherNext : Nat → Unit → Tracked α} (hreachable : Reachable limit track)
    (hdepth : track.depth = depth)
    (hnext : ∀ middle, Reachable limit middle → middle.depth = depth →
      middle.state.upcoming.size < track.state.upcoming.size →
      Agrees limit depth False middle (fun calls ↦ otherNext calls ())
        ((next ()).run middle.state)) :
    Agrees limit depth advances track (fun calls ↦ expect delimiter rule >>= otherNext calls)
      ((Parse.expect delimiter rule >>= next).run track.state) := by
  by_cases hdelimiter : track.state.current.is delimiter
  · rw [Parse.run_expect_bind hdelimiter]
    refine .of_exec (fun _ ↦ exec_expect_bind hdelimiter) ?_
    exact .forward_bind hreachable hdepth (Token.isInner_of_is hdelimiter).not_isEndOfInput hnext
  · have hmissing : (Parse.expect delimiter rule).run track.state = _ :=
      Parse.run_expect_missing hdelimiter
    rw [Parse.run_bind_error hmissing]
    exact .error ⟨0, fun _ _ ↦ exec_bind_error (exec_expect_missing hdelimiter)⟩ hreachable.orderly

/-! ### Levels -/

/-- A rule that reads with one more open level and closes it at the end. -/
theorem matches_level {modelled : Parse α} {body : Nat → Tracked α} (hlimit : depth < limit)
    (h : Matches limit (depth + 1) modelled body) :
    Matches limit depth modelled (fun calls ↦ do
      descend limit
      let value ← body calls
      ascend
      return value) := by
  rintro track hreachable rfl
  have hopened := exec_descend hlimit
  have hdescend {rest : Nat → Tracked α} {result : Except SyntaxError α} {final : Track}
      (hends : Ends rest _ result final) :
      Ends (fun calls ↦ descend limit >>= fun _ ↦ rest calls) track result final :=
    hends.of_exec fun _ ↦ exec_bind_ok hopened
  have hinner := h _ (.descend hreachable hopened) rfl
  generalize hresult : modelled.run _ = result at hinner
  cases hinner with
  | @ok tokens value final hends hreads hadvances hdepth hfinal =>
    have hclosed := exec_ascend final
    have hreached : Reachable limit _ := .ascend hfinal (by omega) hclosed
    have hlast : Ends (fun _ ↦ ascend >>= fun _ ↦ pure value) final (.ok value) _ :=
      ⟨0, fun _ _ ↦ exec_bind_ok hclosed⟩
    exact @Agrees.ok α limit track.depth True track _ tokens value
      ⟨final.state, final.depth - 1, _⟩ (hdescend (hends.bind_ok hlast)) hreads hadvances
      (Nat.sub_eq_of_eq_add hdepth) hreached
  | error hends horderly => exact .error (hdescend hends.bind_error) horderly

/-- A rule for which no level is left. -/
theorem matches_tooDeep (body : Nat → Unit → Tracked α) :
    Matches limit limit (Parse.tooDeep limit) (fun calls ↦ descend limit >>= body calls) := by
  intro track hreachable hdepth
  exact .error ⟨0, fun _ _ ↦ exec_bind_error (exec_descend_tooDeep hdepth.ge)⟩ hreachable.orderly

/-! ### Loops -/

/-- A chain of operands, read by a loop that goes on as long as one of the operators comes next. -/
theorem matches_chain {operators : List Token.Operator} {operand : Parse Node}
    {rule : Nat → Tracked Node} {loop : Nat → Node → Tracked Node}
    (h : Matches limit depth operand rule)
    (hloop : ∀ calls left, loop (calls + 1) left = do
      if (← lookahead).isOneOf operators then
        let operator ← forward
        let right ← rule calls
        loop calls (.apply (.callTarget operator) [left, right])
      else
        return left) :
    Matches limit depth (Parse.chain operators operand)
      (fun calls ↦ rule calls >>= loop calls) := by
  have hrounds (count : Nat) (left : Node) (track : Track) (hreachable : Reachable limit track)
      (hdepth : track.depth = depth) (hcount : track.state.upcoming.size ≤ count) :
      Agrees limit depth False track (fun calls ↦ loop calls left)
        ((Parse.chainFrom operators operand count left).run track.state) := by
    induction count generalizing left track with
    | zero =>
      have hend := hreachable.inUse.live.isEndOfInput (Nat.le_zero.mp hcount)
      have hoperator : ¬ track.state.current.isOneOf operators := by simp_all
      refine .succ (.of_exec (fun calls ↦ ?_) (.pure hreachable hdepth left))
      rw [hloop, exec_lookahead_bind, if_neg hoperator]
    | succ count ih =>
      refine .succ ?_
      simp only [hloop]
      rw [Parse.chainFrom]
      refine .lookahead_bind (.ite (fun hoperator ↦ ?_) fun _ ↦ .pure hreachable hdepth left)
      have hcurrent := (Token.isInner_of_isOneOf hoperator).not_isEndOfInput
      refine .forward_bind hreachable hdepth hcurrent fun middle hmiddle hmiddleDepth hsize ↦ ?_
      refine h.bind hmiddle hmiddleDepth fun right final hfinal hfinalDepth hmore ↦ ?_
      exact ih _ final hfinal hfinalDepth (by omega)
  intro track hreachable hdepth
  rw [Parse.chain]
  refine h.bind hreachable hdepth fun first middle hmiddle hmiddleDepth _ ↦ ?_
  rw [Parse.run_remaining_bind]
  exact hrounds _ first middle hmiddle hmiddleDepth (Nat.le_refl _)

/-- One or more expressions with commas between them. -/
theorem matches_items {expression : Parse Node}
    (h : Matches limit depth expression (Tracked.expression limit)) :
    Matches limit depth (Parse.items expression) (items limit) := by
  have hrounds (count : Nat) (track : Track) (hreachable : Reachable limit track)
      (hdepth : track.depth = depth) (hcount : track.state.upcoming.size ≤ count) :
      Agrees limit depth False track (itemsFrom limit)
        ((Parse.separatedFrom .comma expression count).run track.state) := by
    induction count generalizing track with
    | zero =>
      have hend := hreachable.inUse.live.isEndOfInput (Nat.le_zero.mp hcount)
      have hcomma : ¬ track.state.current.is .comma := by simp_all
      refine .succ (.of_exec (fun calls ↦ ?_) (.pure hreachable hdepth []))
      rw [itemsFrom, exec_lookahead_bind, if_neg hcomma]
    | succ count ih =>
      refine .succ ?_
      simp only [itemsFrom]
      rw [Parse.separatedFrom]
      refine .lookahead_bind (.ite (fun hcomma ↦ ?_) fun _ ↦ .pure hreachable hdepth [])
      have hcurrent := (Token.isInner_of_is hcomma).not_isEndOfInput
      refine .forward_bind hreachable hdepth hcurrent fun middle hmiddle hmiddleDepth hsize ↦ ?_
      refine h.bind hmiddle hmiddleDepth fun next final hfinal hfinalDepth hmore ↦ ?_
      exact .bind hfinal (ih final hfinal hfinalDepth (by omega))
        fun _ _ hlast hlastDepth _ ↦ .pure hlast hlastDepth _
  refine .of_body (fun calls ↦ by rw [items]) fun track hreachable hdepth ↦ ?_
  rw [Parse.items, Parse.separated]
  refine h.bind hreachable hdepth fun first middle hmiddle hmiddleDepth _ ↦ ?_
  rw [Parse.run_remaining_bind]
  exact .bind hmiddle (hrounds _ middle hmiddle hmiddleDepth (Nat.le_refl _))
    fun _ _ hlast hlastDepth _ ↦ .pure hlast hlastDepth _

/-- All line ends that come next. -/
theorem agrees_skipNewLines (hreachable : Reachable limit track) (hdepth : track.depth = depth) :
    Agrees limit depth track.state.current.isNewLine track skipNewLines
      (Parse.skipNewLines.run track.state) := by
  have hrounds (count : Nat) (track : Track) (hreachable : Reachable limit track)
      (hdepth : track.depth = depth) (hcount : track.state.upcoming.size ≤ count) :
      Agrees limit depth track.state.current.isNewLine track skipNewLines
        ((Parse.skipNewLinesFrom count).run track.state) := by
    induction count generalizing track with
    | zero =>
      have hend := hreachable.inUse.live.isEndOfInput (Nat.le_zero.mp hcount)
      have hline : ¬ track.state.current.isNewLine := by simp_all
      have hdone := (Agrees.pure hreachable hdepth ()).weaken hline
      refine .succ (.of_exec (fun calls ↦ ?_) hdone)
      rw [skipNewLines, exec_lookahead_bind, if_neg hline]
    | succ count ih =>
      refine .succ ?_
      simp only [skipNewLines]
      rw [Parse.skipNewLinesFrom]
      refine .lookahead_bind (.ite (fun hline ↦ ?_)
        fun hline ↦ (Agrees.pure hreachable hdepth ()).weaken hline)
      refine .forward_bind hreachable hdepth (by simp_all)
        fun middle hmiddle hmiddleDepth hsize ↦ ?_
      exact (ih middle hmiddle hmiddleDepth (by omega)).weaken False.elim
  rw [Parse.skipNewLines, Parse.run_remaining_bind]
  exact hrounds _ track hreachable hdepth (Nat.le_refl _)

/-! ### Expressions -/

section

variable {expression unary : Parse Node}

/-- Anything that goes on with a closing delimiter and a value. -/
theorem agrees_closed {delimiter : Token.Operator} {rule : Rule} {value : β}
    (hreachable : Reachable limit track) (hdepth : track.depth = depth) :
    Agrees limit depth False track (fun _ ↦ expect delimiter rule >>= fun _ ↦ return value)
      ((Parse.expect delimiter rule >>= fun _ ↦ (return value : Parse β)).run track.state) :=
  .expect_bind hreachable hdepth fun _ hmiddle hmiddleDepth _ ↦ .pure hmiddle hmiddleDepth value

/-- Items in front of a closing delimiter, of which something is made. -/
theorem agrees_items_closed {delimiter : Token.Operator} {rule : Rule} {make : List Node → β}
    (h : Matches limit depth expression (Tracked.expression limit))
    (hreachable : Reachable limit track) (hdepth : track.depth = depth) :
    Agrees limit depth advances track
      (fun calls ↦ items limit calls >>= fun elements ↦
        expect delimiter rule >>= fun _ ↦ return make elements)
      ((Parse.items expression >>= fun elements ↦
        Parse.expect delimiter rule >>= fun _ ↦ (return make elements : Parse β)).run
        track.state) :=
  (matches_items h).bind hreachable hdepth
    fun _ _ hfinal hfinalDepth _ ↦ agrees_closed hfinal hfinalDepth

theorem matches_product (h : Matches limit depth unary (Tracked.unary limit)) :
    Matches limit depth (Parse.product unary) (product limit) := by
  refine .of_body (fun calls ↦ by rw [product]) ?_
  exact matches_chain h fun calls left ↦ by rw [productFrom]

theorem matches_sum (h : Matches limit depth unary (Tracked.unary limit)) :
    Matches limit depth (Parse.sum unary) (sum limit) := by
  refine .of_body (fun calls ↦ by rw [sum]) ?_
  exact matches_chain (matches_product h) fun calls left ↦ by rw [sumFrom]

theorem matches_setLiteral (h : Matches limit depth expression (Tracked.expression limit)) :
    Matches limit depth (Parse.setLiteral expression) (setLiteral limit) := by
  refine .of_body (fun calls ↦ by rw [setLiteral]) fun track hreachable hdepth ↦ ?_
  rw [Parse.setLiteral]
  exact .expect_bind hreachable hdepth
    fun _ hmiddle hmiddleDepth _ ↦ agrees_items_closed h hmiddle hmiddleDepth

theorem matches_vectorLiteral (h : Matches limit depth expression (Tracked.expression limit)) :
    Matches limit depth (Parse.vectorLiteral expression) (vectorLiteral limit) := by
  refine .of_body (fun calls ↦ by rw [vectorLiteral]) fun track hreachable hdepth ↦ ?_
  rw [Parse.vectorLiteral]
  exact .expect_bind hreachable hdepth
    fun _ hmiddle hmiddleDepth _ ↦ agrees_items_closed h hmiddle hmiddleDepth

theorem matches_call (h : Matches limit depth expression (Tracked.expression limit)) :
    Matches limit depth (Parse.call expression) (call limit) := by
  refine .of_body (fun calls ↦ by rw [call]) fun track hreachable hdepth ↦ ?_
  rw [Parse.call]
  refine .lookahead_bind (.ite (fun hoperand ↦ ?_) fun _ ↦ .fail hreachable _ _)
  refine .forward_bind hreachable hdepth (Token.IsInner.not_isEndOfInput (.inl hoperand))
    fun middle hmiddle hmiddleDepth _ ↦ ?_
  refine .lookahead_bind (.ite (fun hopening ↦ ?_) fun _ ↦ .pure hmiddle hmiddleDepth _)
  refine .forward_bind hmiddle hmiddleDepth (Token.isInner_of_is hopening).not_isEndOfInput
    fun inner hinner hinnerDepth _ ↦ ?_
  refine .lookahead_bind (.ite (fun _ ↦ agrees_closed hinner hinnerDepth) fun _ ↦ ?_)
  exact agrees_items_closed h hinner hinnerDepth

theorem matches_primary (h : Matches limit depth expression (Tracked.expression limit))
    (hunary : Matches limit depth unary (Tracked.unary limit)) :
    Matches limit depth (Parse.primary expression unary) (primary limit) := by
  refine .of_body (fun calls ↦ by rw [primary]) fun track hreachable hdepth ↦ ?_
  rw [Parse.primary]
  refine .lookahead_bind (.ite (fun hopening ↦ ?_)
    fun _ ↦ matches_call h track hreachable hdepth)
  refine .forward_bind hreachable hdepth (Token.isInner_of_is hopening).not_isEndOfInput
    fun middle hmiddle hmiddleDepth _ ↦ ?_
  exact (matches_sum hunary).bind hmiddle hmiddleDepth
    fun _ _ hfinal hfinalDepth _ ↦ agrees_closed hfinal hfinalDepth

theorem matches_power (h : Matches limit depth expression (Tracked.expression limit))
    (hunary : Matches limit depth unary (Tracked.unary limit)) :
    Matches limit depth (Parse.power expression unary) (power limit) := by
  refine .of_body (fun calls ↦ by rw [power]) fun track hreachable hdepth ↦ ?_
  rw [Parse.power]
  refine (matches_primary h hunary).bind hreachable hdepth
    fun base middle hmiddle hmiddleDepth _ ↦ ?_
  refine .lookahead_bind (.ite (fun hpower ↦ ?_) fun _ ↦ .pure hmiddle hmiddleDepth _)
  refine .forward_bind hmiddle hmiddleDepth (Token.isInner_of_is hpower).not_isEndOfInput
    fun inner hinner hinnerDepth _ ↦ ?_
  exact hunary.bind hinner hinnerDepth fun _ _ hfinal hfinalDepth _ ↦ .pure hfinal hfinalDepth _

theorem matches_expressionOf (hlimit : depth < limit)
    (h : Matches limit (depth + 1) expression (Tracked.expression limit))
    (hunary : Matches limit (depth + 1) unary (Tracked.unary limit)) :
    Matches limit depth (Parse.expressionOf expression unary) (Tracked.expression limit) := by
  refine .of_body (fun calls ↦ by rw [Tracked.expression]) ?_
  refine matches_level hlimit fun track hreachable hdepth ↦ ?_
  rw [Parse.expressionOf]
  refine .lookahead_bind (.ite (fun _ ↦ matches_setLiteral h track hreachable hdepth) fun _ ↦ ?_)
  exact .ite (fun _ ↦ matches_vectorLiteral h track hreachable hdepth)
    fun _ ↦ matches_sum hunary track hreachable hdepth

theorem matches_unaryOf (hlimit : depth < limit)
    (h : Matches limit (depth + 1) expression (Tracked.expression limit))
    (hunary : Matches limit (depth + 1) unary (Tracked.unary limit)) :
    Matches limit depth (Parse.unaryOf expression unary) (Tracked.unary limit) := by
  refine .of_body (fun calls ↦ by rw [Tracked.unary]) ?_
  refine matches_level hlimit fun track hreachable hdepth ↦ ?_
  rw [Parse.unaryOf]
  refine .lookahead_bind (.ite (fun hsign ↦ ?_)
    fun _ ↦ matches_power h hunary track hreachable hdepth)
  refine .forward_bind hreachable hdepth (Token.isInner_of_isOneOf hsign).not_isEndOfInput
    fun middle hmiddle hmiddleDepth _ ↦ ?_
  exact hunary.bind hmiddle hmiddleDepth fun _ _ hfinal hfinalDepth _ ↦ .pure hfinal hfinalDepth _

end

/-- The expressions and unaries of the tracked parser do at every depth what those of the parser do
with the levels that are left. -/
theorem matches_expression_and_unary (h : depth + levels = limit) :
    Matches limit depth (Parse.expression limit levels) (expression limit) ∧
      Matches limit depth (Parse.unary limit levels) (unary limit) := by
  induction levels generalizing depth with
  | zero =>
    obtain rfl : depth = limit := h
    rw [Parse.expression, Parse.unary]
    exact ⟨.of_body (fun calls ↦ by rw [expression]) (matches_tooDeep _),
      .of_body (fun calls ↦ by rw [unary]) (matches_tooDeep _)⟩
  | succ levels ih =>
    obtain ⟨hexpression, hunary⟩ := @ih (depth + 1) (by omega)
    have hlimit : depth < limit := by omega
    rw [Parse.expression_succ, Parse.unary_succ]
    exact ⟨matches_expressionOf hlimit hexpression hunary,
      matches_unaryOf hlimit hexpression hunary⟩

/-! ### Programs -/

section

variable {expression : Parse Node}

theorem matches_relationOf (h : Matches limit depth expression (Tracked.expression limit)) :
    Matches limit depth (Parse.relationOf expression) (relation limit) := by
  intro track hreachable hdepth
  rw [Parse.relationOf]
  refine h.bind hreachable hdepth fun left middle hmiddle hmiddleDepth _ ↦ ?_
  refine .lookahead_bind (.ite (fun hoperator ↦ ?_) fun _ ↦ .fail hmiddle _ _)
  refine .forward_bind hmiddle hmiddleDepth
    (Token.isInner_of_isRelational hoperator).not_isEndOfInput fun inner hinner hinnerDepth _ ↦ ?_
  exact h.bind hinner hinnerDepth fun _ _ hfinal hfinalDepth _ ↦ .pure hfinal hfinalDepth _

theorem matches_statementOf (h : Matches limit depth expression (Tracked.expression limit)) :
    Matches limit depth (Parse.statementOf expression) (statement limit) := by
  intro track hreachable hdepth
  rw [Parse.statementOf]
  refine .lookahead_bind (.ite (fun hline ↦ ?_) fun _ ↦ ?_)
  · exact .bind hreachable ((agrees_skipNewLines hreachable hdepth).weaken fun _ ↦ hline)
      fun _ _ hfinal hfinalDepth _ ↦ .pure hfinal hfinalDepth _
  · refine (matches_relationOf h).bind hreachable hdepth
      fun node middle hmiddle hmiddleDepth _ ↦ ?_
    exact .bind hmiddle ((agrees_skipNewLines hmiddle hmiddleDepth).weaken False.elim)
      fun _ _ hfinal hfinalDepth _ ↦ .pure hfinal hfinalDepth _

/-- Whole programs, which need not have a token. -/
theorem agrees_programOf (h : Matches limit depth expression (Tracked.expression limit))
    (hreachable : Reachable limit track) (hdepth : track.depth = depth) :
    Agrees limit depth False track (program limit)
      ((Parse.programOf expression).run track.state) := by
  have hrounds (count : Nat) (track : Track) (hreachable : Reachable limit track)
      (hdepth : track.depth = depth) (hcount : track.state.upcoming.size ≤ count) :
      Agrees limit depth False track (statements limit)
        ((Parse.untilEndFrom (Parse.statementOf expression) count).run track.state) := by
    induction count generalizing track with
    | zero =>
      have hend := hreachable.inUse.live.isEndOfInput (Nat.le_zero.mp hcount)
      refine .succ (.of_exec (fun calls ↦ ?_) (.pure hreachable hdepth []))
      rw [statements, exec_lookahead_bind, if_pos hend]
    | succ count ih =>
      refine .succ ?_
      simp only [statements]
      rw [Parse.untilEndFrom]
      refine .lookahead_bind (.ite (fun _ ↦ .pure hreachable hdepth []) fun _ ↦ ?_)
      refine (matches_statementOf h).bind hreachable hdepth
        fun next middle hmiddle hmiddleDepth hsize ↦ ?_
      exact .bind hmiddle (ih middle hmiddle hmiddleDepth (by omega))
        fun _ _ hlast hlastDepth _ ↦ .pure hlast hlastDepth _
  rw [Parse.programOf, Parse.untilEnd, bind_assoc, Parse.run_remaining_bind]
  exact .bind hreachable (hrounds _ track hreachable hdepth (Nat.le_refl _))
    fun _ _ hfinal hfinalDepth _ ↦ .pure hfinal hfinalDepth _

end

/-! ### Sources -/

/-- The start of a parser is a step in front of the source. -/
theorem start_eq_forward (source : String) :
    Parse.start source = (Parse.forward.run (unread source).state).map Prod.snd := by
  rw [Parse.start, unread]
  cases TokenStream.ofSource source <;> rfl

/-- Reading a whole source ends, like the parser does, in order and with no level left open. -/
theorem exists_ends_wholeSource (limit : Nat) (source : String) :
    ∃ final, Ends (wholeSource limit) (unread source) (parseWithin limit source) final ∧
      final.Orderly limit ∧ ∀ node, parseWithin limit source = .ok node → final.depth = 0 := by
  have hterminated := TokenStream.terminated_scan 0 0 source.toList
  rw [Parse.parseWithin_eq_parseOf, Parse.parseOf, start_eq_forward]
  rcases advance_cases (unread source) hterminated with
    ⟨state, -, hforward, hadvance⟩ | ⟨error, state, hforward, herror⟩
  · have hexpression := (matches_expression_and_unary (Nat.zero_add limit)).1
    have hprogram := agrees_programOf hexpression (.start hadvance) rfl
    rw [hforward]
    change ∃ final, Ends _ _ ((Parse.programOf _).run state >>= _) final ∧ _ ∧
      ∀ node, ((Parse.programOf _).run state >>= _) = _ → _
    generalize (Parse.programOf _).run _ = result at hprogram ⊢
    cases hprogram with
    | ok hends hreads _ hdepth hfinal =>
      exact ⟨_, hends.of_exec fun _ ↦ exec_bind_ok hadvance, hfinal.orderly, fun _ _ ↦ hdepth⟩
    | error hends horderly =>
      exact ⟨_, hends.of_exec fun _ ↦ exec_bind_ok hadvance, horderly, by rintro _ ⟨⟩⟩
  · rw [hforward]
    refine ⟨_, ⟨0, fun _ _ ↦ exec_bind_error herror⟩, ?_, by rintro _ ⟨⟩⟩
    exact Track.orderly_pulled (unread source) (List.forall_mem_nil _) (List.forall_mem_nil _)

/-! ### Progress -/

/-- Whether a rule of the tracked parser always gets on. At every reachable track it ends in order,
with the result that a rule of the parser has with the levels that are left. Behind a value as many
levels are open as before, and the tokens that are left are a proper suffix. -/
def GetsOn (modelled : Nat → Parse α) (rule : Nat → Tracked α) : Prop :=
  ∀ track, Reachable maxNesting track → ∃ result final,
    Ends rule track result final ∧ final.Orderly maxNesting ∧
    (modelled (maxNesting - track.depth)).run track.state = result.map (·, final.state) ∧
    ∀ value, result = .ok value → final.depth = track.depth ∧ Reachable maxNesting final ∧
      ∃ tokens, tokens ≠ [] ∧ Reads track.state tokens final.state ∧
        (Parse.stream track.state).yielded = tokens ++ (Parse.stream final.state).yielded

theorem getsOn_of_matches {modelled : Nat → Parse α} {rule : Nat → Tracked α}
    (h : ∀ depth levels, depth + levels = maxNesting →
      Matches maxNesting depth (modelled levels) rule) :
    GetsOn modelled rule := by
  intro track hreachable
  have hlevels := Nat.add_sub_of_le hreachable.inUse.depth_le
  have hagrees := h _ _ hlevels track hreachable rfl
  generalize (modelled _).run _ = outcome at hagrees ⊢
  cases hagrees with
  | ok hends hreads htokens hdepth hfinal =>
    have hyielded := Parse.yielded_of_reads hreachable.inUse.live hreads
    exact ⟨_, _, hends, hfinal.orderly, rfl,
      fun _ _ ↦ ⟨hdepth, hfinal, _, htokens trivial, hreads, hyielded⟩⟩
  | error hends horderly => exact ⟨_, _, hends, horderly, rfl, by rintro _ ⟨⟩⟩

/-- Every rule that may follow a token gets on, and so does a whole source: nothing runs forever,
no rule gives a value without moving past a token or with more or fewer open levels than before, no
more levels than the limit are ever open, none is closed that is not open, and the stream is never
asked again behind the token that closes the source or behind a lexical error. -/
theorem tracked_progress :
    GetsOn (fun levels ↦ Parse.statementOf (Parse.expression maxNesting levels))
      (statement maxNesting) ∧
    GetsOn (fun levels ↦ Parse.relationOf (Parse.expression maxNesting levels))
      (relation maxNesting) ∧
    GetsOn (Parse.expression maxNesting) (expression maxNesting) ∧
    GetsOn (fun levels ↦ Parse.setLiteral (Parse.expression maxNesting levels))
      (setLiteral maxNesting) ∧
    GetsOn (fun levels ↦ Parse.vectorLiteral (Parse.expression maxNesting levels))
      (vectorLiteral maxNesting) ∧
    GetsOn (fun levels ↦ Parse.sum (Parse.unary maxNesting levels)) (sum maxNesting) ∧
    GetsOn (fun levels ↦ Parse.product (Parse.unary maxNesting levels)) (product maxNesting) ∧
    GetsOn (Parse.unary maxNesting) (unary maxNesting) ∧
    GetsOn (fun levels ↦ Parse.power (Parse.expression maxNesting levels)
      (Parse.unary maxNesting levels)) (power maxNesting) ∧
    GetsOn (fun levels ↦ Parse.primary (Parse.expression maxNesting levels)
      (Parse.unary maxNesting levels)) (primary maxNesting) ∧
    GetsOn (fun levels ↦ Parse.call (Parse.expression maxNesting levels)) (call maxNesting) ∧
    GetsOn (fun levels ↦ Parse.items (Parse.expression maxNesting levels)) (items maxNesting) ∧
    ∀ source, ∃ final, Ends (wholeSource maxNesting) (unread source) (parse source) final ∧
      final.Orderly maxNesting ∧ ∀ node, parse source = .ok node → final.depth = 0 := by
  have hexpression {depth levels : Nat} (h : depth + levels = maxNesting) :=
    (matches_expression_and_unary h).1
  have hunary {depth levels : Nat} (h : depth + levels = maxNesting) :=
    (matches_expression_and_unary h).2
  refine ⟨?statement, ?relation, ?expression, ?setLiteral, ?vectorLiteral, ?sum, ?product, ?unary,
    ?power, ?primary, ?call, ?items, exists_ends_wholeSource maxNesting⟩
  case statement => exact getsOn_of_matches fun _ _ h ↦ matches_statementOf (hexpression h)
  case relation => exact getsOn_of_matches fun _ _ h ↦ matches_relationOf (hexpression h)
  case expression => exact getsOn_of_matches fun _ _ h ↦ hexpression h
  case setLiteral => exact getsOn_of_matches fun _ _ h ↦ matches_setLiteral (hexpression h)
  case vectorLiteral => exact getsOn_of_matches fun _ _ h ↦ matches_vectorLiteral (hexpression h)
  case sum => exact getsOn_of_matches fun _ _ h ↦ matches_sum (hunary h)
  case product => exact getsOn_of_matches fun _ _ h ↦ matches_product (hunary h)
  case unary => exact getsOn_of_matches fun _ _ h ↦ hunary h
  case power => exact getsOn_of_matches fun _ _ h ↦ matches_power (hexpression h) (hunary h)
  case primary => exact getsOn_of_matches fun _ _ h ↦ matches_primary (hexpression h) (hunary h)
  case call => exact getsOn_of_matches fun _ _ h ↦ matches_call (hexpression h)
  case items => exact getsOn_of_matches fun _ _ h ↦ matches_items (hexpression h)

end Formula.Tracked
