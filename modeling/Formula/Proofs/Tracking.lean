import Formula.Parser.Program
import Formula.Proofs.SourceTokens

/-!
# A parser that counts its levels

The rules of the parser once more, as plain calls of each other: a rule may call any other one, and
a loop calls itself for its next round. Nothing bounds the calls but a number of them that may be
open inside each other, and a rule for which it does not suffice gives nothing. A rule `Ends` in
some way if it does so with any number that is large enough.

Open nesting levels are counted up by `descend` and down by `ascend`, and a `Track` notes every item
that is asked from the stream and every level that is opened or closed. An error leaves the track as
it is, so that it also tells what was done before the error.

`Reachable` are the tracks that steps in front of tokens of a source lead to. All of them are
orderly: no more levels than the limit are ever open, a level is only closed if one is open, and
nothing is asked from the stream behind the token that closes the source (`Reachable.orderly`).
-/

set_option autoImplicit false
set_option relaxedAutoImplicit false

namespace Formula

/-! ### Tracks -/

/-- What a parser does besides looking at tokens. -/
inductive Track.Event where
  /-- The stream was asked for an item and has answered so. -/
  | pulled (item : Option (Except LexError Token))
  /-- A level was opened, and now this many are open. -/
  | opened (depth : Nat)
  /-- A level was closed while this many were open. -/
  | closed (depth : Nat)

/-- The state of a parser, the number of open levels and everything done so far, the oldest event
first. -/
structure Track where
  state : ParserState
  depth : Nat
  events : List Track.Event

/-- A part of a tracked parser. It gives nothing if it needs more open calls than it may have. -/
abbrev Tracked (α : Type) := ExceptT SyntaxError (StateT Track Option) α

namespace Tracked

variable {α β : Type}

/-- How a part of a tracked parser ends from a track, if it ends. -/
def exec (rule : Tracked α) (track : Track) : Option (Except SyntaxError α × Track) :=
  (ExceptT.run rule).run track

/-- How a part of a tracked parser ends from a track, given enough calls. -/
def Ends (rule : (calls : Nat) → Tracked α) (track : Track) (result : Except SyntaxError α)
    (final : Track) : Prop :=
  ∃ bound, ∀ calls, bound ≤ calls → exec (rule calls) track = some (result, final)

/-- What is left where one more call would have to be open than there may be. -/
def outOfCalls : Tracked α :=
  ExceptT.mk fun _ ↦ none

/-! ### Steps -/

/-- The next token, which stays in place. -/
def lookahead : Tracked Token := do
  return (← get).state.current

/-- Asks the stream for the token behind the next one. Where the stream has nothing more to give,
this is the token that closes the source. -/
def advance : Tracked Unit := do
  let ⟨state, depth, events⟩ ← get
  let (item, following) := state.upcoming.next
  let events := events ++ [.pulled item]
  match item with
  | some (.ok token) => set (Track.mk ⟨token, following, state.sourceSize⟩ depth events)
  | some (.error error) =>
    set (Track.mk ⟨state.current, following, state.sourceSize⟩ depth events)
    throw (.lexical error)
  | none =>
    set (Track.mk ⟨.endOfInput state.sourceSize, following, state.sourceSize⟩ depth events)

/-- Moves past the next token and gives it. -/
def forward : Tracked Token := do
  let current ← lookahead
  advance
  return current

/-- Stops at the next token because something else would have been accepted. -/
def fail (rule : Rule) (expected : Expected) : Tracked α := do
  throw (.grammatical (.unexpected rule expected (← lookahead)))

/-- Moves past the delimiter that has to come next. -/
def expect (delimiter : Token.Operator) (rule : Rule) : Tracked Unit := do
  if (← lookahead).is delimiter then
    let _ ← forward
  else
    fail rule (.delimiter delimiter)

/-- Opens a level, unless as many as the limit are open. -/
def descend (limit : Nat) : Tracked Unit := do
  let ⟨state, depth, events⟩ ← get
  if limit ≤ depth then
    throw (.grammatical (.nestingTooDeep .expression limit state.current))
  else
    set (Track.mk state (depth + 1) (events ++ [.opened (depth + 1)]))

/-- Closes a level. -/
def ascend : Tracked Unit := do
  let ⟨state, depth, events⟩ ← get
  set (Track.mk state (depth - 1) (events ++ [.closed depth]))

/-! ### Expressions -/

mutual

/-- An expression, for which a level is open as long as it is read. -/
def expression (limit : Nat) : (calls : Nat) → Tracked Node
  | 0 => outOfCalls
  | calls + 1 => do
    descend limit
    let node ← (do
      let next ← lookahead
      if next.is .leftCurly then
        setLiteral limit calls
      else if next.is .leftSquare then
        vectorLiteral limit calls
      else
        sum limit calls)
    ascend
    return node

/-- Elements between curly brackets. -/
def setLiteral (limit : Nat) : (calls : Nat) → Tracked Node
  | 0 => outOfCalls
  | calls + 1 => do
    expect .leftCurly .set
    let elements ← items limit calls
    expect .rightCurly .set
    return .set elements

/-- Elements between square brackets. -/
def vectorLiteral (limit : Nat) : (calls : Nat) → Tracked Node
  | 0 => outOfCalls
  | calls + 1 => do
    expect .leftSquare .vector
    let elements ← items limit calls
    expect .rightSquare .vector
    return .vector elements

/-- A sum of products. -/
def sum (limit : Nat) : (calls : Nat) → Tracked Node
  | 0 => outOfCalls
  | calls + 1 => do
    let first ← product limit calls
    sumFrom limit calls first

/-- Goes on with a sum as long as a sign comes next. -/
def sumFrom (limit : Nat) : (calls : Nat) → Node → Tracked Node
  | 0, _ => outOfCalls
  | calls + 1, left => do
    if (← lookahead).isOneOf [.plus, .minus] then
      let operator ← forward
      let right ← product limit calls
      sumFrom limit calls (.apply (.callTarget operator) [left, right])
    else
      return left

/-- A product of unaries. -/
def product (limit : Nat) : (calls : Nat) → Tracked Node
  | 0 => outOfCalls
  | calls + 1 => do
    let first ← unary limit calls
    productFrom limit calls first

/-- Goes on with a product as long as one of its operators comes next. -/
def productFrom (limit : Nat) : (calls : Nat) → Node → Tracked Node
  | 0, _ => outOfCalls
  | calls + 1, left => do
    if (← lookahead).isOneOf [.multiply, .divide] then
      let operator ← forward
      let right ← unary limit calls
      productFrom limit calls (.apply (.callTarget operator) [left, right])
    else
      return left

/-- A signed or a raised operand, for which a level is open as long as it is read. -/
def unary (limit : Nat) : (calls : Nat) → Tracked Node
  | 0 => outOfCalls
  | calls + 1 => do
    descend limit
    let node ← (do
      if (← lookahead).isOneOf [.plus, .minus] then
        let sign ← forward
        let operand ← unary limit calls
        return .apply (.callTarget sign) [operand]
      else
        power limit calls)
    ascend
    return node

/-- A primary, raised to a unary if `**` follows. -/
def power (limit : Nat) : (calls : Nat) → Tracked Node
  | 0 => outOfCalls
  | calls + 1 => do
    let base ← primary limit calls
    if (← lookahead).is .power then
      let operator ← forward
      let exponent ← unary limit calls
      return .apply (.callTarget operator) [base, exponent]
    else
      return base

/-- A sum between parentheses or an operand. -/
def primary (limit : Nat) : (calls : Nat) → Tracked Node
  | 0 => outOfCalls
  | calls + 1 => do
    if (← lookahead).is .leftParen then
      let _ ← forward
      let inner ← sum limit calls
      expect .rightParen .expression
      return inner
    else
      call limit calls

/-- A name or a number, or a called function. -/
def call (limit : Nat) : (calls : Nat) → Tracked Node
  | 0 => outOfCalls
  | calls + 1 => do
    if (← lookahead).kind.isOperand then
      let operand ← forward
      if (← lookahead).is .leftParen then
        let _ ← forward
        let arguments ← if (← lookahead).is .rightParen then pure [] else items limit calls
        expect .rightParen .call
        return .apply (.callTarget operand) arguments
      else
        return .atom (.value operand)
    else
      fail .expression .operand

/-- One or more expressions with commas between them. -/
def items (limit : Nat) : (calls : Nat) → Tracked (List Node)
  | 0 => outOfCalls
  | calls + 1 => do
    let first ← expression limit calls
    let others ← itemsFrom limit calls
    return first :: others

/-- Goes on with items as long as a comma comes next. -/
def itemsFrom (limit : Nat) : (calls : Nat) → Tracked (List Node)
  | 0 => outOfCalls
  | calls + 1 => do
    if (← lookahead).is .comma then
      let _ ← forward
      let next ← expression limit calls
      let others ← itemsFrom limit calls
      return next :: others
    else
      return []

end

/-! ### Programs -/

/-- Moves past all line ends that come next. -/
def skipNewLines : (calls : Nat) → Tracked Unit
  | 0 => outOfCalls
  | calls + 1 => do
    if (← lookahead).isNewLine then
      let _ ← forward
      skipNewLines calls

/-- Two expressions joined by a comparison. -/
def relation (limit calls : Nat) : Tracked Node := do
  let left ← expression limit calls
  if (← lookahead).kind.isRelational then
    let operator ← forward
    let right ← expression limit calls
    return .relation left (.callTarget operator) right
  else
    fail .relation .relationalOperator

/-- A relation, or the empty statement for a run of blank lines. -/
def statement (limit calls : Nat) : Tracked Node := do
  if (← lookahead).isNewLine then
    skipNewLines calls
    return .empty
  else
    let node ← relation limit calls
    skipNewLines calls
    return node

/-- Statements up to the end of the source. -/
def statements (limit : Nat) : (calls : Nat) → Tracked (List Node)
  | 0 => outOfCalls
  | calls + 1 => do
    if (← lookahead).isEndOfInput then
      return []
    else
      let next ← statement limit calls
      let others ← statements limit calls
      return next :: others

/-- All statements of a source. -/
def program (limit calls : Nat) : Tracked Node := do
  return Parse.ofStatements (← statements limit calls)

/-- The track in front of a source, before the stream is asked for the first token. -/
def unread (source : String) : Track :=
  ⟨⟨default, .ofSource source, source.utf8ByteSize⟩, 0, []⟩

/-- The tree of a whole source, for the track in front of it. -/
def wholeSource (limit calls : Nat) : Tracked Node := do
  advance
  program limit calls

/-! ### Runs of steps -/

theorem exec_bind_ok {first : Tracked α} {next : α → Tracked β} {track middle : Track} {value : α}
    (h : exec first track = some (.ok value, middle)) :
    exec (first >>= next) track = exec (next value) middle := by
  rw [exec, ExceptT.run_bind, StateT.run_bind]
  change exec first track >>= _ = _
  rw [h]
  rfl

theorem exec_bind_error {first : Tracked α} {next : α → Tracked β} {track final : Track}
    {error : SyntaxError} (h : exec first track = some (.error error, final)) :
    exec (first >>= next) track = some (.error error, final) := by
  rw [exec, ExceptT.run_bind, StateT.run_bind]
  change exec first track >>= _ = _
  rw [h]
  rfl

theorem exec_lookahead_bind (next : Token → Tracked α) (track : Track) :
    exec (lookahead >>= next) track = exec (next track.state.current) track :=
  rfl

theorem exec_forward_bind (next : Token → Tracked α) (track : Track) :
    exec (forward >>= next) track = exec (advance >>= fun _ ↦ next track.state.current) track := by
  rw [forward, bind_assoc, exec_lookahead_bind, bind_assoc]
  rfl

theorem exec_expect_bind {delimiter : Token.Operator} {rule : Rule} {next : Unit → Tracked α}
    {track : Track} (h : track.state.current.is delimiter) :
    exec (expect delimiter rule >>= next) track = exec (forward >>= fun _ ↦ next ()) track := by
  rw [expect, bind_assoc, exec_lookahead_bind, if_pos h, bind_assoc]
  rfl

theorem exec_expect_missing {delimiter : Token.Operator} {rule : Rule} {track : Track}
    (h : ¬ track.state.current.is delimiter) :
    exec (expect delimiter rule) track =
      some (.error (.grammatical (.unexpected rule (.delimiter delimiter) track.state.current)),
        track) := by
  rw [expect, exec_lookahead_bind, if_neg h]
  rfl

theorem exec_descend {limit : Nat} {track : Track} (h : track.depth < limit) :
    exec (descend limit) track = some (.ok (), ⟨track.state, track.depth + 1,
      track.events ++ [.opened (track.depth + 1)]⟩) := by
  change exec (if limit ≤ track.depth then _ else _) track = _
  rw [if_neg (Nat.not_le.mpr h)]
  rfl

theorem exec_descend_tooDeep {limit : Nat} {track : Track} (h : limit ≤ track.depth) :
    exec (descend limit) track =
      some (.error (.grammatical (.nestingTooDeep .expression limit track.state.current)),
        track) := by
  change exec (if limit ≤ track.depth then _ else _) track = _
  rw [if_pos h]
  rfl

theorem exec_ascend (track : Track) :
    exec ascend track = some (.ok (), ⟨track.state, track.depth - 1,
      track.events ++ [.closed track.depth]⟩) :=
  rfl

/-- A rule ends as it does with one more call open. -/
theorem Ends.succ {rule : Nat → Tracked α} {track final : Track} {result : Except SyntaxError α}
    (h : Ends (fun calls ↦ rule (calls + 1)) track result final) :
    Ends rule track result final := by
  obtain ⟨bound, hbound⟩ := h
  refine ⟨bound + 1, fun calls hcalls ↦ ?_⟩
  obtain ⟨fewer, rfl⟩ := Nat.exists_eq_add_of_lt hcalls
  exact hbound (bound + fewer) (Nat.le_add_right _ _)

theorem Ends.of_exec {rule other : Nat → Tracked α} {track middle final : Track}
    {result : Except SyntaxError α} (h : Ends other middle result final)
    (hexec : ∀ calls, exec (rule calls) track = exec (other calls) middle) :
    Ends rule track result final := by
  obtain ⟨bound, hbound⟩ := h
  exact ⟨bound, fun calls hcalls ↦ (hexec calls).trans (hbound calls hcalls)⟩

theorem Ends.bind_ok {first : Nat → Tracked α} {next : Nat → α → Tracked β}
    {track middle final : Track} {value : α} {result : Except SyntaxError β}
    (hfirst : Ends first track (.ok value) middle)
    (hnext : Ends (fun calls ↦ next calls value) middle result final) :
    Ends (fun calls ↦ first calls >>= next calls) track result final := by
  obtain ⟨bound, hbound⟩ := hfirst
  obtain ⟨more, hmore⟩ := hnext
  refine ⟨max bound more, fun calls hcalls ↦ ?_⟩
  have hvalue := hbound calls (Nat.le_trans (Nat.le_max_left _ _) hcalls)
  rw [exec_bind_ok hvalue]
  exact hmore calls (Nat.le_trans (Nat.le_max_right _ _) hcalls)

theorem Ends.bind_error {first : Nat → Tracked α} {next : Nat → α → Tracked β}
    {track final : Track} {error : SyntaxError} (h : Ends first track (.error error) final) :
    Ends (fun calls ↦ first calls >>= next calls) track (.error error) final := by
  obtain ⟨bound, hbound⟩ := h
  exact ⟨bound, fun calls hcalls ↦ exec_bind_error (hbound calls hcalls)⟩

/-- As long as the stream has not come to its end, asking it leads to the next state, like moving
on does, or to its lexical error. -/
theorem advance_cases (track : Track) (h : track.state.upcoming.Terminated) :
    (∃ next : ParserState, next.Live ∧
      Parse.forward.run track.state = .ok (track.state.current, next) ∧
      exec advance track = some (.ok (), ⟨next, track.depth,
        track.events ++ [.pulled (some (.ok next.current))]⟩)) ∨
    ∃ error final, Parse.forward.run track.state = .error (.lexical error) ∧
      exec advance track = some (.error (.lexical error), ⟨final, track.depth,
        track.events ++ [.pulled (some (.error error))]⟩) := by
  obtain ⟨⟨current, upcoming, sourceSize⟩, depth, events⟩ := track
  cases upcoming with
  | token first following =>
    refine .inl ⟨⟨first, following, sourceSize⟩, ?_, rfl, rfl⟩
    rw [ParserState.Live, if_neg h.1]
    exact h.2
  | finish size => exact .inl ⟨⟨.endOfInput size, .exhausted, sourceSize⟩, rfl, rfl, rfl⟩
  | invalid error => exact .inr ⟨error, ⟨current, .exhausted, sourceSize⟩, rfl, rfl⟩
  | exhausted => exact h.elim

end Tracked

/-! ### Orderly tracks -/

namespace Track

/-- What the stream has answered, the oldest answer first. -/
def pulls (track : Track) : List (Option (Except LexError Token)) :=
  track.events.filterMap fun
    | .pulled item => some item
    | _ => none

/-- An answer behind which a stream has more to give: a token that does not close the source. -/
def GoesOn (item : Option (Except LexError Token)) : Prop :=
  ∃ token : Token, item = some (.ok token) ∧ ¬ token.isEndOfInput

/-- Whether an event can be part of an orderly track: the stream had an answer, a level was opened
within the limit, or a level was closed while one was open. -/
def Event.IsAllowed (limit : Nat) : Event → Prop
  | pulled item => item ≠ none
  | opened depth => depth ≤ limit
  | closed depth => 0 < depth

/-- The tracks on which no more levels than the limit are open, no level is closed without being
open, and the stream is not asked again behind its end. -/
structure Orderly (limit : Nat) (track : Track) : Prop where
  isAllowed : ∀ event ∈ track.events, event.IsAllowed limit
  goesOn : ∀ item ∈ track.pulls.dropLast, GoesOn item

/-- What holds of a track from which a parser can go on. -/
structure InUse (limit : Nat) (track : Track) : Prop where
  live : track.state.Live
  depth_le : track.depth ≤ limit
  isAllowed : ∀ event ∈ track.events, event.IsAllowed limit
  exists_pulls : ∃ earlier, track.pulls = earlier ++ [some (.ok track.state.current)] ∧
    ∀ item ∈ earlier, GoesOn item

theorem InUse.orderly {limit : Nat} {track : Track} (h : track.InUse limit) :
    track.Orderly limit where
  isAllowed := h.isAllowed
  goesOn := by
    obtain ⟨earlier, hpulls, hearlier⟩ := h.exists_pulls
    rw [hpulls, List.dropLast_concat]
    exact hearlier

/-- Where the next token does not close the source, all answers so far go on. -/
theorem InUse.pulls_goOn {limit : Nat} {track : Track} (h : track.InUse limit)
    (hcurrent : ¬ track.state.current.isEndOfInput) : ∀ item ∈ track.pulls, GoesOn item := by
  obtain ⟨earlier, hpulls, hearlier⟩ := h.exists_pulls
  rw [hpulls, List.forall_mem_append, List.forall_mem_singleton]
  exact ⟨hearlier, _, rfl, hcurrent⟩

theorem pulls_concat_pulled (state next : ParserState) (depth : Nat) (events : List Event)
    (item : Option (Except LexError Token)) :
    (Track.mk next depth (events ++ [.pulled item])).pulls =
      (Track.mk state depth events).pulls ++ [item] := by
  rw [pulls, pulls, List.filterMap_append]
  rfl

theorem pulls_concat_opened (state : ParserState) (depth now : Nat) (events : List Event) :
    (Track.mk state now (events ++ [.opened now])).pulls = (Track.mk state depth events).pulls := by
  rw [pulls, pulls, List.filterMap_append]
  exact List.append_nil _

theorem pulls_concat_closed (state : ParserState) (depth now : Nat) (events : List Event) :
    (Track.mk state now (events ++ [.closed depth])).pulls =
      (Track.mk state depth events).pulls := by
  rw [pulls, pulls, List.filterMap_append]
  exact List.append_nil _

variable {limit : Nat} {track : Track}

theorem isAllowed_concat {events : List Event}
    (hevents : ∀ event ∈ events, event.IsAllowed limit) (last : Event)
    (hlast : last.IsAllowed limit) : ∀ event ∈ events ++ [last], event.IsAllowed limit :=
  List.forall_mem_append.mpr ⟨hevents, List.forall_mem_singleton.mpr hlast⟩

/-- A new token may be pulled behind answers that all go on. -/
theorem inUse_pulled (track : Track) {next : ParserState} (hlive : next.Live)
    (hdepth : track.depth ≤ limit)
    (hallowed : ∀ event ∈ track.events, event.IsAllowed limit)
    (hpulls : ∀ item ∈ track.pulls, GoesOn item) :
    (Track.mk next track.depth (track.events ++ [.pulled (some (.ok next.current))])).InUse
      limit where
  live := hlive
  depth_le := hdepth
  isAllowed := isAllowed_concat hallowed (.pulled _) (Option.some_ne_none _)
  exists_pulls := ⟨track.pulls, pulls_concat_pulled track.state _ _ _ _, hpulls⟩

/-- A lexical error may be pulled behind answers that all go on. -/
theorem orderly_pulled (track : Track) {state : ParserState} {error : LexError}
    (hallowed : ∀ event ∈ track.events, event.IsAllowed limit)
    (hpulls : ∀ item ∈ track.pulls, GoesOn item) :
    (Track.mk state track.depth (track.events ++ [.pulled (some (.error error))])).Orderly
      limit where
  isAllowed := isAllowed_concat hallowed (.pulled _) (Option.some_ne_none _)
  goesOn := by
    rw [pulls_concat_pulled track.state, List.dropLast_concat]
    exact hpulls

theorem InUse.opened (h : track.InUse limit) (hdepth : track.depth < limit) :
    (Track.mk track.state (track.depth + 1)
      (track.events ++ [.opened (track.depth + 1)])).InUse limit where
  live := h.live
  depth_le := hdepth
  isAllowed := isAllowed_concat h.isAllowed (.opened _) hdepth
  exists_pulls := by
    rw [pulls_concat_opened]
    exact h.exists_pulls

theorem InUse.closed (h : track.InUse limit) (hdepth : 0 < track.depth) :
    (Track.mk track.state (track.depth - 1) (track.events ++ [.closed track.depth])).InUse
      limit where
  live := h.live
  depth_le := Nat.le_trans (Nat.sub_le _ _) h.depth_le
  isAllowed := isAllowed_concat h.isAllowed (.closed _) hdepth
  exists_pulls := by
    rw [pulls_concat_closed]
    exact h.exists_pulls

end Track

/-! ### Reachable tracks -/

namespace Tracked

/-- The tracks that are reached by steps from the first token of a source: moving on in front of
any token but the closing one, opening a level within the limit, and closing an open level. -/
inductive Reachable (limit : Nat) : Track → Prop
  | start {source : String} {track : Track} :
      exec advance (unread source) = some (.ok (), track) →
      Reachable limit track
  | advance {before after : Track} :
      Reachable limit before →
      ¬ before.state.current.isEndOfInput →
      exec advance before = some (.ok (), after) →
      Reachable limit after
  | descend {before after : Track} :
      Reachable limit before →
      exec (descend limit) before = some (.ok (), after) →
      Reachable limit after
  | ascend {before after : Track} :
      Reachable limit before →
      0 < before.depth →
      exec ascend before = some (.ok (), after) →
      Reachable limit after

variable {limit : Nat} {track : Track}

theorem Reachable.inUse (h : Reachable limit track) : track.InUse limit := by
  induction h with
  | @start source track hadvance =>
    have hterminated := TokenStream.terminated_scan 0 0 source.toList
    rcases advance_cases (unread source) hterminated with
      ⟨next, hnext, -, hok⟩ | ⟨error, final, -, herror⟩
    · cases hadvance.symm.trans hok
      exact Track.inUse_pulled (unread source) hnext (Nat.zero_le _)
        (List.forall_mem_nil _) (List.forall_mem_nil _)
    · cases hadvance.symm.trans herror
  | advance _ hcurrent hadvance ih =>
    have hlive := ih.live
    rw [ParserState.Live, if_neg hcurrent] at hlive
    rcases advance_cases _ hlive with ⟨next, hnext, -, hok⟩ | ⟨error, final, -, herror⟩
    · cases hadvance.symm.trans hok
      exact Track.inUse_pulled _ hnext ih.depth_le ih.isAllowed (ih.pulls_goOn hcurrent)
    · cases hadvance.symm.trans herror
  | @descend before after _ hdescend ih =>
    rcases Nat.lt_or_ge before.depth limit with hdepth | hdepth
    · cases hdescend.symm.trans (exec_descend hdepth)
      exact ih.opened hdepth
    · cases hdescend.symm.trans (exec_descend_tooDeep hdepth)
  | @ascend before after _ hdepth hascend ih =>
    cases hascend.symm.trans (exec_ascend before)
    exact ih.closed hdepth

/-- On a reachable track everything is in order. -/
theorem Reachable.orderly (h : Reachable limit track) : track.Orderly limit :=
  h.inUse.orderly

end Tracked

end Formula
