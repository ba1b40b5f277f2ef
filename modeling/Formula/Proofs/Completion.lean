import Formula.Proofs.Refusal
import Formula.Proofs.Spelling

/-!
# Refused phrases can be completed

A rule that refuses a token asks for another one. After the tokens that the rule has read, any
token that it asks for can be followed by more tokens that complete the phrase within the same
levels (`completes_of_stuck`), and the program around it (`exists_completion`).
-/

set_option autoImplicit false
set_option relaxedAutoImplicit false

namespace Formula

/-- Whether a token is of the sort that an error names. -/
def Expected.Names : Expected → Token → Prop
  | .relationalOperator, token => token.kind.isRelational
  | .operand, token => token.kind = .identifier
  | .delimiter operator, token => token.is operator
  | .nestingDepth _, _ => False

theorem Expected.isOperand_of_names {named : Token} (h : Expected.operand.Names named) :
    named.kind.isOperand := by
  change named.kind = .identifier at h
  rw [h]
  rfl

/-- A token of the sort that an error names can be written, unless it names a nesting limit. -/
theorem Expected.exists_names {expected : Expected}
    (h : ∀ limit, expected ≠ .nestingDepth limit) :
    ∃ named, expected.Names named ∧ Spellable named.word := by
  cases expected with
  | relationalOperator => exact ⟨.ofOperator .equal 0, rfl, spellable_ofOperator _⟩
  | operand => exact ⟨.identifier "x" 0, rfl, spellable_name⟩
  | delimiter operator =>
    exact ⟨.ofOperator operator 0, by simp [Names, Token.ofOperator], spellable_ofOperator _⟩
  | nestingDepth limit => exact absurd rfl (h limit)

namespace Grammar

theorem forall_spellable_singleton {token : Token} (h : Spellable token.word) :
    ∀ other ∈ [token], Spellable other.word :=
  List.forall_mem_singleton.mpr h

/-! ### Completions -/

/-- Whether more tokens make a phrase of a rule out of these ones. -/
def Completes (goal : Goal) (levels : Nat) (tokens : List Token) : Prop :=
  ∃ more weights phrase, phrase.goal = goal ∧ Derives weights (tokens ++ more) phrase ∧
    Fits levels goal weights ∧ ∀ token ∈ more, Spellable token.word

section

variable {goal inner : Goal} {levels innerLevels : Nat} {tokens : List Token}

theorem Completes.lift (h : Completes inner innerLevels tokens)
    (hderives : ∀ weights part phrase, phrase.goal = inner → Derives weights part phrase →
      Fits innerLevels inner weights → ∃ weights' phrase', phrase'.goal = goal ∧
        Derives weights' part phrase' ∧ Fits levels goal weights') :
    Completes goal levels tokens := by
  obtain ⟨more, weights, phrase, hgoal, hinner, hfits, hmore⟩ := h
  obtain ⟨weights', phrase', hgoal', houter, hfits'⟩ :=
    hderives weights (tokens ++ more) phrase hgoal hinner hfits
  exact ⟨more, weights', phrase', hgoal', houter, hfits', hmore⟩

/-- What completes the last part of a phrase completes the phrase. -/
theorem Completes.behind (h : Completes inner innerLevels tokens) (first : List Token)
    (operator : Token)
    (hderives : ∀ weights part phrase, phrase.goal = inner → Derives weights part phrase →
      Fits innerLevels inner weights → ∃ weights' phrase', phrase'.goal = goal ∧
        Derives weights' (first ++ operator :: part) phrase' ∧ Fits levels goal weights') :
    Completes goal levels (first ++ operator :: tokens) := by
  obtain ⟨more, weights, phrase, hgoal, hinner, hfits, hmore⟩ := h
  obtain ⟨weights', phrase', hgoal', houter, hfits'⟩ :=
    hderives weights (tokens ++ more) phrase hgoal hinner hfits
  refine ⟨more, weights', phrase', hgoal', ?_, hfits', hmore⟩
  rwa [List.append_assoc, List.cons_append]

/-- What completes a part of a phrase completes the phrase, if a few more tokens follow. -/
theorem Completes.closed (h : Completes inner innerLevels tokens) (first last : List Token)
    (hlast : ∀ token ∈ last, Spellable token.word)
    (hderives : ∀ weights part phrase, phrase.goal = inner → Derives weights part phrase →
      Fits innerLevels inner weights → ∃ weights' phrase', phrase'.goal = goal ∧
        Derives weights' (first ++ (part ++ last)) phrase' ∧ Fits levels goal weights') :
    Completes goal levels (first ++ tokens) := by
  obtain ⟨more, weights, phrase, hgoal, hinner, hfits, hmore⟩ := h
  obtain ⟨weights', phrase', hgoal', houter, hfits'⟩ :=
    hderives weights (tokens ++ more) phrase hgoal hinner hfits
  rw [List.append_assoc] at houter
  exact ⟨more ++ last, weights', phrase', hgoal', by rwa [List.append_assoc], hfits',
    List.forall_mem_append.mpr ⟨hmore, hlast⟩⟩

theorem completes_of_derives {more : List Token} {weights : List Nat} {phrase : Phrase}
    (h : Derives weights (tokens ++ more) phrase) (hfits : Fits levels phrase.goal weights)
    (hmore : ∀ token ∈ more, Spellable token.word) : Completes phrase.goal levels tokens :=
  ⟨more, weights, phrase, rfl, h, hfits, hmore⟩

end

/-- Where a relation may have an operand on its left it may have one on its right. -/
theorem fits_operand {levels : Nat} {weights : List Nat} (hnonempty : weights ≠ [])
    (hfits : Fits levels .expression weights) : Fits levels .relation (weights ++ [0]) := by
  refine fits_append hfits (List.forall_mem_singleton.mpr ?_)
  obtain ⟨weight, hweight⟩ := List.exists_mem_of_ne_nil weights hnonempty
  exact Nat.le_trans (Nat.add_le_add_right (Nat.zero_le weight) 2) (hfits weight hweight)

variable {limit levels : Nat} {goal : Goal} {tokens : List Token} {error : ParseError}

/-- A token that a rule asks for can be completed to a phrase of the rule. -/
theorem completes_of_stuck (h : Stuck limit goal levels tokens error)
    (hcode : error.code = .unexpectedToken) {named : Token} (hnamed : error.expected.Names named) :
    Completes goal levels (tokens ++ [named]) := by
  have hname : (Token.identifier "x" 0).kind.isOperand := rfl
  have hclosing (operator : Token.Operator) := forall_spellable_singleton
    (spellable_ofOperator operator)
  induction h with
  | left _ ih =>
    refine (ih hcode hnamed).closed [] [.ofOperator .equal 0, .identifier "x" 0]
      (List.forall_mem_cons.mpr
        ⟨spellable_ofOperator _, forall_spellable_singleton spellable_name⟩) ?_
    intro weights part phrase hgoal hderives hfits
    cases phrase <;> cases hgoal
    exact ⟨_, _, rfl, .relation hderives rfl (derives_operand hname),
      fits_operand hderives.weights_ne_nil hfits⟩
  | @comparison _ _ tokens _ _ hleft hfits _ _ =>
    have hrelation := Derives.relation hleft hnamed (derives_operand hname)
    rw [List.append_cons tokens] at hrelation
    exact completes_of_derives hrelation (fits_operand hleft.weights_ne_nil hfits)
      (forall_spellable_singleton spellable_name)
  | right hleft hfits hoperator _ ih =>
    rw [List.append_assoc, List.cons_append]
    refine (ih hcode hnamed).behind _ _ ?_
    intro weights part phrase hgoal hderives hmore
    cases phrase <;> cases hgoal
    exact ⟨_, _, rfl, .relation hleft hoperator hderives, fits_append hfits hmore⟩
  | expressionLimit next => cases hcode
  | @setItems levels _ opening _ hopening _ ih =>
    refine (ih hcode hnamed).closed [opening] [.ofOperator .rightCurly 0] (hclosing _) ?_
    intro weights part phrase hgoal hderives hfits
    cases phrase <;> cases hgoal
    have hlevels : 1 + 2 + levels ≤ 2 + (levels + 1) := by omega
    exact ⟨_, _, rfl, .set hopening hderives rfl, fits_map_add hfits hlevels⟩
  | @setEnd levels _ _ _ _ _ hopening hitems hfits _ _ =>
    have hset := Derives.set hopening hitems hnamed
    rw [← List.append_nil (_ :: _)] at hset
    have hlevels : 1 + 2 + levels ≤ 2 + (levels + 1) := by omega
    exact completes_of_derives hset (fits_map_add hfits hlevels) (List.forall_mem_nil _)
  | @vectorItems levels _ opening _ hopening _ ih =>
    refine (ih hcode hnamed).closed [opening] [.ofOperator .rightSquare 0] (hclosing _) ?_
    intro weights part phrase hgoal hderives hfits
    cases phrase <;> cases hgoal
    have hlevels : 1 + 2 + levels ≤ 2 + (levels + 1) := by omega
    exact ⟨_, _, rfl, .vector hopening hderives rfl, fits_map_add hfits hlevels⟩
  | @vectorEnd levels _ _ _ _ _ hopening hitems hfits _ _ =>
    have hvector := Derives.vector hopening hitems hnamed
    rw [← List.append_nil (_ :: _)] at hvector
    have hlevels : 1 + 2 + levels ≤ 2 + (levels + 1) := by omega
    exact completes_of_derives hvector (fits_map_add hfits hlevels) (List.forall_mem_nil _)
  | @expression levels _ _ _ _ ih =>
    refine (ih hcode hnamed).lift ?_
    intro weights part phrase hgoal hderives hfits
    cases phrase <;> cases hgoal
    have hlevels : 2 + levels ≤ 1 + (levels + 1) := by omega
    exact ⟨_, _, rfl, .expression hderives, fits_of_le hfits hlevels⟩
  | item _ ih =>
    refine (ih hcode hnamed).lift ?_
    intro weights part phrase hgoal hderives hfits
    cases phrase <;> cases hgoal
    exact ⟨_, _, rfl, .item hderives, hfits⟩
  | nextItem hfirst hfits hcomma _ ih =>
    rw [List.append_assoc, List.cons_append]
    refine (ih hcode hnamed).behind _ _ ?_
    intro weights part phrase hgoal hderives hmore
    cases phrase <;> cases hgoal
    exact ⟨_, _, rfl, .nextItem hfirst hcomma hderives, fits_append hfits hmore⟩
  | sum _ ih =>
    refine (ih hcode hnamed).lift ?_
    intro weights part phrase hgoal hderives hfits
    cases phrase <;> cases hgoal
    exact ⟨_, _, rfl, .sum hderives, hfits⟩
  | addition hleft hfits hoperator _ ih =>
    rw [List.append_assoc, List.cons_append]
    refine (ih hcode hnamed).behind _ _ ?_
    intro weights part phrase hgoal hderives hmore
    cases phrase <;> cases hgoal
    exact ⟨_, _, rfl, .addition hleft hoperator hderives, fits_append hfits hmore⟩
  | product _ ih =>
    refine (ih hcode hnamed).lift ?_
    intro weights part phrase hgoal hderives hfits
    cases phrase <;> cases hgoal
    exact ⟨_, _, rfl, .product hderives, hfits⟩
  | multiplication hleft hfits hoperator _ ih =>
    rw [List.append_assoc, List.cons_append]
    refine (ih hcode hnamed).behind _ _ ?_
    intro weights part phrase hgoal hderives hmore
    cases phrase <;> cases hgoal
    exact ⟨_, _, rfl, .multiplication hleft hoperator hderives, fits_append hfits hmore⟩
  | unaryLimit next => cases hcode
  | @sign levels _ sign _ hsign _ ih =>
    refine (ih hcode hnamed).behind [] sign ?_
    intro weights part phrase hgoal hderives hfits
    cases phrase <;> cases hgoal
    have hlevels : 1 + 1 + levels ≤ 1 + (levels + 1) := by omega
    exact ⟨_, _, rfl, .sign hsign hderives, fits_map_add hfits hlevels⟩
  | @unary levels _ _ _ _ ih =>
    refine (ih hcode hnamed).lift ?_
    intro weights part phrase hgoal hderives hfits
    cases phrase <;> cases hgoal
    have hlevels : 1 + levels ≤ 0 + (levels + 1) := by omega
    exact ⟨_, _, rfl, .unary hderives, fits_of_le hfits hlevels⟩
  | power _ ih =>
    refine (ih hcode hnamed).lift ?_
    intro weights part phrase hgoal hderives hfits
    cases phrase <;> cases hgoal
    exact ⟨_, _, rfl, .power hderives, hfits⟩
  | raised hbase hfits hoperator _ ih =>
    rw [List.append_assoc, List.cons_append]
    refine (ih hcode hnamed).behind _ _ ?_
    intro weights part phrase hgoal hderives hmore
    cases phrase <;> cases hgoal
    exact ⟨_, _, rfl, .raised hbase hoperator hderives,
      fits_append hfits (fits_map_add hmore (Nat.le_refl _))⟩
  | @group _ _ opening _ hopening _ ih =>
    refine (ih hcode hnamed).closed [opening] [.ofOperator .rightParen 0] (hclosing _) ?_
    intro weights part phrase hgoal hderives hfits
    cases phrase <;> cases hgoal
    exact ⟨_, _, rfl, .group hopening hderives rfl, fits_map_add hfits (Nat.le_refl _)⟩
  | groupEnd hopening hinner hfits _ _ =>
    have hgroup := Derives.group hopening hinner hnamed
    rw [← List.append_nil (_ :: _)] at hgroup
    exact completes_of_derives hgroup (fits_map_add hfits (Nat.le_refl _))
      (List.forall_mem_nil _)
  | primary _ _ ih =>
    refine (ih hcode hnamed).lift ?_
    intro weights part phrase hgoal hderives hfits
    cases phrase <;> cases hgoal
    exact ⟨_, _, rfl, .primary hderives, hfits⟩
  | operand _ =>
    have hcall := Derives.operand (Expected.isOperand_of_names hnamed)
    rw [← List.append_nil [named]] at hcall
    exact completes_of_derives hcall (by simp [Fits, Phrase.goal, Goal.levels])
      (List.forall_mem_nil _)
  | @arguments _ _ function opening _ hfunction hopening _ _ ih =>
    refine (ih hcode hnamed).closed [function, opening] [.ofOperator .rightParen 0]
      (hclosing _) ?_
    intro weights part phrase hgoal hderives hfits
    cases phrase <;> cases hgoal
    exact ⟨_, _, rfl, .call hfunction hopening hderives rfl,
      fits_map_add hfits (Nat.le_refl _)⟩
  | callEnd hfunction hopening hitems hfits _ _ =>
    have hcall := Derives.call hfunction hopening hitems hnamed
    rw [← List.append_nil (_ :: _)] at hcall
    exact completes_of_derives hcall (fits_map_add hfits (Nat.le_refl _))
      (List.forall_mem_nil _)

/-! ### Programs -/

theorem expected_ne_of_stuck (h : Stuck limit goal levels tokens error)
    (hcode : error.code = .unexpectedToken) (depth : Nat) :
    error.expected ≠ .nestingDepth depth := by
  induction h with
  | left _ ih | expression _ _ ih | item _ ih | sum _ ih | product _ ih | unary _ _ ih
  | power _ ih | primary _ _ ih | right _ _ _ _ ih | nextItem _ _ _ _ ih
  | addition _ _ _ _ ih | multiplication _ _ _ _ ih | raised _ _ _ _ ih | setItems _ _ ih
  | vectorItems _ _ ih | sign _ _ ih | group _ _ ih | arguments _ _ _ _ ih => exact ih hcode
  | expressionLimit | unaryLimit => cases hcode
  | comparison | operand | setEnd | vectorEnd | groupEnd | callEnd => exact nofun

theorem expected_ne_of_stuckProgram (h : StuckProgram limit tokens error)
    (hcode : error.code = .unexpectedToken) (depth : Nat) :
    error.expected ≠ .nestingDepth depth := by
  induction h with
  | here _ _ hstuck => exact expected_ne_of_stuck hstuck hcode depth
  | later _ _ _ ih => exact ih hcode

/-- In front of its first token a rule asks for an operand. -/
theorem expected_of_stuck_nil (h : Stuck limit goal levels tokens error)
    (hcode : error.code = .unexpectedToken) (htokens : tokens = []) :
    error.expected = .operand := by
  induction h with
  | left _ ih | expression _ _ ih | item _ ih | sum _ ih | product _ ih | unary _ _ ih
  | power _ ih | primary _ _ ih => exact ih hcode htokens
  | comparison hleft => exact absurd htokens hleft.ne_nil
  | right | nextItem | addition | multiplication | raised =>
    exact absurd htokens (List.append_ne_nil_of_right_ne_nil _ (List.cons_ne_nil _ _))
  | expressionLimit | unaryLimit => cases hcode
  | operand => rfl
  | setItems | setEnd | vectorItems | vectorEnd | sign | group | groupEnd | arguments | callEnd =>
    exact absurd htokens (List.cons_ne_nil _ _)

theorem expected_of_stuckProgram_nil (h : StuckProgram limit tokens error)
    (hcode : error.code = .unexpectedToken) (htokens : tokens = []) :
    error.expected = .operand := by
  cases h with
  | here _ _ hstuck => exact expected_of_stuck_nil hstuck hcode htokens
  | later htaken =>
    exact absurd htokens (List.append_ne_nil_of_left_ne_nil htaken.derives.ne_nil _)

/-- A token that a program asks for can be completed to a program. -/
theorem exists_completion (h : StuckProgram limit tokens error)
    (hcode : error.code = .unexpectedToken) {named : Token}
    (hnamed : error.expected.Names named) :
    ∃ more statements, tokensOf statements = tokens ++ named :: more ∧
      (∀ token ∈ more, Spellable token.word) ∧ Fits limit .relation (weightsOf statements) ∧
      ∀ closing : Token, closing.isEndOfInput → TakenAll statements closing := by
  induction h with
  | here _ _ hstuck =>
    obtain ⟨more, weights, phrase, hgoal, hderives, hfits, hmore⟩ :=
      completes_of_stuck hstuck hcode hnamed
    cases phrase <;> cases hgoal
    rw [List.append_assoc, List.singleton_append] at hderives
    exact ⟨more, [.ofRelation hderives], tokensOf_ofRelation hderives, hmore,
      (weightsOf_ofRelation hderives).symm ▸ hfits, fun _ ↦ takenAll_ofRelation hderives⟩
  | @later weights tokens rest node _ htaken hfits hstuck ih =>
    obtain ⟨more, statements, htokens, hmore, hmoreFits, htakenAll⟩ := ih hcode hnamed
    have hnext (closing : Token) :
        Taken weights tokens node ((tokensOf statements).headD closing) := by
      rw [htokens, headD_append_cons]
      cases rest with
      | cons first rest => exact htaken
      | nil =>
        rw [expected_of_stuckProgram_nil hstuck hcode rfl] at hnamed
        have hoperand := Expected.isOperand_of_names hnamed
        exact htaken.derives.taken (.inr (stops_of_isOperand hoperand))
          (Token.IsInner.not_isNewLine (.inl hoperand))
    refine ⟨more, ⟨weights, tokens, node, htaken.derives⟩ :: statements, ?_, hmore, ?_,
      fun closing hclosing ↦ .cons (hnext closing) (htakenAll closing hclosing)⟩
    · rw [tokensOf_cons, htokens, List.append_assoc]
    · rw [weightsOf_cons]
      exact fits_append hfits hmoreFits

end Grammar

end Formula
