import Formula.Proofs.Refusal

/-!
# Phrases that nest too deep

A phrase with a path that is too heavy for the levels of its rule makes the rule get stuck inside
it, at the first token that would have to open one level more (`sinksIn_of_not_fits`). The same
holds for the statements of a program (`exists_stuckProgram_of_not_fits`).
-/

set_option autoImplicit false
set_option relaxedAutoImplicit false

namespace Formula.Grammar

/-- Whether a rule gets stuck inside the tokens because it may not open another level. -/
def SinksIn (limit : Nat) (goal : Goal) (levels : Nat) (tokens : List Token) : Prop :=
  ∃ before token after, tokens = before ++ token :: after ∧
    Stuck limit goal levels before (.nestingTooDeep .expression limit token)

section

variable {limit levels : Nat} {goal : Goal} {tokens : List Token}

theorem SinksIn.append (h : SinksIn limit goal levels tokens) (more : List Token) :
    SinksIn limit goal levels (tokens ++ more) := by
  obtain ⟨before, token, after, rfl, hstuck⟩ := h
  exact ⟨before, token, after ++ more, by simp, hstuck⟩

theorem SinksIn.lift {inner : Goal} {innerLevels : Nat}
    (h : SinksIn limit inner innerLevels tokens)
    (hstuck : ∀ before token after, tokens = before ++ token :: after →
      Stuck limit inner innerLevels before (.nestingTooDeep .expression limit token) →
      Stuck limit goal levels before (.nestingTooDeep .expression limit token)) :
    SinksIn limit goal levels tokens := by
  obtain ⟨before, token, after, htokens, hinner⟩ := h
  exact ⟨before, token, after, htokens, hstuck before token after htokens hinner⟩

theorem SinksIn.behind {inner : Goal} {innerLevels : Nat}
    (h : SinksIn limit inner innerLevels tokens) (first : List Token) (operator : Token)
    (hstuck : ∀ before token after, tokens = before ++ token :: after →
      Stuck limit inner innerLevels before (.nestingTooDeep .expression limit token) →
      Stuck limit goal levels (first ++ operator :: before)
        (.nestingTooDeep .expression limit token)) :
    SinksIn limit goal levels (first ++ operator :: tokens) := by
  obtain ⟨before, token, after, rfl, hinner⟩ := h
  exact ⟨first ++ operator :: before, token, after, by simp,
    hstuck before token after rfl hinner⟩

/-- A rule without levels sinks in front of its first token. -/
theorem sinksIn_zero (htokens : tokens ≠ [])
    (hstuck : ∀ token, Stuck limit goal 0 [] (.nestingTooDeep .expression limit token)) :
    SinksIn limit goal 0 tokens := by
  obtain ⟨token, after, rfl⟩ := List.exists_cons_of_ne_nil htokens
  exact ⟨[], token, after, rfl, hstuck token⟩

end

/-- A phrase begins with the first of its tokens, also where it is cut in two. -/
theorem Derives.starts_headD {weights : List Nat} {tokens before after : List Token}
    {token : Token} {phrase : Phrase} (h : Derives weights tokens phrase)
    (htokens : tokens = before ++ token :: after) : phrase.goal.Starts (before.headD token) := by
  obtain ⟨first, rest, rfl, hstarts⟩ := h.starts
  cases before with
  | nil => exact (List.cons.inj htokens).1 ▸ hstarts
  | cons head before => exact (List.cons.inj htokens).1 ▸ hstarts

variable {limit : Nat}

/-- A phrase that does not fit into the levels of its rule makes the rule sink in it. -/
theorem sinksIn_of_not_fits (limit : Nat) {levels : Nat} {weights : List Nat} {tokens : List Token}
    {phrase : Phrase} (h : Derives weights tokens phrase)
    (hfits : ¬ Fits levels phrase.goal weights) : SinksIn limit phrase.goal levels tokens := by
  induction h generalizing levels with
  | @relation leftWeights _ leftTokens _ _ _ operator hleft hoperator hright ihleft ihright =>
    by_cases hleftFits : Fits levels .expression leftWeights
    · exact (ihright fun h ↦ hfits (fits_append hleftFits h)).behind leftTokens operator
        fun _ _ _ _ h ↦ .right hleft hleftFits hoperator h
    · exact ((ihleft hleftFits).lift fun _ _ _ _ h ↦ .left h).append _
  | @set _ _ _ opening closing hopening hitems hclosing ih =>
    cases levels with
    | zero => exact sinksIn_zero (List.cons_ne_nil _ _) .expressionLimit
    | succ levels =>
      have hlevels : 1 + 2 + levels ≤ 2 + (levels + 1) := by omega
      have hinner : SinksIn limit _ levels _ := ih fun h ↦ hfits (fits_map_add h hlevels)
      exact (hinner.append [closing]).behind [] opening fun _ _ _ _ h ↦ .setItems hopening h
  | @vector _ _ _ opening closing hopening hitems hclosing ih =>
    cases levels with
    | zero => exact sinksIn_zero (List.cons_ne_nil _ _) .expressionLimit
    | succ levels =>
      have hlevels : 1 + 2 + levels ≤ 2 + (levels + 1) := by omega
      have hinner : SinksIn limit _ levels _ := ih fun h ↦ hfits (fits_map_add h hlevels)
      exact (hinner.append [closing]).behind [] opening fun _ _ _ _ h ↦ .vectorItems hopening h
  | expression hsum ih =>
    cases levels with
    | zero => exact sinksIn_zero hsum.ne_nil .expressionLimit
    | succ levels =>
      have hlevels : 2 + levels ≤ 1 + (levels + 1) := by omega
      have hinner : SinksIn limit _ levels _ := ih fun h ↦ hfits (fits_of_le h hlevels)
      exact hinner.lift fun _ _ _ htokens h ↦ .expression
        ((hsum.starts_headD htokens).not_isOneOf _ (by simp [Phrase.goal, Goal.openings])) h
  | item hfirst ih => exact (ih hfits).lift fun _ _ _ _ h ↦ .item h
  | @nextItem firstWeights _ firstTokens _ _ _ comma hfirst hcomma hrest ihfirst ihrest =>
    by_cases hfirstFits : Fits levels .expression firstWeights
    · exact (ihrest fun h ↦ hfits (fits_append hfirstFits h)).behind firstTokens comma
        fun _ _ _ _ h ↦ .nextItem hfirst hfirstFits hcomma h
    · exact ((ihfirst hfirstFits).lift fun _ _ _ _ h ↦ .item h).append _
  | sum hproduct ih => exact (ih hfits).lift fun _ _ _ _ h ↦ .sum h
  | @addition leftWeights _ leftTokens _ _ _ operator hleft hoperator hright ihleft ihright =>
    by_cases hleftFits : Fits levels .sum leftWeights
    · exact (ihright fun h ↦ hfits (fits_append hleftFits h)).behind leftTokens operator
        fun _ _ _ _ h ↦ .addition hleft hleftFits hoperator h
    · exact (ihleft hleftFits).append _
  | product hunary ih => exact (ih hfits).lift fun _ _ _ _ h ↦ .product h
  | @multiplication leftWeights _ leftTokens _ _ _ operator hleft hoperator hright ihleft
      ihright =>
    by_cases hleftFits : Fits levels .product leftWeights
    · exact (ihright fun h ↦ hfits (fits_append hleftFits h)).behind leftTokens operator
        fun _ _ _ _ h ↦ .multiplication hleft hleftFits hoperator h
    · exact (ihleft hleftFits).append _
  | @sign _ _ _ sign hsign hoperand ih =>
    cases levels with
    | zero => exact sinksIn_zero (List.cons_ne_nil _ _) .unaryLimit
    | succ levels =>
      have hlevels : 1 + 1 + levels ≤ 1 + (levels + 1) := by omega
      have hinner : SinksIn limit _ levels _ := ih fun h ↦ hfits (fits_map_add h hlevels)
      exact hinner.behind [] sign fun _ _ _ _ h ↦ .sign hsign h
  | unary hpower ih =>
    cases levels with
    | zero => exact sinksIn_zero hpower.ne_nil .unaryLimit
    | succ levels =>
      have hlevels : 1 + levels ≤ 0 + (levels + 1) := by omega
      have hinner : SinksIn limit _ levels _ := ih fun h ↦ hfits (fits_of_le h hlevels)
      exact hinner.lift fun _ _ _ htokens h ↦ .unary
        ((hpower.starts_headD htokens).not_isOneOf _ (by simp [Phrase.goal, Goal.openings])) h
  | power hprimary ih => exact (ih hfits).lift fun _ _ _ _ h ↦ .power h
  | @raised baseWeights _ baseTokens _ _ _ operator hbase hoperator hexponent ihbase
      ihexponent =>
    by_cases hbaseFits : Fits levels .primary baseWeights
    · have hinner : SinksIn limit _ levels _ := ihexponent fun h ↦
        hfits (fits_append hbaseFits (fits_map_add h (Nat.le_refl _)))
      exact hinner.behind baseTokens operator fun _ _ _ _ h ↦ .raised hbase hbaseFits hoperator h
    · exact ((ihbase hbaseFits).lift fun _ _ _ _ h ↦ .power h).append _
  | @group _ _ _ opening closing hopening hsum hclosing ih =>
    have hinner : SinksIn limit _ levels _ := ih fun h ↦ hfits (fits_map_add h (Nat.le_refl _))
    exact (hinner.append [closing]).behind [] opening fun _ _ _ _ h ↦ .group hopening h
  | primary hcall ih =>
    exact (ih hfits).lift fun _ _ _ htokens h ↦ .primary
      ((hcall.starts_headD htokens).not_is _ (by simp [Phrase.goal, Goal.openings])) h
  | operand hoperand => exact absurd (by simp [Fits, Phrase.goal, Goal.levels]) hfits
  | emptyCall hfunction hopening hclosing =>
    exact absurd (by simp [Fits, Phrase.goal, Goal.levels]) hfits
  | @call _ _ _ function opening closing hfunction hopening hitems hclosing ih =>
    have hinner : SinksIn limit _ levels _ := ih fun h ↦ hfits (fits_map_add h (Nat.le_refl _))
    exact (hinner.behind [function] opening fun _ _ _ htokens h ↦ .arguments hfunction hopening
      ((hitems.starts_headD htokens).not_is _ (by simp [Phrase.goal, Goal.openings])) h).append
        [closing]

/-- Statements that do not fit into the limit make a reader of statements sink in them. -/
theorem exists_stuckProgram_of_not_fits {statements : List Statement} {next : Token}
    (htaken : TakenAll statements next)
    (hfits : ¬ Fits limit .relation (weightsOf statements)) :
    ∃ before token after, tokensOf statements = before ++ token :: after ∧
      StuckProgram limit before (.nestingTooDeep .expression limit token) := by
  induction htaken with
  | nil next => exact absurd (List.forall_mem_nil _) hfits
  | @cons statement others next hfirst _ ih =>
    rw [tokensOf_cons]
    rw [weightsOf_cons] at hfits
    by_cases hfirstFits : Fits limit .relation statement.weights
    · obtain ⟨before, token, after, htokens, hstuck⟩ :=
        ih fun h ↦ hfits (fits_append hfirstFits h)
      rw [htokens, headD_append_cons] at hfirst
      exact ⟨statement.tokens ++ before, token, after, by rw [htokens, List.append_assoc],
        .later hfirst hfirstFits hstuck⟩
    · cases statement with
      | mk weights tokens node derives =>
      cases derives with
      | @relation _ _ lines _ hderives hlines =>
        obtain ⟨before, token, after, htokens, hstuck⟩ :=
          sinksIn_of_not_fits limit hderives hfirstFits
        have hstarts := hderives.starts_headD htokens
        exact ⟨before, token, after ++ (lines ++ tokensOf others),
          by simp only [htokens, List.append_assoc, List.cons_append],
          .here hstarts.isInner.not_isEndOfInput hstarts.isInner.not_isNewLine hstuck⟩
      | empty => exact absurd (List.forall_mem_nil _) hfirstFits

end Formula.Grammar
