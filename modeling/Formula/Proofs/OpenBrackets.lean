import Formula.Proofs.EarliestError

/-!
# Brackets that are not closed

A parse error that asks for a closing bracket asks for the one that closes the innermost bracket
left open by the tokens in front of it, and names the rule that reads what this bracket opens
(`parse_error_innermost`). The brackets of a phrase are properly nested (`Derives.nested`), so the
open ones are those of the rules that are still being read. A parenthesis belongs to a call exactly
if a name or a number stands directly before it: between two statements this is so because a
relation does not end before a parenthesis that would call its last operand (`Taken.notCalled`).

Every other parse error asks for a comparison, for an operand or for less nesting, and no error
asks for what it has found (`Stuck.not_describes`).
-/

set_option autoImplicit false
set_option relaxedAutoImplicit false

namespace Formula

open Token

/-! ### Brackets -/

/-- The bracket that closes what an operator opens, if it opens something. -/
def Token.Operator.closing? : Operator → Option Operator
  | leftCurly => some rightCurly
  | leftParen => some rightParen
  | leftSquare => some rightSquare
  | _ => none

/-- Whether a token opens or closes a bracketed group. -/
def Token.isBracket (token : Token) : Bool :=
  token.kind.operator?.any fun operator ↦ operator.opens || operator.closes

/-- Tokens whose brackets are properly nested: each is closed by the bracket that belongs to it. -/
inductive Nested : List Token → Prop
  | nil : Nested []
  | plain {token : Token} :
      ¬ token.isBracket →
      Nested [token]
  | append {tokens more : List Token} :
      Nested tokens →
      Nested more →
      Nested (tokens ++ more)
  | bracketed {opening closing : Token} {inner : List Token} {opener closer : Operator} :
      opening.is opener →
      opener.closing? = some closer →
      closing.is closer →
      Nested inner →
      Nested (opening :: (inner ++ [closing]))

/-- Tokens whose brackets are properly nested, except for some that are still open. -/
inductive Opened : List Token → Prop
  | nested {tokens : List Token} :
      Nested tokens →
      Opened tokens
  | opening {outer inner : List Token} {opening : Token} {opener : Operator} :
      Opened outer →
      opening.is opener →
      opener.opens →
      Nested inner →
      Opened (outer ++ opening :: inner)

/-- `InnermostOpen outer opener tokens` says that the innermost bracket left open by the tokens is
this opener, and that the outer tokens stand before it. -/
inductive InnermostOpen (outer : List Token) (opener : Operator) : List Token → Prop
  | intro {opening : Token} {inner : List Token} :
      Opened outer →
      opening.is opener →
      opener.opens →
      Nested inner →
      InnermostOpen outer opener (outer ++ opening :: inner)

/-- The rule that reads what a bracket opens behind another token. A parenthesis directly behind a
name or a number opens the arguments of a call, any other one a group. -/
def Rule.ofBracket : Operator → Option Token → Rule
  | .leftCurly, _ => .set
  | .leftSquare, _ => .vector
  | _, previous? => if previous?.any (·.kind.isOperand) then .call else .expression

/-- Whether a token is one of those that an expectation describes. -/
def Expected.Describes : Expected → Token → Prop
  | .relationalOperator, token => token.kind.isRelational
  | .operand, token => token.kind.isOperand ∨ token.is .leftParen
  | .delimiter closer, token => token.is closer
  | .nestingDepth _, _ => False

section

variable {token opening : Token} {tokens before more : List Token} {operators : List Operator}
  {opener : Operator}

theorem Token.not_isBracket_of_isOperand (h : token.kind.isOperand) : ¬ token.isBracket := by
  rw [isBracket]
  cases hkind : token.kind <;> simp_all [TokenKind.isOperand, TokenKind.operator?]

theorem Token.not_isBracket_of_isNewLine (h : token.isNewLine) : ¬ token.isBracket := by
  rw [isBracket, (isNewLine_iff token).mp h]
  exact Bool.false_ne_true

theorem Token.not_isBracket_of_isOneOf (h : token.isOneOf operators)
    (hoperators : ∀ operator ∈ operators, ¬ (operator.opens || operator.closes)) :
    ¬ token.isBracket := by
  obtain ⟨operator, hmem, hkind⟩ := (isOneOf_iff token operators).mp h
  rw [isBracket, hkind]
  exact hoperators operator hmem

theorem nested_of_forall_plain (h : ∀ token ∈ tokens, ¬ token.isBracket) : Nested tokens := by
  induction tokens with
  | nil => exact .nil
  | cons token tokens ih =>
    obtain ⟨htoken, htokens⟩ := List.forall_mem_cons.mp h
    exact .append (.plain htoken) (ih htokens)

theorem Opened.append (h : Opened before) (hmore : Opened more) : Opened (before ++ more) := by
  induction hmore with
  | nested hmore =>
    cases h with
    | nested hbefore => exact .nested (.append hbefore hmore)
    | opening houter hopening hopens hinner =>
      rw [List.append_assoc]
      exact .opening houter hopening hopens (.append hinner hmore)
  | opening _ hopening hopens hinner ih =>
    rw [← List.append_assoc]
    exact .opening ih hopening hopens hinner

/-- Only what stands before a parenthesis matters for the rule that it belongs to. -/
theorem Rule.ofBracket_of_not_isOperand {previous? : Option Token}
    (h : opener = .leftParen → ∀ previous ∈ previous?, ¬ previous.kind.isOperand)
    (hopens : opener.opens) : ofBracket opener previous? = ofBracket opener none := by
  cases opener with
  | leftCurly | leftSquare => rfl
  | leftParen =>
    cases previous? with
    | none => rfl
    | some previous => exact if_neg (h rfl previous rfl)
  | _ => exact absurd hopens Bool.false_ne_true

end

namespace Grammar

/-! ### Phrases -/

/-- The brackets of a phrase are properly nested. -/
theorem Derives.nested {weights : List Nat} {tokens : List Token} {phrase : Phrase}
    (h : Derives weights tokens phrase) : Nested tokens := by
  have hjoined {left right : List Token} {operator : Token} {operators : List Operator}
      (hleft : Nested left) (hoperator : operator.isOneOf operators)
      (hoperators : ∀ operator ∈ operators, ¬ (operator.opens || operator.closes))
      (hright : Nested right) : Nested (left ++ operator :: right) :=
    .append hleft (.append (.plain (not_isBracket_of_isOneOf hoperator hoperators)) hright)
  induction h with
  | relation _ hoperator _ ihleft ihright =>
    exact hjoined ihleft (isOneOf_comparisons hoperator) (by decide) ihright
  | set hopening _ hclosing ih | vector hopening _ hclosing ih | group hopening _ hclosing ih =>
    exact .bracketed hopening rfl hclosing ih
  | nextItem _ hoperator _ ihleft ihright | raised _ hoperator _ ihleft ihright =>
    rw [← isOneOf_singleton] at hoperator
    exact hjoined ihleft hoperator (by decide) ihright
  | addition _ hoperator _ ihleft ihright | multiplication _ hoperator _ ihleft ihright =>
    exact hjoined ihleft hoperator (by decide) ihright
  | sign hsign _ ih => exact hjoined .nil hsign (by decide) ih
  | operand hoperand => exact .plain (not_isBracket_of_isOperand hoperand)
  | emptyCall hfunction hopening hclosing =>
    exact .append (.plain (not_isBracket_of_isOperand hfunction))
      (.bracketed hopening rfl hclosing .nil)
  | call hfunction hopening _ hclosing ih =>
    exact .append (.plain (not_isBracket_of_isOperand hfunction))
      (.bracketed hopening rfl hclosing ih)
  | expression _ ih | item _ ih | sum _ ih | product _ ih | unary _ ih | power _ ih
  | primary _ ih => exact ih

theorem DerivesStatement.nested {weights : List Nat} {tokens : List Token} {node : Node}
    (h : DerivesStatement weights tokens node) : Nested tokens := by
  cases h with
  | relation hderives hlines =>
    exact .append hderives.nested
      (nested_of_forall_plain fun line hmem ↦ not_isBracket_of_isNewLine (hlines line hmem))
  | empty _ hlines =>
    exact nested_of_forall_plain fun line hmem ↦ not_isBracket_of_isNewLine (hlines line hmem)

/-! ### Refused phrases -/

/-- Whether an error that asks for a closing bracket asks for the one of the innermost bracket left
open by the tokens, in the rule that this bracket belongs to. -/
def NamesInnermost (tokens : List Token) (error : ParseError) : Prop :=
  ∀ closer, error.expected = .delimiter closer → ∃ outer opener,
    InnermostOpen outer opener tokens ∧ opener.closing? = some closer ∧
    error.rule = .ofBracket opener outer.getLast?

section

variable {limit levels : Nat} {goal : Goal} {tokens before : List Token} {error : ParseError}
  {opening : Token} {opener : Operator}

/-- More tokens in front of the open bracket change nothing, unless they make a call of a group. -/
theorem NamesInnermost.behind (h : NamesInnermost tokens error) (hbefore : Opened before)
    (hlast : (tokens.headD error.token).is .leftParen →
      ∀ last ∈ before.getLast?, ¬ last.kind.isOperand) :
    NamesInnermost (before ++ tokens) error := by
  intro closer hexpected
  obtain ⟨outer, opener, hinnermost, hcloser, hrule⟩ := h closer hexpected
  obtain ⟨houter, hopening, hopens, hinner⟩ := hinnermost
  refine ⟨before ++ outer, opener, ?_, hcloser, ?_⟩
  · rw [← List.append_assoc]
    exact .intro (hbefore.append houter) hopening hopens hinner
  · match outer with
    | [] =>
      rw [List.append_nil, hrule]
      exact (Rule.ofBracket_of_not_isOperand (fun hparen ↦ hlast (hparen ▸ hopening)) hopens).symm
    | first :: rest => rw [List.getLast?_append_of_ne_nil _ (List.cons_ne_nil first rest), hrule]

/-- What is refused behind an operator. -/
theorem NamesInnermost.joined (h : NamesInnermost tokens error) (hbefore : Nested before)
    {operator : Token} {operators : List Operator} (hoperator : operator.isOneOf operators)
    (hoperators : ∀ operator ∈ operators, ¬ (operator.opens || operator.closes)) :
    NamesInnermost (before ++ operator :: tokens) error := by
  rw [List.append_cons]
  refine h.behind (.nested (.append hbefore
    (.plain (not_isBracket_of_isOneOf hoperator hoperators)))) fun _ last hlast ↦ ?_
  rw [List.getLast?_concat, Option.mem_some] at hlast
  obtain ⟨symbol, -, hkind⟩ := (isOneOf_iff operator operators).mp hoperator
  exact hlast ▸ not_isOperand_of_is ((is_iff operator symbol).mpr hkind)

/-- What is refused inside of a bracket. -/
theorem NamesInnermost.inside (h : NamesInnermost tokens error) (hbefore : Nested before)
    (hopening : opening.is opener) (hopens : opener.opens) :
    NamesInnermost (before ++ opening :: tokens) error := by
  rw [List.append_cons]
  refine h.behind (.opening (.nested hbefore) hopening hopens .nil) fun _ last hlast ↦ ?_
  rw [List.getLast?_concat, Option.mem_some] at hlast
  exact hlast ▸ not_isOperand_of_is hopening

/-- What is refused where a bracket has to be closed. -/
theorem namesInnermost_of_nested {rule : Rule} {closer : Operator} {next : Token}
    (hbefore : Nested before) (hopening : opening.is opener)
    (hcloser : opener.closing? = some closer)
    (hopens : opener.opens) (hinner : Nested tokens)
    (hrule : rule = .ofBracket opener before.getLast?) :
    NamesInnermost (before ++ opening :: tokens) (.unexpected rule (.delimiter closer) next) := by
  rintro _ ⟨⟩
  exact ⟨before, opener, .intro (.nested hbefore) hopening hopens hinner, hcloser, hrule⟩

/-- The induction is on the rules that are still being read: each of them opens at most one bracket,
and the last one refuses the token. -/
theorem Stuck.namesInnermost (h : Stuck limit goal levels tokens error) :
    NamesInnermost tokens error := by
  induction h with
  | comparison | expressionLimit | unaryLimit | operand => exact fun _ hexpected ↦ nomatch hexpected
  | right hleft _ hoperator _ ih =>
    exact ih.joined hleft.nested (isOneOf_comparisons hoperator) (by decide)
  | nextItem hleft _ hoperator _ ih | raised hleft _ hoperator _ ih =>
    rw [← isOneOf_singleton] at hoperator
    exact ih.joined hleft.nested hoperator (by decide)
  | addition hleft _ hoperator _ ih | multiplication hleft _ hoperator _ ih =>
    exact ih.joined hleft.nested hoperator (by decide)
  | sign hsign _ ih => exact ih.joined .nil hsign (by decide)
  | setItems hopening _ ih | vectorItems hopening _ ih | group hopening _ ih =>
    exact ih.inside .nil hopening rfl
  | setEnd hopening hinner | vectorEnd hopening hinner | groupEnd hopening hinner =>
    exact namesInnermost_of_nested .nil hopening rfl rfl hinner.nested rfl
  | arguments hfunction hopening _ _ ih =>
    exact ih.inside (.plain (not_isBracket_of_isOperand hfunction)) hopening rfl
  | callEnd hfunction hopening hitems =>
    exact namesInnermost_of_nested (.plain (not_isBracket_of_isOperand hfunction)) hopening rfl rfl
      hitems.nested (if_pos hfunction).symm
  | left _ ih | item _ ih | sum _ ih | product _ ih | power _ ih => exact ih
  | expression _ _ ih | unary _ _ ih | primary _ _ ih => exact ih

/-- Apart from closing brackets, what errors ask for and where. -/
theorem Stuck.listed (h : Stuck limit goal levels tokens error) :
    (error.code = .unexpectedToken ∧ ∃ closer, error.expected = .delimiter closer) ∨
      (error.code, error.rule, error.expected) ∈
        [(.unexpectedToken, .relation, .relationalOperator),
          (.unexpectedToken, .expression, .operand),
          (.nestingTooDeep, .expression, .nestingDepth limit)] := by
  induction h with
  | setEnd | vectorEnd | groupEnd | callEnd => exact .inl ⟨rfl, _, rfl⟩
  | comparison | expressionLimit | unaryLimit | operand =>
    exact .inr (by simp [ParseError.unexpected, ParseError.nestingTooDeep])
  | left _ ih | right _ _ _ _ ih | nextItem _ _ _ _ ih | raised _ _ _ _ ih | addition _ _ _ _ ih
  | multiplication _ _ _ _ ih | sign _ _ ih | setItems _ _ ih | vectorItems _ _ ih | group _ _ ih
  | arguments _ _ _ _ ih | item _ ih | sum _ ih | product _ ih | power _ ih | expression _ _ ih
  | unary _ _ ih | primary _ _ ih => exact ih

/-- A rule does not ask for the token that it refuses. A call on its own would be refused before a
parenthesis, but a primary reads that as a group. -/
theorem Stuck.not_describes (h : Stuck limit goal levels tokens error)
    (hgoal : goal = .call → ¬ (tokens.headD error.token).is .leftParen) :
    ¬ error.expected.Describes error.token := by
  induction h with
  | comparison _ _ _ hoperator => exact hoperator
  | setEnd _ _ _ _ hnext | vectorEnd _ _ _ _ hnext | groupEnd _ _ _ _ hnext
  | callEnd _ _ _ _ _ hnext => exact hnext
  | expressionLimit | unaryLimit => exact not_false
  | operand hoperand => exact not_or.mpr ⟨hoperand, hgoal rfl⟩
  | primary hparen _ ih => exact ih fun _ ↦ hparen
  | left _ ih | right _ _ _ _ ih | nextItem _ _ _ _ ih | raised _ _ _ _ ih | addition _ _ _ _ ih
  | multiplication _ _ _ _ ih | sign _ _ ih | setItems _ _ ih | vectorItems _ _ ih | group _ _ ih
  | arguments _ _ _ _ ih | item _ ih | sum _ ih | product _ ih | power _ ih | expression _ _ ih
  | unary _ _ ih => exact ih nofun

/-! ### Refused programs -/

/-- A statement whose last token is a name or a number does not end before a parenthesis. -/
theorem Taken.notCalled {weights : List Nat} {node : Node} {next : Token}
    (h : Taken weights tokens node next) (hnext : next.is .leftParen) :
    ∀ last ∈ tokens.getLast?, ¬ last.kind.isOperand := by
  have hline {line : Token} (hline : line.isNewLine) : ¬ line.kind.isOperand := by
    rw [(isNewLine_iff line).mp hline]
    exact Bool.false_ne_true
  intro last hlast
  cases h with
  | @relation _ _ lines _ _ _ hlines hends _ =>
    match lines with
    | [] =>
      rw [List.append_nil] at hlast
      exact hends.notCalled hnext last hlast
    | line :: more =>
      rw [List.getLast?_append_of_ne_nil _ (List.cons_ne_nil line more)] at hlast
      exact hline (hlines last (List.mem_of_mem_getLast? hlast))
  | empty _ hlines _ => exact hline (hlines last (List.mem_of_mem_getLast? hlast))

theorem StuckProgram.namesInnermost (h : StuckProgram limit tokens error) :
    NamesInnermost tokens error := by
  induction h with
  | here _ _ h => exact h.namesInnermost
  | later htaken _ _ ih => exact ih.behind (.nested htaken.derives.nested) htaken.notCalled

/-- Where a program is refused, a relation is. -/
theorem StuckProgram.exists_stuck (h : StuckProgram limit tokens error) :
    ∃ inner, Stuck limit .relation limit inner error := by
  induction h with
  | here _ _ h => exact ⟨_, h⟩
  | later _ _ _ ih => exact ih

end

end Grammar

open Parse

/-- An error that asks for a closing bracket names the innermost bracket that the tokens in front of
it leave open. Every other error asks for a comparison between two expressions, for an operand or
for less nesting, where only the last is reported as such. None asks for the token that it has
found. -/
theorem parse_error_innermost (source : String) (error : ParseError)
    (h : parse source = .error (.grammatical error)) :
    ∃ before after, (TokenStream.ofSource source).yielded = before ++ error.token :: after ∧
      error.token ∉ before ∧
      (∀ closer, error.expected = .delimiter closer → ∃ outer opener,
        InnermostOpen outer opener before ∧ opener.closing? = some closer ∧
        error.rule = .ofBracket opener outer.getLast?) ∧
      ((∀ closer, error.expected ≠ .delimiter closer) → (error.rule, error.expected) ∈
        [(.relation, .relationalOperator), (.expression, .operand),
          (.expression, .nestingDepth 256)]) ∧
      (error.code = .nestingTooDeep ↔ error.expected = .nestingDepth 256) ∧
      ¬ error.expected.Describes error.token := by
  obtain ⟨before, after, hyielded, -, hstuck⟩ := exists_stuckProgram_of_parseWithin h
  obtain ⟨inner, hrelation⟩ := hstuck.exists_stuck
  refine ⟨before, after, hyielded, not_mem_of_yielded hyielded, hstuck.namesInnermost, ?_, ?_,
    hrelation.not_describes nofun⟩
  · intro hother
    rcases hrelation.listed with ⟨-, closer, hexpected⟩ | hlisted
    · exact absurd hexpected (hother closer)
    · exact List.mem_map_of_mem (f := Prod.snd) hlisted
  · rcases hrelation.listed with ⟨hcode, closer, hexpected⟩ | hlisted
    · simp [hcode, hexpected]
    · simp only [List.mem_cons, Prod.mk.injEq, List.not_mem_nil, or_false] at hlisted
      rcases hlisted with ⟨hcode, -, hexpected⟩ | ⟨hcode, -, hexpected⟩ | ⟨hcode, -, hexpected⟩ <;>
        simp [hcode, hexpected, maxNesting]

/-- A call that is not closed, behind a list that is not closed either. -/
theorem parse_error_innermost_call :
    parse "y = [1, f((x)" = .error (.grammatical
      (.unexpected .call (.delimiter .rightParen) (.endOfInput 13))) ∧
    ∃ before outer opener, InnermostOpen outer opener before ∧
      opener.closing? = some .rightParen ∧ .call = Rule.ofBracket opener outer.getLast? := by
  have hparse : parse "y = [1, f((x)" = .error (.grammatical
      (.unexpected .call (.delimiter .rightParen) (.endOfInput 13))) := by cbv
  obtain ⟨before, after, -, -, hnamed, -⟩ := parse_error_innermost _ _ hparse
  obtain ⟨outer, opener, hinnermost, hcloser, hrule⟩ := hnamed .rightParen rfl
  exact ⟨hparse, before, outer, opener, hinnermost, hcloser, hrule⟩

end Formula
