import Formula.Parser.Error
import Formula.Proofs.Lookahead

/-!
# Refused tokens

Where a reader of the grammar that sees one token ahead gets stuck, and what it reports there.
`Stuck limit goal levels tokens error` says that a rule which may open the given number of levels,
of a total limit, reads the tokens and then refuses the token of the error: no phrase of the rule
is complete, and none can go on. Together with `Derives` and `Ends` the relation tells everything
about a rule without mentioning the parser.
-/

set_option autoImplicit false
set_option relaxedAutoImplicit false

namespace Formula.Grammar

/-- `Stuck limit goal levels tokens error` says that a rule reads these tokens and stops at the
token of the error. -/
inductive Stuck (limit : Nat) : Goal → Nat → List Token → ParseError → Prop
  | left {levels : Nat} {tokens : List Token} {error : ParseError} :
      Stuck limit .expression levels tokens error →
      Stuck limit .relation levels tokens error
  | comparison {levels : Nat} {weights : List Nat} {tokens : List Token} {left : Node}
      {next : Token} :
      Derives weights tokens (.expression left) →
      Fits levels .expression weights →
      Ends (.expression left) tokens next →
      ¬ next.kind.isRelational →
      Stuck limit .relation levels tokens (.unexpected .relation .relationalOperator next)
  | right {levels : Nat} {weights : List Nat} {leftTokens tokens : List Token} {left : Node}
      {operator : Token} {error : ParseError} :
      Derives weights leftTokens (.expression left) →
      Fits levels .expression weights →
      operator.kind.isRelational →
      Stuck limit .expression levels tokens error →
      Stuck limit .relation levels (leftTokens ++ operator :: tokens) error
  | expressionLimit (next : Token) :
      Stuck limit .expression 0 [] (.nestingTooDeep .expression limit next)
  | setItems {levels : Nat} {tokens : List Token} {opening : Token} {error : ParseError} :
      opening.is .leftCurly →
      Stuck limit .items levels tokens error →
      Stuck limit .expression (levels + 1) (opening :: tokens) error
  | setEnd {levels : Nat} {weights : List Nat} {tokens : List Token} {elements : List Node}
      {opening next : Token} :
      opening.is .leftCurly →
      Derives weights tokens (.items elements) →
      Fits levels .items weights →
      Ends (.items elements) tokens next →
      ¬ next.is .rightCurly →
      Stuck limit .expression (levels + 1) (opening :: tokens)
        (.unexpected .set (.delimiter .rightCurly) next)
  | vectorItems {levels : Nat} {tokens : List Token} {opening : Token} {error : ParseError} :
      opening.is .leftSquare →
      Stuck limit .items levels tokens error →
      Stuck limit .expression (levels + 1) (opening :: tokens) error
  | vectorEnd {levels : Nat} {weights : List Nat} {tokens : List Token} {elements : List Node}
      {opening next : Token} :
      opening.is .leftSquare →
      Derives weights tokens (.items elements) →
      Fits levels .items weights →
      Ends (.items elements) tokens next →
      ¬ next.is .rightSquare →
      Stuck limit .expression (levels + 1) (opening :: tokens)
        (.unexpected .vector (.delimiter .rightSquare) next)
  | expression {levels : Nat} {tokens : List Token} {error : ParseError} :
      ¬ (tokens.headD error.token).isOneOf [.leftCurly, .leftSquare] →
      Stuck limit .sum levels tokens error →
      Stuck limit .expression (levels + 1) tokens error
  | item {levels : Nat} {tokens : List Token} {error : ParseError} :
      Stuck limit .expression levels tokens error →
      Stuck limit .items levels tokens error
  | nextItem {levels : Nat} {weights : List Nat} {firstTokens tokens : List Token} {first : Node}
      {comma : Token} {error : ParseError} :
      Derives weights firstTokens (.expression first) →
      Fits levels .expression weights →
      comma.is .comma →
      Stuck limit .items levels tokens error →
      Stuck limit .items levels (firstTokens ++ comma :: tokens) error
  | sum {levels : Nat} {tokens : List Token} {error : ParseError} :
      Stuck limit .product levels tokens error →
      Stuck limit .sum levels tokens error
  | addition {levels : Nat} {weights : List Nat} {leftTokens tokens : List Token} {left : Node}
      {operator : Token} {error : ParseError} :
      Derives weights leftTokens (.sum left) →
      Fits levels .sum weights →
      operator.isOneOf [.plus, .minus] →
      Stuck limit .product levels tokens error →
      Stuck limit .sum levels (leftTokens ++ operator :: tokens) error
  | product {levels : Nat} {tokens : List Token} {error : ParseError} :
      Stuck limit .unary levels tokens error →
      Stuck limit .product levels tokens error
  | multiplication {levels : Nat} {weights : List Nat} {leftTokens tokens : List Token}
      {left : Node} {operator : Token} {error : ParseError} :
      Derives weights leftTokens (.product left) →
      Fits levels .product weights →
      operator.isOneOf [.multiply, .divide] →
      Stuck limit .unary levels tokens error →
      Stuck limit .product levels (leftTokens ++ operator :: tokens) error
  | unaryLimit (next : Token) :
      Stuck limit .unary 0 [] (.nestingTooDeep .expression limit next)
  | sign {levels : Nat} {tokens : List Token} {sign : Token} {error : ParseError} :
      sign.isOneOf [.plus, .minus] →
      Stuck limit .unary levels tokens error →
      Stuck limit .unary (levels + 1) (sign :: tokens) error
  | unary {levels : Nat} {tokens : List Token} {error : ParseError} :
      ¬ (tokens.headD error.token).isOneOf [.plus, .minus] →
      Stuck limit .power levels tokens error →
      Stuck limit .unary (levels + 1) tokens error
  | power {levels : Nat} {tokens : List Token} {error : ParseError} :
      Stuck limit .primary levels tokens error →
      Stuck limit .power levels tokens error
  | raised {levels : Nat} {weights : List Nat} {baseTokens tokens : List Token} {base : Node}
      {operator : Token} {error : ParseError} :
      Derives weights baseTokens (.primary base) →
      Fits levels .primary weights →
      operator.is .power →
      Stuck limit .unary levels tokens error →
      Stuck limit .power levels (baseTokens ++ operator :: tokens) error
  | group {levels : Nat} {tokens : List Token} {opening : Token} {error : ParseError} :
      opening.is .leftParen →
      Stuck limit .sum levels tokens error →
      Stuck limit .primary levels (opening :: tokens) error
  | groupEnd {levels : Nat} {weights : List Nat} {tokens : List Token} {inner : Node}
      {opening next : Token} :
      opening.is .leftParen →
      Derives weights tokens (.sum inner) →
      Fits levels .sum weights →
      Ends (.sum inner) tokens next →
      ¬ next.is .rightParen →
      Stuck limit .primary levels (opening :: tokens)
        (.unexpected .expression (.delimiter .rightParen) next)
  | primary {levels : Nat} {tokens : List Token} {error : ParseError} :
      ¬ (tokens.headD error.token).is .leftParen →
      Stuck limit .call levels tokens error →
      Stuck limit .primary levels tokens error
  | operand {levels : Nat} {next : Token} :
      ¬ next.kind.isOperand →
      Stuck limit .call levels [] (.unexpected .expression .operand next)
  | arguments {levels : Nat} {tokens : List Token} {function opening : Token}
      {error : ParseError} :
      function.kind.isOperand →
      opening.is .leftParen →
      ¬ (tokens.headD error.token).is .rightParen →
      Stuck limit .items levels tokens error →
      Stuck limit .call levels (function :: opening :: tokens) error
  | callEnd {levels : Nat} {weights : List Nat} {tokens : List Token} {arguments : List Node}
      {function opening next : Token} :
      function.kind.isOperand →
      opening.is .leftParen →
      Derives weights tokens (.items arguments) →
      Fits levels .items weights →
      Ends (.items arguments) tokens next →
      ¬ next.is .rightParen →
      Stuck limit .call levels (function :: opening :: tokens)
        (.unexpected .call (.delimiter .rightParen) next)

/-- The tokens in front of a refused one stand inside of a phrase. -/
theorem Stuck.isInner {limit levels : Nat} {goal : Goal} {tokens : List Token} {error : ParseError}
    (h : Stuck limit goal levels tokens error) : ∀ token ∈ tokens, token.IsInner := by
  have hjoined {left right : List Token} {operator : Token} {weights : List Nat} {phrase : Phrase}
      (hleft : Derives weights left phrase) (hoperator : operator.IsInner)
      (hright : ∀ token ∈ right, token.IsInner) :
      ∀ token ∈ left ++ operator :: right, token.IsInner :=
    List.forall_mem_append.mpr ⟨hleft.isInner, List.forall_mem_cons.mpr ⟨hoperator, hright⟩⟩
  induction h with
  | expressionLimit | unaryLimit | operand => exact List.forall_mem_nil _
  | comparison hleft => exact hleft.isInner
  | right hleft _ hoperator _ ih => exact hjoined hleft (Token.isInner_of_isRelational hoperator) ih
  | nextItem hleft _ hoperator _ ih | raised hleft _ hoperator _ ih =>
    exact hjoined hleft (Token.isInner_of_is hoperator) ih
  | addition hleft _ hoperator _ ih | multiplication hleft _ hoperator _ ih =>
    exact hjoined hleft (Token.isInner_of_isOneOf hoperator) ih
  | setItems hopening _ ih | vectorItems hopening _ ih | group hopening _ ih =>
    exact List.forall_mem_cons.mpr ⟨Token.isInner_of_is hopening, ih⟩
  | setEnd hopening hinner | vectorEnd hopening hinner | groupEnd hopening hinner =>
    exact List.forall_mem_cons.mpr ⟨Token.isInner_of_is hopening, hinner.isInner⟩
  | sign hsign _ ih => exact List.forall_mem_cons.mpr ⟨Token.isInner_of_isOneOf hsign, ih⟩
  | arguments hfunction hopening _ _ ih =>
    exact List.forall_mem_cons.mpr ⟨.inl hfunction,
      List.forall_mem_cons.mpr ⟨Token.isInner_of_is hopening, ih⟩⟩
  | callEnd hfunction hopening hitems =>
    exact List.forall_mem_cons.mpr ⟨.inl hfunction,
      List.forall_mem_cons.mpr ⟨Token.isInner_of_is hopening, hitems.isInner⟩⟩
  | left _ ih | item _ ih | sum _ ih | product _ ih | power _ ih => exact ih
  | expression _ _ ih | unary _ _ ih | primary _ _ ih => exact ih

/-! ### Statements -/

/-- A statement that is made of the tokens and ends before the next one: it takes every line end
there is. -/
inductive Taken : List Nat → List Token → Node → Token → Prop
  | relation {weights : List Nat} {tokens lines : List Token} {node : Node} {next : Token} :
      Derives weights tokens (.relation node) →
      (∀ line ∈ lines, line.isNewLine) →
      Ends (.relation node) tokens (lines.headD next) →
      ¬ next.isNewLine →
      Taken weights (tokens ++ lines) node next
  | empty {lines : List Token} {next : Token} :
      lines ≠ [] →
      (∀ line ∈ lines, line.isNewLine) →
      ¬ next.isNewLine →
      Taken [] lines .empty next

/-- A list of statements each of which ends before the next one, the last before the token behind
them all. -/
inductive TakenAll : List Statement → Token → Prop
  | nil (next : Token) : TakenAll [] next
  | cons {statement : Statement} {others : List Statement} {next : Token} :
      Taken statement.weights statement.tokens statement.node ((tokensOf others).headD next) →
      TakenAll others next →
      TakenAll (statement :: others) next

/-- `StuckProgram limit tokens error` says that a reader of statements that may open a number of
levels reads these tokens and refuses the token of the error. -/
inductive StuckProgram (limit : Nat) : List Token → ParseError → Prop
  | here {tokens : List Token} {error : ParseError} :
      ¬ (tokens.headD error.token).isEndOfInput →
      ¬ (tokens.headD error.token).isNewLine →
      Stuck limit .relation limit tokens error →
      StuckProgram limit tokens error
  | later {weights : List Nat} {tokens more : List Token} {node : Node} {error : ParseError} :
      Taken weights tokens node (more.headD error.token) →
      Fits limit .relation weights →
      StuckProgram limit more error →
      StuckProgram limit (tokens ++ more) error

theorem headD_append {α : Type} (before after : List α) (next : α) :
    (before ++ after).headD next = before.headD (after.headD next) := by
  cases before <;> rfl

theorem headD_append_cons {α : Type} (before : List α) (token : α) (after : List α) (next : α) :
    (before ++ token :: after).headD next = before.headD token :=
  headD_append before (token :: after) next

theorem Taken.derives {weights : List Nat} {tokens : List Token} {node : Node} {next : Token}
    (h : Taken weights tokens node next) : DerivesStatement weights tokens node := by
  cases h with
  | relation hderives hlines _ _ => exact .relation hderives hlines
  | empty hnonempty hlines _ => exact .empty hnonempty hlines

theorem Taken.not_isNewLine {weights : List Nat} {tokens : List Token} {node : Node} {next : Token}
    (h : Taken weights tokens node next) : ¬ next.isNewLine := by
  cases h with
  | relation _ _ _ hnext => exact hnext
  | empty _ _ hnext => exact hnext

/-- Statements that end before each other still do so when each of them is changed, if the change
can be made for every statement on its own. -/
theorem TakenAll.exists_image {change : List Token → List Token} {relabel : Token → Token}
    {changeNode : Node → Node} (hnil : change [] = [])
    (happend : ∀ tokens rest next, ¬ (rest.headD next).isNewLine →
      change (tokens ++ rest) = change tokens ++ change rest)
    (hhead : ∀ tokens next, (change tokens).headD (relabel next) = relabel (tokens.headD next))
    (htaken : ∀ {weights tokens node next}, Taken weights tokens node next →
      Taken weights (change tokens) (changeNode node) (relabel next))
    {statements : List Statement} {next : Token} (h : TakenAll statements next) :
    ∃ image : List Statement, tokensOf image = change (tokensOf statements) ∧
      weightsOf image = weightsOf statements ∧
      image.map Statement.node = (statements.map Statement.node).map changeNode ∧
      TakenAll image (relabel next) := by
  induction h with
  | nil next => exact ⟨[], hnil.symm, rfl, rfl, .nil _⟩
  | @cons statement others next hfirst _ ih =>
    obtain ⟨image, htokens, hweights, hnodes, himage⟩ := ih
    have hchanged := htaken hfirst
    refine ⟨⟨_, _, _, hchanged.derives⟩ :: image, ?_, ?_, ?_, .cons ?_ himage⟩
    · rw [tokensOf_cons, tokensOf_cons, htokens, happend _ _ _ hfirst.not_isNewLine]
    · rw [weightsOf_cons, weightsOf_cons, hweights]
    · rw [List.map_cons, List.map_cons, List.map_cons, hnodes]
    · rw [htokens, hhead]
      exact hchanged

theorem DerivesStatement.ne_nil {weights : List Nat} {tokens : List Token} {node : Node}
    (h : DerivesStatement weights tokens node) : tokens ≠ [] := by
  cases h with
  | relation hderives _ => exact List.append_ne_nil_of_left_ne_nil hderives.ne_nil _
  | empty hnonempty _ => exact hnonempty

/-- A statement takes its tokens if it ends in a line end, or if every phrase ends before the next
token. -/
theorem DerivesStatement.taken {weights : List Nat} {tokens : List Token} {node : Node}
    {next : Token} (h : DerivesStatement weights tokens node)
    (hends : (∃ last ∈ tokens.getLast?, last.isNewLine) ∨ Stops next) (hnext : ¬ next.isNewLine) :
    Taken weights tokens node next := by
  cases h with
  | @relation _ tokens lines _ hderives hlines =>
    refine .relation hderives hlines ?_ hnext
    match lines with
    | [] =>
      rw [List.append_nil] at hends
      rcases hends with ⟨last, hlast, hline⟩ | hstops
      · exact absurd hline (hderives.isInner last (List.mem_of_mem_getLast? hlast)).not_isNewLine
      · exact hstops.ends _ _
    | line :: more => exact (stops_of_isNewLine (hlines line List.mem_cons_self)).ends _ _
  | empty hnonempty hlines => exact .empty hnonempty hlines hnext

theorem TakenAll.append {first second : List Statement} {next : Token}
    (hfirst : TakenAll first ((tokensOf second).headD next)) (hsecond : TakenAll second next) :
    TakenAll (first ++ second) next := by
  generalize hmiddle : (tokensOf second).headD next = middle at hfirst
  induction hfirst with
  | nil => exact hsecond
  | cons htaken _ ih =>
    refine .cons ?_ (ih hmiddle)
    change Taken _ _ _ ((tokensOf (_ ++ second)).headD next)
    rwa [tokensOf_append, headD_append, hmiddle]

theorem StuckProgram.append {limit : Nat} {statements : List Statement} {tokens : List Token}
    {error : ParseError} (h : StuckProgram limit tokens error)
    (hstatements : TakenAll statements (tokens.headD error.token))
    (hfits : Fits limit .relation (weightsOf statements)) :
    StuckProgram limit (tokensOf statements ++ tokens) error := by
  generalize hmiddle : tokens.headD error.token = middle at hstatements
  induction hstatements with
  | nil => exact h
  | cons htaken _ ih =>
    rw [weightsOf_cons] at hfits
    obtain ⟨hfirst, hothers⟩ := List.forall_mem_append.mp hfits
    rw [tokensOf_cons, List.append_assoc]
    rw [← hmiddle, ← headD_append] at htaken
    exact .later htaken hfirst (ih hothers hmiddle)

/-- The statement of a relation without line ends after it. -/
def Statement.ofRelation {weights : List Nat} {tokens : List Token} {node : Node}
    (h : Derives weights tokens (.relation node)) : Statement where
  weights := weights
  tokens := tokens
  node := node
  derives := List.append_nil tokens ▸ .relation h (List.forall_mem_nil _)

theorem tokensOf_ofRelation {weights : List Nat} {tokens : List Token} {node : Node}
    (h : Derives weights tokens (.relation node)) : tokensOf [Statement.ofRelation h] = tokens :=
  List.flatMap_singleton _ _

theorem weightsOf_ofRelation {weights : List Nat} {tokens : List Token} {node : Node}
    (h : Derives weights tokens (.relation node)) : weightsOf [Statement.ofRelation h] = weights :=
  List.flatMap_singleton _ _

/-- A relation is taken where its phrase ends. -/
theorem takenAll_ofRelation_of_ends {weights : List Nat} {tokens : List Token} {node : Node}
    (h : Derives weights tokens (.relation node)) {next : Token}
    (hends : Ends (.relation node) tokens next) (hnext : ¬ next.isNewLine) :
    TakenAll [Statement.ofRelation h] next := by
  have htaken := Taken.relation h (List.forall_mem_nil _) hends hnext
  rw [List.append_nil] at htaken
  exact .cons htaken (.nil next)

/-- A single relation ends before the token that closes a source. -/
theorem takenAll_ofRelation {weights : List Nat} {tokens : List Token} {node : Node}
    (h : Derives weights tokens (.relation node)) {closing : Token}
    (hclosing : closing.isEndOfInput) : TakenAll [Statement.ofRelation h] closing :=
  takenAll_ofRelation_of_ends h ((stops_of_isEndOfInput hclosing).ends _ _) (by simp_all)

end Formula.Grammar
