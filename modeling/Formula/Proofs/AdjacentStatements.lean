import Formula.Proofs.Layout
import Formula.Proofs.Nesting

/-!
# Statements without a line end between them

Line ends between statements are optional, so the beginning of a statement may be read as more of
the one in front of it. `RunsOn` says when this happens: a sign goes on with a sum, and a
parenthesis makes a call of a name or a number. In every other case the first relation ends before
the second one (`ends_of_not_runsOn`). Where it runs on, the left side of the second relation is
swallowed as a whole, because a sum stays a sum with a call, a power, a factor or an addend at its
end (`Forms.append`), and what is left begins with a comparison, with which no statement begins
(`exists_stuckProgram_of_runsOn`).
-/

set_option autoImplicit false
set_option relaxedAutoImplicit false

namespace Formula

open Grammar Parse

namespace Token

theorem not_isOneOf_of_isOneOf {token : Token} {operators others : List Operator}
    (h : token.isOneOf operators) (hothers : ∀ operator ∈ operators, operator ∉ others) :
    ¬ token.isOneOf others := by
  intro hother
  obtain ⟨operator, hmem, hkind⟩ := (isOneOf_iff _ _).mp h
  obtain ⟨other, hotherMem, hotherKind⟩ := (isOneOf_iff _ _).mp hother
  rw [hkind, TokenKind.operator.injEq] at hotherKind
  exact hothers operator hmem (hotherKind ▸ hotherMem)

theorem not_is_of_isOneOf {token : Token} {operators : List Operator} {other : Operator}
    (h : token.isOneOf operators) (hother : other ∉ operators) : ¬ token.is other := by
  rw [← isOneOf_singleton]
  exact not_isOneOf_of_isOneOf h fun operator hmem hequal ↦
    hother (List.mem_singleton.mp hequal ▸ hmem)

theorem not_isOperand_of_isOneOf {token : Token} {operators : List Operator}
    (h : token.isOneOf operators) : ¬ token.kind.isOperand := by
  obtain ⟨operator, -, hkind⟩ := (isOneOf_iff _ _).mp h
  exact not_isOperand_of_is ((is_iff _ _).mpr hkind)

end Token

namespace Grammar

/-- Whether a token behind a relation with the given tokens and right side is read as more of it. -/
def RunsOn (tokens : List Token) (right : Node) (next : Token) : Prop :=
  (next.isOneOf [.plus, .minus] ∧ ¬ isContainer right) ∨
    (next.is .leftParen ∧ ∃ last ∈ tokens.getLast?, last.kind.isOperand)

theorem RunsOn.isOneOf {tokens : List Token} {right : Node} {next : Token}
    (h : RunsOn tokens right next) : next.isOneOf [.plus, .minus, .leftParen] := by
  rcases h with ⟨hsign, -⟩ | ⟨hparen, -⟩
  · exact Token.isOneOf_of_subset hsign (by decide)
  · rw [← Token.isOneOf_singleton] at hparen
    exact Token.isOneOf_of_subset hparen (by decide)

/-- What stands in front of the last part of a relation does not matter. -/
theorem RunsOn.last {before tokens : List Token} {token next : Token} {right : Node}
    (h : RunsOn (before ++ token :: tokens) right next) (htokens : tokens ≠ []) :
    RunsOn tokens right next := by
  rwa [RunsOn, List.append_cons, List.getLast?_append_of_ne_nil _ htokens] at h

theorem RunsOn.exists_operand {tokens : List Token} {right : Node} {next : Token}
    (h : RunsOn tokens right next) (hnext : next.is .leftParen) :
    ∃ last ∈ tokens.getLast?, last.kind.isOperand := by
  rcases h with ⟨hsign, -⟩ | ⟨-, hlast⟩
  · exact absurd hnext (Token.not_is_of_isOneOf hsign (by decide))
  · exact hlast

/-- A relation ends before the first token of another one, unless it runs on. -/
theorem ends_of_not_runsOn {tokens : List Token} {left right : Node} {operator : Atom}
    {next : Token} (hnext : Goal.relation.Starts next) (hruns : ¬ RunsOn tokens right next) :
    Ends (.relation (.relation left operator right)) tokens next where
  notContinued := by
    rw [Phrase.continuations, chainsAfter]
    split
    · simp
    · next hcontainer =>
      have hsign : ¬ next.isOneOf [.plus, .minus] := fun h ↦ hruns (.inl ⟨h, hcontainer⟩)
      have hchain := hnext.not_isOneOf [.multiply, .divide, .power] (by decide)
      simp only [Token.isOneOf, List.any_cons, List.any_nil] at hsign hchain ⊢
      simp_all
  notCalled := by
    intro hparen last hlast hoperand
    exact hruns (.inr ⟨hparen, last, hlast, hoperand⟩)

/-! ### Longer sums -/

/-- Whether tokens make up a phrase of a rule that yields one tree. -/
def Forms (rule : Node → Phrase) (tokens : List Token) : Prop :=
  ∃ weights node, Derives weights tokens (rule node)

/-- Whether tokens end in a primary in the place of which every power can stand. -/
def EndsInPrimary (rule : Node → Phrase) (tokens : List Token) : Prop :=
  ∃ before last, tokens = before ++ last ∧ Forms .primary last ∧
    ∀ power, Forms .power power → Forms rule (before ++ power)

theorem EndsInPrimary.lift {rule outer : Node → Phrase} {tokens whole : List Token}
    (h : EndsInPrimary rule tokens) (before : List Token) (hwhole : whole = before ++ tokens)
    (hlift : ∀ more, Forms rule more → Forms outer (before ++ more)) :
    EndsInPrimary outer whole := by
  obtain ⟨front, last, rfl, hlast, hreplace⟩ := h
  refine ⟨before ++ front, last, by rw [hwhole, List.append_assoc], hlast, fun power hpower ↦ ?_⟩
  rw [List.append_assoc]
  exact hlift _ (hreplace power hpower)

/-- Whether the tokens of a phrase in a chain of operators end in a primary. -/
def Phrase.EndsInPrimary (tokens : List Token) : Phrase → Prop
  | .sum _ => Grammar.EndsInPrimary .sum tokens
  | .product _ => Grammar.EndsInPrimary .product tokens
  | .unary _ => Grammar.EndsInPrimary .unary tokens
  | .power _ => Grammar.EndsInPrimary .power tokens
  | _ => True

theorem Derives.endsInPrimary {weights : List Nat} {tokens : List Token} {phrase : Phrase}
    (h : Derives weights tokens phrase) : phrase.EndsInPrimary tokens := by
  induction h with
  | sum _ ih => exact ih.lift [] rfl fun _ ⟨_, _, hproduct⟩ ↦ ⟨_, _, .sum hproduct⟩
  | addition hleft hoperator _ _ ih =>
    refine ih.lift (_ ++ [_]) (List.append_cons _ _ _) fun more ⟨_, _, hproduct⟩ ↦ ?_
    rw [← List.append_cons]
    exact ⟨_, _, .addition hleft hoperator hproduct⟩
  | product _ ih => exact ih.lift [] rfl fun _ ⟨_, _, hunary⟩ ↦ ⟨_, _, .product hunary⟩
  | multiplication hleft hoperator _ _ ih =>
    refine ih.lift (_ ++ [_]) (List.append_cons _ _ _) fun more ⟨_, _, hunary⟩ ↦ ?_
    rw [← List.append_cons]
    exact ⟨_, _, .multiplication hleft hoperator hunary⟩
  | sign hsign _ ih => exact ih.lift [_] rfl fun _ ⟨_, _, hunary⟩ ↦ ⟨_, _, .sign hsign hunary⟩
  | unary _ ih => exact ih.lift [] rfl fun _ ⟨_, _, hpower⟩ ↦ ⟨_, _, .unary hpower⟩
  | @power _ tokens _ hprimary => exact ⟨[], tokens, rfl, ⟨_, _, hprimary⟩, fun _ hpower ↦ hpower⟩
  | raised hbase hoperator _ _ ih =>
    refine ih.lift (_ ++ [_]) (List.append_cons _ _ _) fun more ⟨_, _, hunary⟩ ↦ ?_
    rw [← List.append_cons]
    exact ⟨_, _, .raised hbase hoperator hunary⟩
  | _ => exact trivial

namespace Forms

variable {tokens inner more : List Token} {operator opening closing : Token}

/-- A call can stand in place of the name or number at the end of a sum. -/
theorem append_group (h : Forms .sum tokens) (hlast : ∃ last ∈ tokens.getLast?, last.kind.isOperand)
    (hopening : opening.is .leftParen) (hinner : Forms .sum inner)
    (hclosing : closing.is .rightParen) :
    Forms .sum (tokens ++ opening :: (inner ++ [closing])) := by
  obtain ⟨_, _, hsum⟩ := h
  obtain ⟨_, _, hargument⟩ := hinner
  obtain ⟨before, last, rfl, ⟨_, _, hprimary⟩, hreplace⟩ := hsum.endsInPrimary
  obtain ⟨token, htoken, hoperand⟩ := hlast
  rw [List.getLast?_append_of_ne_nil _ hprimary.ne_nil] at htoken
  obtain ⟨function, rfl, hfunction⟩ : ∃ function, last = [function] ∧ function.kind.isOperand := by
    cases hprimary with
    | group _ _ hend =>
      rw [← List.cons_append, List.getLast?_concat, Option.mem_some] at htoken
      exact absurd (htoken ▸ hoperand) (Token.not_isOperand_of_is hend)
    | primary hcall =>
      cases hcall with
      | operand hfunction => exact ⟨_, rfl, hfunction⟩
      | emptyCall _ _ hend =>
        obtain rfl := Option.some.inj htoken
        exact absurd hoperand (Token.not_isOperand_of_is hend)
      | call _ _ _ hend =>
        rw [← List.cons_append, ← List.cons_append, List.getLast?_concat, Option.mem_some] at htoken
        exact absurd (htoken ▸ hoperand) (Token.not_isOperand_of_is hend)
  rw [List.append_assoc]
  exact hreplace _ ⟨_, _, .power (.primary (.call hfunction hopening (.item (.expression hargument))
    hclosing))⟩

theorem append_power (h : Forms .sum tokens) (hoperator : operator.is .power)
    (hmore : Forms .unary more) : Forms .sum (tokens ++ operator :: more) := by
  obtain ⟨_, _, hsum⟩ := h
  obtain ⟨_, _, hexponent⟩ := hmore
  obtain ⟨before, last, rfl, ⟨_, _, hprimary⟩, hreplace⟩ := hsum.endsInPrimary
  rw [List.append_assoc]
  exact hreplace _ ⟨_, _, .raised hprimary hoperator hexponent⟩

theorem append_factor (h : Forms .sum tokens) (hoperator : operator.isOneOf [.multiply, .divide])
    (hmore : Forms .unary more) : Forms .sum (tokens ++ operator :: more) := by
  obtain ⟨_, _, hsum⟩ := h
  obtain ⟨_, _, hfactor⟩ := hmore
  cases hsum with
  | sum hproduct => exact ⟨_, _, .sum (.multiplication hproduct hoperator hfactor)⟩
  | addition hleft hplus hproduct =>
    rw [List.append_assoc, List.cons_append]
    exact ⟨_, _, .addition hleft hplus (.multiplication hproduct hoperator hfactor)⟩

theorem append_addend (h : Forms .sum tokens) (hoperator : operator.isOneOf [.plus, .minus])
    (hmore : Forms .product more) : Forms .sum (tokens ++ operator :: more) := by
  obtain ⟨_, _, hsum⟩ := h
  obtain ⟨_, _, hproduct⟩ := hmore
  exact ⟨_, _, .addition hsum hoperator hproduct⟩

/-- A sum with a phrase of a chain behind it is a sum if the first token of the phrase runs on. -/
theorem append {weights : List Nat} {phrase : Phrase} {right : Node} (h : Forms .sum tokens)
    (hmore : Derives weights more phrase) (hphrase : phrase.operand?.isSome)
    (hnext : ∀ next ∈ more.head?, RunsOn tokens right next) : Forms .sum (tokens ++ more) := by
  have hhead {left others : List Token} {leftWeights : List Nat} {leftPhrase : Phrase}
      (hleft : Derives leftWeights left leftPhrase)
      (hall : ∀ next ∈ (left ++ others).head?, RunsOn tokens right next) :
      ∀ next ∈ left.head?, RunsOn tokens right next := by
    rwa [List.head?_append_of_ne_nil _ hleft.ne_nil] at hall
  induction hmore with
  | sum _ ih | product _ ih | unary _ ih | power _ ih | primary _ ih => exact ih rfl hnext
  | addition hleft hoperator hright ihleft =>
    rw [← List.append_assoc]
    exact (ihleft rfl (hhead hleft hnext)).append_addend hoperator ⟨_, _, hright⟩
  | multiplication hleft hoperator hright ihleft =>
    rw [← List.append_assoc]
    exact (ihleft rfl (hhead hleft hnext)).append_factor hoperator ⟨_, _, hright⟩
  | raised hbase hoperator hexponent ihbase =>
    rw [← List.append_assoc]
    exact (ihbase rfl (hhead hbase hnext)).append_power hoperator ⟨_, _, hexponent⟩
  | sign hsign hoperand => exact h.append_addend hsign ⟨_, _, .product hoperand⟩
  | group hopening hinner hclosing =>
    exact h.append_group ((hnext _ rfl).exists_operand hopening) hopening ⟨_, _, hinner⟩ hclosing
  | operand hoperand | emptyCall hoperand | call hoperand =>
    exact absurd hoperand (Token.not_isOperand_of_isOneOf (hnext _ rfl).isOneOf)
  | relation | set | vector | expression | item | nextItem => cases hphrase

end Forms

/-! ### Relations that run on -/

/-- The right side of a relation that runs on is a sum. -/
theorem Derives.forms_sum {weights : List Nat} {tokens : List Token} {node : Node} {next : Token}
    (h : Derives weights tokens (.expression node)) (hruns : RunsOn tokens node next) :
    Forms .sum tokens := by
  have hclosed {inner : List Token} {opening closing : Token} {symbol : Token.Operator}
      {elements : Node} (hclosing : closing.is symbol) (hcontainer : isContainer elements) :
      ¬ RunsOn (opening :: (inner ++ [closing])) elements next := by
    rintro (⟨-, hnot⟩ | ⟨-, last, hlast, hoperand⟩)
    · exact hnot hcontainer
    · rw [← List.cons_append, List.getLast?_concat, Option.mem_some] at hlast
      exact Token.not_isOperand_of_is hclosing (hlast ▸ hoperand)
  cases h with
  | expression hsum => exact ⟨_, _, hsum⟩
  | set _ _ hclosing => exact absurd hruns (hclosed hclosing rfl)
  | vector _ _ hclosing => exact absurd hruns (hclosed hclosing rfl)

/-- No relation begins with a comparison. -/
theorem exists_stuck_of_isRelational (limit levels : Nat) {next : Token}
    (h : next.kind.isRelational) :
    ∃ error, error.token = next ∧ Stuck limit .relation levels [] error := by
  have hone := Token.isOneOf_comparisons h
  have hcontainer : ¬ next.isOneOf [.leftCurly, .leftSquare] :=
    Token.not_isOneOf_of_isOneOf hone (by decide)
  match levels with
  | 0 => exact ⟨_, rfl, .left (.expressionLimit next)⟩
  | 1 =>
    exact ⟨.nestingTooDeep .expression limit next, rfl,
      .left (.expression hcontainer (.sum (.product (.unaryLimit next))))⟩
  | levels + 2 =>
    have hsign : ¬ next.isOneOf [.plus, .minus] := Token.not_isOneOf_of_isOneOf hone (by decide)
    have hparen : ¬ next.is .leftParen := Token.not_is_of_isOneOf hone (by decide)
    have hoperand : ¬ next.kind.isOperand := Token.not_isOperand_of_isOneOf hone
    exact ⟨.unexpected .expression .operand next, rfl, .left (.expression hcontainer (.sum
      (.product (.unary hsign (.power (.primary hparen (.operand hoperand)))))))⟩

/-- Where the first of two relations runs on, a reader of statements gets stuck: it reads the left
side of the second one as more of the first one and is left with a comparison. -/
theorem exists_stuckProgram_of_runsOn (limit : Nat) {firstWeights secondWeights : List Nat}
    {first second : List Token} {left right node : Node} {operator : Atom}
    (hfirst : Derives firstWeights first (.relation (.relation left operator right)))
    (hsecond : Derives secondWeights second (.relation node))
    (hruns : ∀ next ∈ second.head?, RunsOn first right next) :
    ∃ before error after, first ++ second = before ++ error.token :: after ∧
      StuckProgram limit before error := by
  cases hfirst with
  | @relation _ _ leftTokens rightTokens _ _ symbol hleft hsymbol hright =>
  cases hsecond with
  | @relation _ _ swallowed others _ _ comparison hswallowed hcomparison hothers =>
  rw [List.head?_append_of_ne_nil _ hswallowed.ne_nil] at hruns
  have hruns : ∀ next ∈ swallowed.head?, RunsOn rightTokens right next :=
    fun next hnext ↦ (hruns next hnext).last hright.ne_nil
  obtain ⟨next, rest, hhead, -⟩ := hswallowed.starts
  have hnext := hruns next (by rw [hhead, List.head?_cons, Option.mem_some])
  obtain ⟨_, _, hmerged⟩ : Forms .sum (rightTokens ++ swallowed) := by
    cases hswallowed with
    | expression hsum => exact (hright.forms_sum hnext).append hsum rfl hruns
    | set hopening | vector hopening =>
      obtain ⟨rfl, -⟩ := List.cons.inj hhead
      exact absurd hopening (Token.not_is_of_isOneOf hnext.isOneOf (by decide))
  have hcomparisonInner := Token.isInner_of_isRelational hcomparison
  have hline := hcomparisonInner.not_isNewLine
  have hrelation := Derives.relation hleft hsymbol (.expression hmerged)
  have htaken : TakenAll [.ofRelation hrelation] comparison :=
    takenAll_ofRelation_of_ends hrelation ((stops_of_isRelational hcomparison).ends _ _) hline
  have htokens : leftTokens ++ symbol :: rightTokens ++ (swallowed ++ comparison :: others) =
      tokensOf [.ofRelation hrelation] ++ comparison :: others := by
    simp [tokensOf_ofRelation]
  rw [htokens]
  by_cases hfits : Fits limit .relation (weightsOf [.ofRelation hrelation])
  · obtain ⟨error, rfl, hstuck⟩ := exists_stuck_of_isRelational limit limit hcomparison
    have hhere : StuckProgram limit [] error :=
      .here hcomparisonInner.not_isEndOfInput hline hstuck
    have hafter := hhere.append htaken hfits
    rw [List.append_nil] at hafter
    exact ⟨_, error, others, rfl, hafter⟩
  · obtain ⟨before, token, after, hbefore, hstuck⟩ := exists_stuckProgram_of_not_fits htaken hfits
    refine ⟨before, _, after ++ comparison :: others, ?_, hstuck⟩
    rw [hbefore, List.append_assoc, List.cons_append]
    rfl

/-- Where it does not run on, the two relations are statements of their own. -/
theorem takenAll_of_not_runsOn {firstWeights secondWeights : List Nat}
    {first second : List Token} {left right node : Node} {operator : Atom} {closing : Token}
    (hfirst : Derives firstWeights first (.relation (.relation left operator right)))
    (hsecond : Derives secondWeights second (.relation node)) (hclosing : closing.isEndOfInput)
    (hruns : ∀ next ∈ second.head?, ¬ RunsOn first right next) :
    TakenAll [.ofRelation hfirst, .ofRelation hsecond] closing := by
  obtain ⟨next, rest, hsecondTokens, hstarts⟩ := hsecond.starts
  have hnext : (tokensOf [.ofRelation hsecond]).headD closing = next := by
    rw [tokensOf_ofRelation, hsecondTokens, List.headD_cons]
  have hruns : ¬ RunsOn first right next := hruns next (by rw [hsecondTokens]; rfl)
  have htaken := takenAll_ofRelation_of_ends hfirst (ends_of_not_runsOn hstarts hruns)
    hstarts.isInner.not_isNewLine
  rw [← hnext] at htaken
  exact htaken.append (takenAll_ofRelation hsecond hclosing)

/-- A statement without line ends is a relation if its tree is one. -/
theorem DerivesStatement.derives_relation {weights : List Nat} {tokens : List Token}
    {left right : Node} {operator : Atom}
    (h : DerivesStatement weights tokens (.relation left operator right))
    (hlines : ∀ token ∈ tokens, ¬ token.isNewLine) :
    Derives weights tokens (.relation (.relation left operator right)) := by
  cases h with
  | @relation _ tokens lines _ hderives hends =>
    obtain rfl : lines = [] := List.eq_nil_iff_forall_not_mem.mpr fun line hline ↦
      hlines line (List.mem_append_right tokens hline) (hends line hline)
    rwa [List.append_nil]

/-- Whether a relation runs on depends on the kinds of tokens only. -/
theorem runsOn_map {relabel change : Token → Token}
    (hkind : ∀ token, (relabel token).kind = token.kind) {tokens : List Token} {right : Node}
    {next : Token} :
    RunsOn (tokens.map relabel) (right.map change) (relabel next) ↔ RunsOn tokens right next := by
  have hlast : (∃ last ∈ (tokens.map relabel).getLast?, last.kind.isOperand) ↔
      ∃ last ∈ tokens.getLast?, last.kind.isOperand := by
    simp [List.getLast?_map, hkind]
  rw [RunsOn, isOneOf_map hkind, is_map hkind, isContainer_map, hlast, RunsOn]

end Grammar

/-! ### Sources -/

theorem Node.exists_of_map_eq_sequence {relabel : Token → Token} {node first second : Node}
    (h : node.map relabel = .sequence [first, second]) :
    ∃ firstNode secondNode, node = .sequence [firstNode, secondNode] ∧
      firstNode.map relabel = first ∧ secondNode.map relabel = second := by
  cases node with
  | sequence nodes =>
    rw [map, mapAll_eq_map, sequence.injEq] at h
    obtain ⟨firstNode, _, rfl, hfirst, h⟩ := List.map_eq_cons_iff.mp h
    obtain ⟨secondNode, rfl, hsecond⟩ := List.map_eq_singleton_iff.mp h
    exact ⟨firstNode, secondNode, rfl, hfirst, hsecond⟩
  | _ => cases h

/-- Whether tokens have the words of a source that is parsed into a tree. -/
def SpelledAs (tokens : List Token) (node : Node) : Prop :=
  ∃ source others closing, tokenize source = .ok (others ++ [closing]) ∧
    others.map Token.word = tokens.map Token.word ∧ parse source = .ok node

theorem SpelledAs.exists_derives {tokens : List Token} {left right : Node} {operator : Atom}
    (h : SpelledAs tokens (.relation left operator right))
    (hlines : ∀ token ∈ tokens, ¬ token.isNewLine) :
    ∃ weights, Derives weights (tokens.map Token.unlaid)
        (.relation ((Node.relation left operator right).map Token.unplaced)) ∧
      Fits maxNesting .relation weights := by
  obtain ⟨source, others, closing, htokens, hwords, hparse⟩ := h
  obtain ⟨statements, _, hstatements, -, htaken, hfits, hnode⟩ :=
    exists_takenAll_of_parseWithin hparse
  obtain ⟨rfl, -⟩ := List.append_inj' (Except.ok.inj (htokens.symm.trans hstatements)) rfl
  have hnodes : statements.map Statement.node = [.relation left operator right] := by
    match hmap : statements.map Statement.node with
    | [] => simp [hmap, ofStatements] at hnode
    | [only] => simpa [hmap, ofStatements] using hnode.symm
    | _ :: _ :: _ => simp [hmap, ofStatements] at hnode
  obtain ⟨laid, hlaid, hweights, hlaidNodes, -⟩ := htaken.exists_withoutLayout
  rw [hnodes] at hlaidNodes
  rw [withoutLayout_congr hwords, withoutLayout_of_not_isNewLine hlines] at hlaid
  rw [← hweights] at hfits
  have hlaidLines : ∀ token ∈ tokens.map Token.unlaid, ¬ token.isNewLine := by
    simpa [Token.kind_unlaid] using hlines
  obtain ⟨only, rfl, honly⟩ := List.map_eq_singleton_iff.mp hlaidNodes
  rw [tokensOf, List.flatMap_singleton] at hlaid
  rw [weightsOf, List.flatMap_singleton] at hfits
  rw [← hlaid] at hlaidLines ⊢
  exact ⟨only.weights, (honly ▸ only.derives).derives_relation hlaidLines, hfits⟩

/-- Two relations without a line end between them are parsed as a sequence of these relations, up to
positions, unless the second one begins with a sign and the right side of the first one is no
container, or the second one begins with a parenthesis and the first one ends in a name or a number.
In these two cases they are refused. -/
theorem parse_adjacent {source : String} {first second : List Token} {closing : Token}
    {left right otherLeft otherRight : Node} {operator otherOperator : Atom}
    (htokens : tokenize source = .ok (first ++ second ++ [closing]))
    (hlines : ∀ token ∈ first ++ second, ¬ token.isNewLine)
    (hfirst : SpelledAs first (.relation left operator right))
    (hsecond : SpelledAs second (.relation otherLeft otherOperator otherRight)) :
    ((∃ next ∈ second.head?, RunsOn first right next) →
      ∃ error, parse source = .error (.grammatical error)) ∧
    ((¬ ∃ next ∈ second.head?, RunsOn first right next) →
      ∃ firstNode secondNode, parse source = .ok (.sequence [firstNode, secondNode]) ∧
        firstNode.map Token.unplaced =
          (Node.relation left operator right).map Token.unplaced ∧
        secondNode.map Token.unplaced =
          (Node.relation otherLeft otherOperator otherRight).map Token.unplaced) := by
  obtain ⟨hfirstLines, hsecondLines⟩ := List.forall_mem_append.mp hlines
  obtain ⟨firstWeights, hfirstDerives, hfirstFits⟩ := hfirst.exists_derives hfirstLines
  obtain ⟨secondWeights, hsecondDerives, hsecondFits⟩ := hsecond.exists_derives hsecondLines
  have hsource : withoutLayout (first ++ second) =
      first.map Token.unlaid ++ second.map Token.unlaid := by
    rw [withoutLayout_of_not_isNewLine hlines, List.map_append]
  have hhead : ∀ next ∈ (second.map Token.unlaid).head?,
      (RunsOn (first.map Token.unlaid) (right.map Token.unplaced) next ↔
        ∃ token ∈ second.head?, RunsOn first right token) := by
    rw [List.head?_map]
    intro _ hnext
    obtain ⟨token, htoken, rfl⟩ := Option.map_eq_some_iff.mp hnext
    rw [runsOn_map Token.kind_unlaid, htoken]
    simp
  constructor
  · intro hruns
    obtain ⟨before, error, after, hbefore, hstuck⟩ :=
      exists_stuckProgram_of_runsOn maxNesting hfirstDerives hsecondDerives
        fun next hnext ↦ (hhead next hnext).mpr hruns
    obtain ⟨found, hparse, -⟩ :=
      parseWithin_of_stuckProgram_withoutLayout htokens (hsource.trans hbefore) hstuck
    exact ⟨found, hparse⟩
  · intro hruns
    have hclosing : (Token.endOfInput 0).isEndOfInput := rfl
    have htaken := takenAll_of_not_runsOn hfirstDerives hsecondDerives hclosing
      fun next hnext h ↦ hruns ((hhead next hnext).mp h)
    have htokensOf : tokensOf [.ofRelation hfirstDerives, .ofRelation hsecondDerives] =
        withoutLayout (first ++ second) := by
      rw [tokensOf_cons, tokensOf_ofRelation, hsource]
      rfl
    have hfits : Fits maxNesting .relation
        (weightsOf [.ofRelation hfirstDerives, .ofRelation hsecondDerives]) := by
      rw [weightsOf_cons, weightsOf_ofRelation]
      exact fits_append hfirstFits hsecondFits
    obtain ⟨node, hparse, hnode⟩ :=
      parseWithin_of_takenAll_withoutLayout htokens htokensOf htaken hfits
    obtain ⟨firstNode, secondNode, rfl, hfirstNode, hsecondNode⟩ :=
      Node.exists_of_map_eq_sequence hnode
    exact ⟨firstNode, secondNode, hparse, hfirstNode, hsecondNode⟩

/-- A parenthesis starts a statement behind a vector and makes a call behind a name. -/
theorem parse_adjacent_parenthesis :
    (∃ first second, parse "x = [f] (y) = 2" = .ok (.sequence [first, second])) ∧
    ∃ error, parse "x = f (y) = 2" = .error (.grammatical error) := by
  let vector : List Token := [.identifier "x" 0, .ofOperator .equal 2, .ofOperator .leftSquare 4,
    .identifier "f" 5, .ofOperator .rightSquare 6]
  let name : List Token := [.identifier "x" 0, .ofOperator .equal 2, .identifier "f" 4]
  let second (start : Nat) : List Token := [.ofOperator .leftParen start,
    .identifier "y" (start + 1), .ofOperator .rightParen (start + 2),
    .ofOperator .equal (start + 4), .number "2" (start + 6)]
  have hvector : SpelledAs vector (.relation (.atom (.value (.identifier "x" 0)))
      (.callTarget (.ofOperator .equal 2)) (.vector [.atom (.value (.identifier "f" 5))])) :=
    ⟨"x = [f]", vector, .endOfInput 7, by cbv, rfl, by cbv⟩
  have hname : SpelledAs name (.relation (.atom (.value (.identifier "x" 0)))
      (.callTarget (.ofOperator .equal 2)) (.atom (.value (.identifier "f" 4)))) :=
    ⟨"x = f", name, .endOfInput 5, by cbv, rfl, by cbv⟩
  have hsecond (start : Nat) : SpelledAs (second start)
      (.relation (.atom (.value (.identifier "y" 1))) (.callTarget (.ofOperator .equal 4))
        (.atom (.value (.number "2" 6)))) :=
    ⟨"(y) = 2", second 0, .endOfInput 7, by cbv, rfl, by cbv⟩
  constructor
  · have htokens : tokenize "x = [f] (y) = 2" = .ok (vector ++ second 8 ++ [.endOfInput 15]) := by
      cbv
    have hends : ¬ ∃ next ∈ (second 8).head?,
        RunsOn vector (.vector [.atom (.value (.identifier "f" 5))]) next := by
      rintro ⟨next, ⟨⟩, ⟨hsign, -⟩ | ⟨-, last, ⟨⟩, hlast⟩⟩
      · exact absurd hsign (by decide)
      · exact absurd hlast (by decide)
    obtain ⟨first, other, hparse, -⟩ :=
      (parse_adjacent htokens (by decide) hvector (hsecond 8)).2 hends
    exact ⟨first, other, hparse⟩
  · have htokens : tokenize "x = f (y) = 2" = .ok (name ++ second 6 ++ [.endOfInput 13]) := by
      cbv
    exact (parse_adjacent htokens (by decide) hname (hsecond 6)).1
      ⟨.ofOperator .leftParen 6, rfl, .inr ⟨rfl, .identifier "f" 4, rfl, rfl⟩⟩

end Formula
