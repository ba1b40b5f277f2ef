import Formula.Parser.Program
import Formula.Proofs.Refusal

/-!
# Only kinds matter

The grammar looks at the kinds of tokens and at nothing else. When every token is exchanged for
another one of its kind, phrases stay phrases (`Derives.map`), and a rule gets stuck at the same
place (`Stuck.map`).
-/

set_option autoImplicit false
set_option relaxedAutoImplicit false

namespace Formula

/-! ### Trees -/

/-- The atom with another token. -/
def Atom.map (relabel : Token → Token) (atom : Atom) : Atom :=
  ⟨relabel atom.token, atom.isCallTarget⟩

namespace Node

mutual

/-- The tree with other tokens in its atoms. -/
def map (relabel : Token → Token) : Node → Node
  | .atom leaf => .atom (leaf.map relabel)
  | .apply function arguments => .apply (function.map relabel) (mapAll relabel arguments)
  | .vector elements => .vector (mapAll relabel elements)
  | .set elements => .set (mapAll relabel elements)
  | .relation left operator right =>
    .relation (left.map relabel) (operator.map relabel) (right.map relabel)
  | .sequence statements => .sequence (mapAll relabel statements)
  | .empty => .empty

/-- The trees with other tokens in their atoms. -/
def mapAll (relabel : Token → Token) : List Node → List Node
  | [] => []
  | node :: others => node.map relabel :: mapAll relabel others

end

theorem mapAll_eq_map (relabel : Token → Token) (nodes : List Node) :
    mapAll relabel nodes = nodes.map (Node.map relabel) := by
  induction nodes with
  | nil => rfl
  | cons node others ih => rw [mapAll, List.map_cons, ih]

theorem map_ofStatements (relabel : Token → Token) (nodes : List Node) :
    (Parse.ofStatements nodes).map relabel = Parse.ofStatements (nodes.map (Node.map relabel)) := by
  match nodes with
  | [] => rfl
  | [_] => rfl
  | first :: second :: others =>
    change Node.sequence (mapAll relabel (first :: second :: others)) = _
    rw [mapAll_eq_map]
    rfl

end Node

/-- The error with another token. -/
def ParseError.map (relabel : Token → Token) (error : ParseError) : ParseError :=
  { error with token := relabel error.token }

namespace Grammar

/-- The phrase with other tokens in its trees. -/
def Phrase.map (relabel : Token → Token) : Phrase → Phrase
  | .relation node => .relation (node.map relabel)
  | .expression node => .expression (node.map relabel)
  | .items nodes => .items (Node.mapAll relabel nodes)
  | .sum node => .sum (node.map relabel)
  | .product node => .product (node.map relabel)
  | .unary node => .unary (node.map relabel)
  | .power node => .power (node.map relabel)
  | .primary node => .primary (node.map relabel)
  | .call node => .call (node.map relabel)

theorem isContainer_map (relabel : Token → Token) (node : Node) :
    isContainer (node.map relabel) = isContainer node := by
  cases node <;> rfl

@[simp] theorem chainsAfter_map (relabel : Token → Token) (node : Node) :
    chainsAfter (node.map relabel) = chainsAfter node := by
  rw [chainsAfter, isContainer_map, chainsAfter]

@[simp] theorem continuations_map (relabel : Token → Token) (phrase : Phrase) :
    (phrase.map relabel).continuations = phrase.continuations := by
  cases phrase with
  | relation node =>
    cases node with
    | relation left operator right => exact chainsAfter_map relabel right
    | _ => rfl
  | expression node => exact chainsAfter_map relabel node
  | items nodes =>
    rw [Phrase.map, Node.mapAll_eq_map, Phrase.continuations, Phrase.continuations,
      List.getLast?_map, Option.map_map]
    congr 3
    funext node
    exact chainsAfter_map relabel node
  | _ => rfl

section

/-! ### Phrases -/

variable {relabel : Token → Token} (hkind : ∀ token, (relabel token).kind = token.kind)

include hkind

theorem is_map (token : Token) (operator : Token.Operator) :
    (relabel token).is operator = token.is operator := by
  rw [Token.is, Token.is, hkind]

theorem isOneOf_map (token : Token) (operators : List Token.Operator) :
    (relabel token).isOneOf operators = token.isOneOf operators := by
  rw [Token.isOneOf, Token.isOneOf, funext (is_map hkind token)]

theorem isNewLine_map (token : Token) : (relabel token).isNewLine = token.isNewLine := by
  rw [Token.isNewLine, Token.isNewLine, hkind]

theorem isEndOfInput_map (token : Token) :
    (relabel token).isEndOfInput = token.isEndOfInput := by
  rw [Token.isEndOfInput, Token.isEndOfInput, hkind]

theorem Derives.map {weights : List Nat} {tokens : List Token} {phrase : Phrase}
    (h : Derives weights tokens phrase) :
    Derives weights (tokens.map relabel) (phrase.map relabel) := by
  induction h with
  | relation _ hoperator _ ihleft ihright =>
    rw [List.map_append, List.map_cons]
    exact .relation ihleft (by rwa [hkind]) ihright
  | set hopening _ hclosing ih =>
    rw [List.map_cons, List.map_append, List.map_singleton]
    exact .set (by rwa [is_map hkind]) ih (by rwa [is_map hkind])
  | vector hopening _ hclosing ih =>
    rw [List.map_cons, List.map_append, List.map_singleton]
    exact .vector (by rwa [is_map hkind]) ih (by rwa [is_map hkind])
  | expression _ ih => exact .expression ih
  | item _ ih => exact .item ih
  | nextItem _ hcomma _ ihfirst ihrest =>
    rw [List.map_append, List.map_cons]
    exact .nextItem ihfirst (by rwa [is_map hkind]) ihrest
  | sum _ ih => exact .sum ih
  | addition _ hoperator _ ihleft ihright =>
    rw [List.map_append, List.map_cons]
    exact .addition ihleft (by rwa [isOneOf_map hkind]) ihright
  | product _ ih => exact .product ih
  | multiplication _ hoperator _ ihleft ihright =>
    rw [List.map_append, List.map_cons]
    exact .multiplication ihleft (by rwa [isOneOf_map hkind]) ihright
  | sign hsign _ ih => exact .sign (by rwa [isOneOf_map hkind]) ih
  | unary _ ih => exact .unary ih
  | power _ ih => exact .power ih
  | raised _ hoperator _ ihbase ihexponent =>
    rw [List.map_append, List.map_cons]
    exact .raised ihbase (by rwa [is_map hkind]) ihexponent
  | group hopening _ hclosing ih =>
    rw [List.map_cons, List.map_append, List.map_singleton]
    exact .group (by rwa [is_map hkind]) ih (by rwa [is_map hkind])
  | primary _ ih => exact .primary ih
  | operand hoperand => exact .operand (by rwa [hkind])
  | emptyCall hfunction hopening hclosing =>
    exact .emptyCall (by rwa [hkind]) (by rwa [is_map hkind]) (by rwa [is_map hkind])
  | call hfunction hopening _ hclosing ih =>
    rw [List.map_cons, List.map_cons, List.map_append, List.map_singleton]
    exact .call (by rwa [hkind]) (by rwa [is_map hkind]) ih (by rwa [is_map hkind])

theorem Ends.map {phrase : Phrase} {tokens : List Token} {next : Token}
    (h : Ends phrase tokens next) :
    Ends (phrase.map relabel) (tokens.map relabel) (relabel next) where
  notContinued := by
    rw [continuations_map, isOneOf_map hkind]
    exact h.notContinued
  notCalled := by
    rw [is_map hkind]
    intro hparen last hlast
    rw [List.getLast?_map] at hlast
    obtain ⟨token, htoken, rfl⟩ := Option.map_eq_some_iff.mp hlast
    rw [hkind]
    exact h.notCalled hparen token htoken

/-! ### Refused tokens -/

theorem Stuck.map {limit levels : Nat} {goal : Goal} {tokens : List Token} {error : ParseError}
    (h : Stuck limit goal levels tokens error) :
    Stuck limit goal levels (tokens.map relabel) (error.map relabel) := by
  induction h with
  | left _ ih => exact .left ih
  | comparison hleft hfits hends hnext =>
    exact .comparison (hleft.map hkind) hfits (hends.map hkind) (by rwa [hkind])
  | right hleft hfits hoperator _ ih =>
    rw [List.map_append, List.map_cons]
    exact .right (hleft.map hkind) hfits (by rwa [hkind]) ih
  | expressionLimit next => exact .expressionLimit (relabel next)
  | setItems hopening _ ih => exact .setItems (by rwa [is_map hkind]) ih
  | setEnd hopening hitems hfits hends hnext =>
    exact .setEnd (by rwa [is_map hkind]) (hitems.map hkind) hfits (hends.map hkind)
      (by rwa [is_map hkind])
  | vectorItems hopening _ ih => exact .vectorItems (by rwa [is_map hkind]) ih
  | vectorEnd hopening hitems hfits hends hnext =>
    exact .vectorEnd (by rwa [is_map hkind]) (hitems.map hkind) hfits (hends.map hkind)
      (by rwa [is_map hkind])
  | expression hfirst _ ih =>
    refine .expression ?_ ih
    rwa [ParseError.map, List.headD_map, isOneOf_map hkind]
  | item _ ih => exact .item ih
  | nextItem hfirst hfits hcomma _ ih =>
    rw [List.map_append, List.map_cons]
    exact .nextItem (hfirst.map hkind) hfits (by rwa [is_map hkind]) ih
  | sum _ ih => exact .sum ih
  | addition hleft hfits hoperator _ ih =>
    rw [List.map_append, List.map_cons]
    exact .addition (hleft.map hkind) hfits (by rwa [isOneOf_map hkind]) ih
  | product _ ih => exact .product ih
  | multiplication hleft hfits hoperator _ ih =>
    rw [List.map_append, List.map_cons]
    exact .multiplication (hleft.map hkind) hfits (by rwa [isOneOf_map hkind]) ih
  | unaryLimit next => exact .unaryLimit (relabel next)
  | sign hsign _ ih => exact .sign (by rwa [isOneOf_map hkind]) ih
  | unary hfirst _ ih =>
    refine .unary ?_ ih
    rwa [ParseError.map, List.headD_map, isOneOf_map hkind]
  | power _ ih => exact .power ih
  | raised hbase hfits hoperator _ ih =>
    rw [List.map_append, List.map_cons]
    exact .raised (hbase.map hkind) hfits (by rwa [is_map hkind]) ih
  | group hopening _ ih => exact .group (by rwa [is_map hkind]) ih
  | groupEnd hopening hinner hfits hends hnext =>
    exact .groupEnd (by rwa [is_map hkind]) (hinner.map hkind) hfits (hends.map hkind)
      (by rwa [is_map hkind])
  | primary hfirst _ ih =>
    refine .primary ?_ ih
    rwa [ParseError.map, List.headD_map, is_map hkind]
  | operand hnext => exact .operand (by rwa [hkind])
  | arguments hfunction hopening hfirst _ ih =>
    refine .arguments (by rwa [hkind]) (by rwa [is_map hkind]) ?_ ih
    rwa [ParseError.map, List.headD_map, is_map hkind]
  | callEnd hfunction hopening hitems hfits hends hnext =>
    exact .callEnd (by rwa [hkind]) (by rwa [is_map hkind]) (hitems.map hkind) hfits
      (hends.map hkind) (by rwa [is_map hkind])

/-! ### Statements -/

theorem lines_map {lines : List Token} (h : ∀ line ∈ lines, line.isNewLine) :
    ∀ line ∈ lines.map relabel, line.isNewLine := by
  intro line hline
  obtain ⟨token, htoken, rfl⟩ := List.mem_map.mp hline
  rw [isNewLine_map hkind]
  exact h token htoken

theorem Taken.map {weights : List Nat} {tokens : List Token} {node : Node} {next : Token}
    (h : Taken weights tokens node next) :
    Taken weights (tokens.map relabel) (node.map relabel) (relabel next) := by
  cases h with
  | relation hderives hlines hends hnext =>
    rw [List.map_append]
    refine .relation (hderives.map hkind) (lines_map hkind hlines) ?_
      (by rwa [isNewLine_map hkind])
    rw [List.headD_map]
    exact hends.map hkind
  | empty hnonempty hlines hnext =>
    exact .empty (by simpa using hnonempty) (lines_map hkind hlines) (by rwa [isNewLine_map hkind])

theorem StuckProgram.map {limit : Nat} {tokens : List Token} {error : ParseError}
    (h : StuckProgram limit tokens error) :
    StuckProgram limit (tokens.map relabel) (error.map relabel) := by
  induction h with
  | here hend hline hstuck =>
    refine .here ?_ ?_ (hstuck.map hkind)
    · rwa [ParseError.map, List.headD_map, isEndOfInput_map hkind]
    · rwa [ParseError.map, List.headD_map, isNewLine_map hkind]
  | later htaken hfits _ ih =>
    rw [List.map_append]
    have hmapped := htaken.map hkind
    rw [← @List.headD_map _ _ relabel] at hmapped
    exact .later hmapped hfits ih

/-- Statements that end before each other do so with other tokens, too. -/
theorem TakenAll.exists_map {statements : List Statement} {next : Token}
    (h : TakenAll statements next) :
    ∃ mapped : List Statement, tokensOf mapped = (tokensOf statements).map relabel ∧
      weightsOf mapped = weightsOf statements ∧
      mapped.map Statement.node = (statements.map Statement.node).map (Node.map relabel) ∧
      TakenAll mapped (relabel next) :=
  h.exists_image rfl (fun _ _ _ _ ↦ List.map_append)
    (fun _ _ ↦ List.headD_map) (fun htaken ↦ htaken.map hkind)

end

end Grammar

end Formula
