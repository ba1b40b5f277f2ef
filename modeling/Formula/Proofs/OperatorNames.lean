import Formula.Proofs.Documents
import Formula.Proofs.WrittenForms

/-!
# Operators under their names

When operators are named, the call form no longer tells an operator from a function that is called
by the operator's name: `a + b` and `plus(a, b)` come out the same. `Node.callByName` exchanges the
operators of applications for such functions, and two sources have the same call form with named
operators exactly if they are the same up to this exchange and up to positions
(`render_name_eq_iff`). The call form with named operators is the one with lexemes of a tree in
which every token goes by its name (`render_map_named`), so that it can be read back like that one;
the operator of a relation is known from its name.
-/

set_option autoImplicit false
set_option relaxedAutoImplicit false

namespace Formula

open Grammar Lexicon Parse Text

/-! ### Functions instead of operators -/

/-- The function of an application by its name: instead of an operator, a called function that is
spelled like the operator is named. -/
def Atom.calledByName (atom : Atom) : Atom :=
  match atom.operator? with
  | some operator => .callTarget (.identifier operator.name atom.token.position)
  | none => atom

namespace Node

mutual

/-- The tree in which applications have functions instead of operators. The operators of relations
stay. -/
def callByName : Node → Node
  | .atom leaf => .atom leaf
  | .apply function arguments => .apply function.calledByName (callAllByName arguments)
  | .vector elements => .vector (callAllByName elements)
  | .set elements => .set (callAllByName elements)
  | .relation left operator right => .relation left.callByName operator right.callByName
  | .sequence statements => .sequence (callAllByName statements)
  | .empty => .empty

/-- The trees in which applications have functions instead of operators. -/
def callAllByName : List Node → List Node
  | [] => []
  | node :: others => node.callByName :: callAllByName others

end

theorem callAllByName_eq_map (nodes : List Node) :
    callAllByName nodes = nodes.map callByName := by
  induction nodes with
  | nil => rfl
  | cons node others ih => rw [callAllByName, List.map_cons, ih]

theorem callByName_ofStatements (nodes : List Node) :
    (ofStatements nodes).callByName = ofStatements (nodes.map callByName) := by
  match nodes with
  | [] => rfl
  | [_] => rfl
  | first :: second :: others =>
    change Node.sequence (callAllByName (first :: second :: others)) = _
    rw [callAllByName_eq_map]
    rfl

end Node

/-! ### Tokens by their names -/

namespace Token

/-- The token by its name: instead of an operator, an identifier that is spelled like the operator
is named. -/
def named (token : Token) : Token :=
  match token.kind.operator? with
  | some operator => .identifier operator.name token.position
  | none => token

theorem named_of_kind {token : Token} {operator : Operator} (h : token.kind = .operator operator) :
    token.named = .identifier operator.name token.position := by
  rw [named, h]
  rfl

theorem named_of_isNameOrNumber {token : Token} (h : token.IsNameOrNumber) :
    token.named = token := by
  rcases h with hkind | hkind <;> rw [named, hkind] <;> rfl

theorem named_named (token : Token) : token.named.named = token.named := by
  cases hkind : token.kind with
  | operator symbol =>
    rw [named_of_kind hkind]
    rfl
  | _ => simp [named, hkind, TokenKind.operator?]

theorem unplaced_named (token : Token) : token.named.unplaced = token.unplaced.named := by
  cases hkind : token.kind <;> simp [named, unplaced, hkind, TokenKind.operator?, identifier]

theorem mem_lexemes_name (operator : Operator) :
    operator.name.toList ∈ lexemes .identifier := by
  have hfound : lexemeAt? operator.name.toList = some (.identifier, operator.name.toList) := by
    cases operator <;> decide
  exact (mem_lexemes_of_lexemeAt? hfound).1

theorem IsGenuine.named {token : Token} (h : token.IsGenuine) : token.named.IsGenuine := by
  cases hkind : token.kind with
  | operator symbol =>
    rw [named_of_kind hkind]
    exact ⟨rfl, mem_lexemes_name symbol⟩
  | _ => simpa [Token.named, hkind, TokenKind.operator?] using h

/-- A genuine operator is known from its name. -/
theorem unplaced_eq_of_named {first second : Token} (hfirst : first.IsGenuine)
    (hsecond : second.IsGenuine) {operators : List Operator} (hone : first.isOneOf operators)
    (hother : second.isOneOf operators) (h : first.named.unplaced = second.named.unplaced) :
    first.unplaced = second.unplaced := by
  obtain ⟨operator, -, hkind⟩ := (isOneOf_iff first operators).mp hone
  obtain ⟨other, -, hotherKind⟩ := (isOneOf_iff second operators).mp hother
  rw [named_of_kind hkind, named_of_kind hotherKind] at h
  obtain rfl : operator = other := Operator.name_injective (congrArg Token.lexeme h)
  have hlexeme := hfirst.mem_lexemes
  have hotherLexeme := hsecond.mem_lexemes
  rw [hkind] at hlexeme
  rw [hotherKind] at hotherLexeme
  have hsame : first.lexeme = second.lexeme :=
    String.toList_inj.mp (Eq.trans hlexeme (Eq.symm hotherLexeme))
  rw [unplaced, unplaced, hkind, hotherKind, hsame]

end Token

/-! ### Trees by the names of their tokens -/

/-- Naming operators in the call form is naming them in the tree. -/
theorem Atom.render_map_named (naming : Naming) (atom : Atom) :
    (atom.map Token.named).render { naming with operatorStyle := .lexeme } =
      atom.render { naming with operatorStyle := .name } := by
  cases hkind : atom.token.kind <;>
    simp [Atom.render, Atom.map, Atom.operator?, Atom.lexeme, Token.named, hkind,
      TokenKind.operator?, Token.identifier]

namespace Node

theorem render_map_named (naming : Naming) (node : Node) :
    (node.map Token.named).render { naming with operatorStyle := .lexeme } =
      node.render { naming with operatorStyle := .name } := by
  induction node using Node.induction with
  | atom => exact Atom.render_map_named naming _
  | empty => rfl
  | apply _ _ ih =>
    rw [Node.map, render, render, renderAll_eq_map, renderAll_eq_map, map_mapAll ih,
      Atom.render_map_named]
  | vector _ ih | set _ ih | sequence _ ih =>
    rw [Node.map, render, render, renderAll_eq_map, renderAll_eq_map, map_mapAll ih]
  | relation _ _ _ ihleft ihright =>
    rw [Node.map, render, render, ihleft, ihright, Atom.render_map_named]

theorem IsGenuine.map_named {node : Node} (h : node.IsGenuine) :
    (node.map Token.named).IsGenuine := by
  have hall {nodes : List Node} (ih : ∀ node ∈ nodes, (node.map Token.named).IsGenuine) :
      ∀ node ∈ mapAll Token.named nodes, node.IsGenuine := by
    rw [mapAll_eq_map, List.forall_mem_map]
    exact ih
  induction h with
  | atom hoperand => exact .atom hoperand.named
  | apply hfunction _ ih => exact .apply hfunction.named (hall ih)
  | vector _ ih => exact .vector (hall ih)
  | set _ ih => exact .set (hall ih)

theorem IsGenuineStatement.map_named {node : Node} (h : node.IsGenuineStatement) :
    (node.map Token.named).IsGenuineStatement := by
  rcases h with rfl | ⟨hoperator, hleft, hright⟩
  · exact .inl rfl
  · exact .inr (.relation hoperator.named hleft.map_named hright.map_named)

/-- In the tree of an expression only the operators of applications have other names. -/
theorem IsExpression.callByName_eq {node : Node} (h : node.IsExpression) :
    node.callByName = node.map Token.named := by
  have hall {nodes : List Node} (ih : ∀ node ∈ nodes, node.callByName = node.map Token.named) :
      callAllByName nodes = mapAll Token.named nodes := by
    rw [callAllByName_eq_map, mapAll_eq_map]
    exact List.map_congr_left ih
  have happly {function : Token} {operators : List Token.Operator}
      (hfunction : function.isOneOf operators) :
      (Atom.callTarget function).calledByName = (Atom.callTarget function).map Token.named := by
    obtain ⟨operator, -, hkind⟩ := (Token.isOneOf_iff function operators).mp hfunction
    simp [Atom.calledByName, Atom.operator?, Atom.callTarget, Atom.map, Token.named, hkind,
      TokenKind.operator?]
  induction h with
  | @atom operand hoperand =>
    rw [callByName, Node.map, Atom.map, Atom.value, Token.named_of_isNameOrNumber hoperand]
  | @call function arguments hfunction _ ih =>
    have htarget : (Atom.callTarget function).calledByName = Atom.callTarget function := by
      rcases hfunction with hkind | hkind <;>
        simp [Atom.calledByName, Atom.operator?, Atom.callTarget, hkind, TokenKind.operator?]
    rw [callByName, Node.map, htarget, Atom.map, Atom.callTarget,
      Token.named_of_isNameOrNumber hfunction, hall ih]
  | sign hsign _ _ ih =>
    rw [callByName, Node.map, happly hsign, hall (List.forall_mem_singleton.mpr ih)]
  | operation hoperator _ _ _ _ ihleft ihright =>
    rw [callByName, Node.map, happly hoperator,
      hall (List.forall_mem_cons.mpr ⟨ihleft, List.forall_mem_singleton.mpr ihright⟩)]
  | vector _ _ ih | set _ _ ih => rw [callByName, Node.map, hall ih]

end Node

/-! ### Statements -/

namespace Node

theorem map_map (relabel again : Token → Token) (node : Node) :
    (node.map relabel).map again = node.map (again ∘ relabel) := by
  have hall {nodes : List Node}
      (ih : ∀ node ∈ nodes, (node.map relabel).map again = node.map (again ∘ relabel)) :
      mapAll again (mapAll relabel nodes) = mapAll (again ∘ relabel) nodes := by
    rw [mapAll_eq_map, mapAll_eq_map, mapAll_eq_map, List.map_map]
    exact List.map_congr_left ih
  induction node using Node.induction with
  | atom | empty => rfl
  | apply _ _ ih =>
    rw [Node.map, Node.map, Node.map, hall ih]
    rfl
  | vector _ ih | set _ ih | sequence _ ih => rw [Node.map, Node.map, Node.map, hall ih]
  | relation _ _ _ ihleft ihright =>
    rw [Node.map, Node.map, Node.map, ihleft, ihright]
    rfl

/-- Positions and names can be changed in either order. -/
theorem map_unplaced_named (node : Node) :
    (node.map Token.unplaced).map Token.named = (node.map Token.named).map Token.unplaced := by
  rw [map_map, map_map]
  exact congrArg (node.map ·) (funext fun token ↦ (Token.unplaced_named token).symm)

/-- Whether a statement is one that a source can have: it is empty or a relation, and its tokens
are genuine. -/
def IsSourceStatement (node : Node) : Prop :=
  node.IsGenuineStatement ∧ (node = .empty ∨ node.IsRelation)

theorem IsSourceStatement.eq_empty_or_exists {node : Node} (h : node.IsSourceStatement) :
    node = .empty ∨ ∃ left operator right, node = .relation left (.callTarget operator) right ∧
      operator.IsGenuine ∧ operator.isOneOf Token.comparisons ∧
      left.callByName = left.map Token.named ∧ right.callByName = right.map Token.named := by
  obtain ⟨hgenuine, rfl | hrelation⟩ := h
  · exact .inl rfl
  · obtain ⟨hoperator, hleft, hright⟩ := hrelation
    obtain ⟨⟨⟩⟩ | ⟨⟨hgenuine, -, -⟩⟩ := hgenuine
    exact .inr ⟨_, _, _, rfl, hgenuine, hoperator, hleft.callByName_eq, hright.callByName_eq⟩

theorem IsSourceStatement.map_callByName {node : Node} (h : node.IsSourceStatement) :
    node.callByName.map Token.named = node.map Token.named := by
  have htwice : Token.named ∘ Token.named = Token.named := funext Token.named_named
  obtain rfl | ⟨left, operator, right, rfl, -, -, hleft, hright⟩ := h.eq_empty_or_exists
  · rfl
  · rw [callByName, hleft, hright, Node.map, Node.map, map_map, map_map, htwice]

/-- A statement is known up to functions instead of operators from the names of its tokens. -/
theorem callByName_eq_of_named {first second : Node} (hfirst : first.IsSourceStatement)
    (hsecond : second.IsSourceStatement)
    (h : (first.map Token.named).map Token.unplaced = (second.map Token.named).map Token.unplaced) :
    first.callByName.map Token.unplaced = second.callByName.map Token.unplaced := by
  obtain rfl | ⟨left, operator, right, rfl, hgenuine, hcompares, hleft, hright⟩ :=
    hfirst.eq_empty_or_exists
  · obtain rfl | ⟨_, _, _, rfl, -⟩ := hsecond.eq_empty_or_exists
    · rfl
    · cases h
  · obtain rfl | ⟨otherLeft, other, otherRight, rfl, hotherGenuine, hotherCompares, hotherLeft,
      hotherRight⟩ := hsecond.eq_empty_or_exists
    · cases h
    · simp only [Node.map, Node.relation.injEq] at h
      obtain ⟨hleftEq, hoperatorEq, hrightEq⟩ := h
      have hoperator : operator.unplaced = other.unplaced :=
        Token.unplaced_eq_of_named hgenuine hotherGenuine hcompares hotherCompares
          (congrArg Atom.token hoperatorEq)
      rw [callByName, callByName, hleft, hright, hotherLeft, hotherRight, Node.map, Node.map,
        hleftEq, hrightEq]
      exact congrArg (fun token ↦ Node.relation _ (.callTarget token) _) hoperator

/-- A statement can be read back from the call form with named operators, up to functions instead
of operators. -/
theorem decodes_render_name {first second : Node} (hfirst : first.IsSourceStatement)
    (hsecond : second.IsSourceStatement) :
    Decodes (fun node ↦ (node.render { operatorStyle := .name }).toList)
      (fun node ↦ node.callByName.map Token.unplaced) (StartsWithout staysOnLine) first second := by
  intro firstRest secondRest hfirstRest hsecondRest h
  simp only [← render_map_named {}] at h
  obtain ⟨hnamed, hrest⟩ := decodes_render Naming.isReadable_default hfirst.1.map_named
    hsecond.1.map_named _ _ hfirstRest hsecondRest h
  exact ⟨callByName_eq_of_named hfirst hsecond hnamed, hrest⟩

theorem map_callByName_ofStatements {nodes : List Node}
    (h : ∀ node ∈ nodes, node.IsSourceStatement) :
    (ofStatements nodes).callByName.map Token.named = (ofStatements nodes).map Token.named := by
  rw [callByName_ofStatements, map_ofStatements, map_ofStatements, List.map_map]
  exact congrArg ofStatements (List.map_congr_left fun node hnode ↦ (h node hnode).map_callByName)

end Node

/-! ### Sources -/

theorem exists_sourceStatements_of_parse {source : String} {node : Node}
    (h : parse source = .ok node) :
    ∃ first others, node = ofStatements (first :: others) ∧
      ∀ statement ∈ first :: others, statement.IsSourceStatement := by
  obtain ⟨first, others, hnode, hgenuine, hfirst, hothers⟩ := exists_statements_of_parseWithin h
  refine ⟨first, others, hnode, fun statement hmem ↦ ⟨hgenuine statement hmem, ?_⟩⟩
  rcases List.mem_cons.mp hmem with rfl | hmem
  · exact hfirst
  · exact .inr (hothers statement hmem)

/-- With named operators, two sources have the same call form exactly if their trees are the same
up to positions and up to functions instead of operators in applications. -/
theorem render_name_eq_iff (firstSource secondSource : String) (first second : Node)
    (hfirst : parse firstSource = .ok first) (hsecond : parse secondSource = .ok second) :
    first.render { operatorStyle := .name } = second.render { operatorStyle := .name } ↔
      first.callByName.map Token.unplaced = second.callByName.map Token.unplaced := by
  obtain ⟨firstHead, firstOthers, rfl, hfirsts⟩ := exists_sourceStatements_of_parse hfirst
  obtain ⟨secondHead, secondOthers, rfl, hseconds⟩ := exists_sourceStatements_of_parse hsecond
  constructor
  · intro h
    have hstatements := statements_eq_of_lines (toList_render_ofStatements _)
      (fun statement hstatement other hother ↦
        Node.decodes_render_name (hfirsts statement hstatement) (hseconds other hother))
      (congrArg String.toList h)
    rw [Node.callByName_ofStatements, Node.callByName_ofStatements, Node.map_ofStatements,
      Node.map_ofStatements, List.map_map, List.map_map]
    exact congrArg ofStatements hstatements
  · intro h
    have hnamed := congrArg (Node.map Token.named) h
    rw [Node.map_unplaced_named, Node.map_unplaced_named, Node.map_callByName_ofStatements hfirsts,
      Node.map_callByName_ofStatements hseconds] at hnamed
    calc (ofStatements (firstHead :: firstOthers)).render { operatorStyle := .name }
        = (((ofStatements (firstHead :: firstOthers)).map Token.named).map Token.unplaced).render
            {} := by rw [render_map_unplaced, Node.render_map_named {}]
      _ = (((ofStatements (secondHead :: secondOthers)).map Token.named).map Token.unplaced).render
            {} := by rw [hnamed]
      _ = (ofStatements (secondHead :: secondOthers)).render { operatorStyle := .name } := by
          rw [render_map_unplaced, Node.render_map_named {}]

/-- A sum and a sign go together with calls of the same names, but not with a call that has other
arguments. -/
theorem render_name_eq_iff_sign :
    ∃ signed called other, parse "y = -x + 1" = .ok signed ∧
      parse "y=plus( minus(x), 1 )" = .ok called ∧ parse "y = plus(minus(x, 1))" = .ok other ∧
      signed.callByName.map Token.unplaced = called.callByName.map Token.unplaced ∧
      signed.callByName.map Token.unplaced ≠ other.callByName.map Token.unplaced := by
  obtain ⟨signed, hsigned, hsignedText⟩ : ∃ node, parse "y = -x + 1" = .ok node ∧
      node.render { operatorStyle := .name } = "Func(\"equal\")(atom(\"y\"), " ++
        "Func(\"plus\").eval(Func(\"minus\").eval(atom(\"x\")), atom(\"1\")))" :=
    ⟨_, by cbv, by cbv⟩
  obtain ⟨called, hcalled, hcalledText⟩ : ∃ node, parse "y=plus( minus(x), 1 )" = .ok node ∧
      node.render { operatorStyle := .name } = "Func(\"equal\")(atom(\"y\"), " ++
        "Func(\"plus\").eval(Func(\"minus\").eval(atom(\"x\")), atom(\"1\")))" :=
    ⟨_, by cbv, by cbv⟩
  obtain ⟨other, hother, hotherText⟩ : ∃ node, parse "y = plus(minus(x, 1))" = .ok node ∧
      node.render { operatorStyle := .name } = "Func(\"equal\")(atom(\"y\"), " ++
        "Func(\"plus\").eval(Func(\"minus\").eval(atom(\"x\"), atom(\"1\"))))" :=
    ⟨_, by cbv, by cbv⟩
  have hsame := render_name_eq_iff _ _ _ _ hsigned hcalled
  have hdifferent := render_name_eq_iff _ _ _ _ hsigned hother
  refine ⟨signed, called, other, hsigned, hcalled, hother, ?_, fun htrees ↦ ?_⟩
  · exact hsame.mp (hsignedText.trans hcalledText.symm)
  · have htexts := hdifferent.mpr htrees
    rw [hsignedText, hotherText] at htexts
    exact absurd htexts (by decide)

end Formula
