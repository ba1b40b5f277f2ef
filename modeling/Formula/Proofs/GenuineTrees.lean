import Formula.Proofs.Decoding
import Formula.Proofs.Layout
import Formula.Proofs.Shape
import Formula.Proofs.Spelling
import Formula.Proofs.TokenOrder

/-!
# Trees with genuine tokens

The trees of sources hold tokens that were scanned. A token is genuine if it is one of those that
trees keep and has a lexeme of its kind, and `Node.IsGenuine` are the trees of expressions whose
tokens are genuine and stand where the parser puts them. Every source with a tree is a list of
statements that are empty or relations between such trees (`exists_statements_of_parseWithin`).
-/

set_option autoImplicit false
set_option relaxedAutoImplicit false

namespace Formula

open Grammar Lexicon Parse

/-! ### Genuine tokens -/

namespace Token

/-- A token that trees keep and that has a lexeme of its kind. -/
structure IsGenuine (token : Token) : Prop where
  isKept : token.isKept
  mem_lexemes : token.lexeme.toList ∈ lexemes token.kind

theorem lexemeAt?_of_startsWithout {lexeme rest : List Char} {kind : TokenKind}
    (h : lexeme ∈ lexemes kind) (hrest : Text.StartsWithout joins rest) :
    lexemeAt? (lexeme ++ rest) = some (kind, lexeme) := by
  cases rest with
  | nil => rw [List.append_nil, lexemeAt?_of_mem h]
  | cons next rest => exact lexemeAt?_of_mem_append h (hrest next rfl) rest

/-- A lexeme can be read back where no lexeme goes on. -/
theorem decodes_lexeme {first second : Token} (hfirst : first.lexeme.toList ∈ lexemes first.kind)
    (hsecond : second.lexeme.toList ∈ lexemes second.kind) :
    Text.Decodes (fun token ↦ token.lexeme.toList) unplaced (Text.StartsWithout joins)
      first second := by
  intro firstRest secondRest hfirstRest hsecondRest h
  have hfound := lexemeAt?_of_startsWithout hfirst hfirstRest
  rw [h, lexemeAt?_of_startsWithout hsecond hsecondRest] at hfound
  obtain ⟨hkind, hlexeme⟩ := Prod.mk.inj (Option.some.inj hfound)
  refine ⟨?_, ?_⟩
  · rw [unplaced, unplaced, hkind, String.toList_inj.mp hlexeme]
  · simp only [hlexeme, List.append_cancel_left_eq] at h
    exact h

/-- A genuine token begins with no bracket of a list and no line end. -/
theorem IsGenuine.exists_cons {token : Token} (h : token.IsGenuine) :
    ∃ first rest, token.lexeme.toList = first :: rest ∧
      first ∉ ['[', '\x7b', ')', ']', '\x7d', '\n'] := by
  obtain ⟨kind, lexeme, position⟩ := token
  obtain ⟨first, rest, hlexeme⟩ := List.exists_cons_of_ne_nil (lexemes_ne_nil h.mem_lexemes)
  refine ⟨first, rest, hlexeme, fun hfirst ↦ ?_⟩
  -- each of these characters is a lexeme on its own, of a kind that trees do not keep
  have halone : ∃ found, lexemeAt? (first :: rest) = some (found, [first]) ∧
      ¬ (⟨found, lexeme, position⟩ : Token).isKept := by
    simp only [List.mem_cons, List.not_mem_nil, or_false] at hfirst
    rcases hfirst with rfl | rfl | rfl | rfl | rfl | rfl <;> exact ⟨_, rfl, Bool.false_ne_true⟩
  obtain ⟨found, hfound, hkept⟩ := halone
  have hkind := lexemeAt?_of_mem h.mem_lexemes
  rw [hlexeme, hfound] at hkind
  obtain ⟨rfl, -⟩ := Prod.mk.inj (Option.some.inj hkind)
  exact hkept h.isKept

theorem mem_around {function token : Token} {arguments : List (List Token)} :
    token ∈ function.around arguments ↔ token = function ∨ token ∈ arguments.flatten := by
  unfold around
  split
  · split <;> simp [or_left_comm]
  · rw [List.mem_cons]

end Token

/-! ### Genuine trees -/

namespace Node

/-- The trees of expressions whose tokens are genuine. -/
inductive IsGenuine : Node → Prop
  | atom {operand : Token} :
      operand.IsGenuine →
      IsGenuine (.atom (.value operand))
  | apply {function : Token} {arguments : List Node} :
      function.IsGenuine →
      (∀ argument ∈ arguments, IsGenuine argument) →
      IsGenuine (.apply (.callTarget function) arguments)
  | vector {elements : List Node} :
      (∀ element ∈ elements, IsGenuine element) →
      IsGenuine (.vector elements)
  | set {elements : List Node} :
      (∀ element ∈ elements, IsGenuine element) →
      IsGenuine (.set elements)

/-- The relations whose tokens are genuine. -/
inductive IsGenuineRelation : Node → Prop
  | relation {operator : Token} {left right : Node} :
      operator.IsGenuine →
      left.IsGenuine →
      right.IsGenuine →
      IsGenuineRelation (.relation left (.callTarget operator) right)

/-- Whether a node is the empty statement or a relation whose tokens are genuine. -/
def IsGenuineStatement (node : Node) : Prop :=
  node = .empty ∨ node.IsGenuineRelation

theorem mem_inOrderEach {token : Token} {nodes : List Node} :
    token ∈ (inOrderEach nodes).flatten ↔ ∃ node ∈ nodes, token ∈ node.inOrder := by
  rw [inOrderEach_eq_map, ← List.flatMap_def, List.mem_flatMap]

/-- The tree of an expression is genuine if all of its tokens are. -/
theorem IsExpression.isGenuine {node : Node} (h : node.IsExpression)
    (htokens : ∀ token ∈ node.inOrder, token.IsGenuine) : node.IsGenuine := by
  have heach {nodes : List Node}
      (hnodes : ∀ node ∈ nodes, (∀ token ∈ node.inOrder, token.IsGenuine) → node.IsGenuine)
      (hmem : ∀ token ∈ (inOrderEach nodes).flatten, token.IsGenuine) :
      ∀ node ∈ nodes, node.IsGenuine :=
    fun node hnode ↦ hnodes node hnode fun token htoken ↦
      hmem token (mem_inOrderEach.mpr ⟨node, hnode, htoken⟩)
  have happly {function : Token} {arguments : List Node}
      (hmem : ∀ token ∈ (Node.apply (.callTarget function) arguments).inOrder, token.IsGenuine)
      (harguments : ∀ argument ∈ arguments,
        (∀ token ∈ argument.inOrder, token.IsGenuine) → argument.IsGenuine) :
      (Node.apply (.callTarget function) arguments).IsGenuine := by
    simp only [inOrder, Token.mem_around] at hmem
    exact .apply (hmem _ (.inl rfl)) (heach harguments fun token htoken ↦ hmem token (.inr htoken))
  induction h with
  | atom _ => exact .atom (htokens _ (List.mem_singleton_self _))
  | call _ _ ih => exact happly htokens ih
  | sign _ _ _ ih => exact happly htokens (List.forall_mem_singleton.mpr ih)
  | operation _ _ _ _ _ ihleft ihright =>
    exact happly htokens (List.forall_mem_cons.mpr ⟨ihleft, List.forall_mem_singleton.mpr ihright⟩)
  | vector _ _ ih => exact .vector (heach ih htokens)
  | set _ _ ih => exact .set (heach ih htokens)

theorem IsRelation.isGenuineRelation {node : Node} (h : node.IsRelation)
    (htokens : ∀ token ∈ node.inOrder, token.IsGenuine) : node.IsGenuineRelation := by
  cases h with
  | relation _ hleft hright =>
  rw [inOrder, List.forall_mem_append, List.forall_mem_cons] at htokens
  exact .relation htokens.2.1 (hleft.isGenuine htokens.1) (hright.isGenuine htokens.2.2)

end Node

/-! ### Sources -/

namespace Grammar

theorem Statement.isGenuineStatement (statement : Statement)
    (h : ∀ token ∈ statement.tokens, token.lexeme.toList ∈ lexemes token.kind) :
    statement.node.IsGenuineStatement := by
  rcases statement.eq_empty_or_isRelation with hempty | hrelation
  · exact .inl hempty
  · refine .inr (hrelation.isGenuineRelation fun token htoken ↦ ?_)
    rw [statement.inOrder, List.mem_filter] at htoken
    exact ⟨htoken.2, h token htoken.1⟩

end Grammar

/-- The tree of a source consists of genuine statements, the first of which may be empty. -/
theorem exists_statements_of_parseWithin {limit : Nat} {source : String} {node : Node}
    (h : parseWithin limit source = .ok node) :
    ∃ first others, node = ofStatements (first :: others) ∧
      (∀ statement ∈ first :: others, statement.IsGenuineStatement) ∧
      (first = .empty ∨ first.IsRelation) ∧ ∀ statement ∈ others, statement.IsRelation := by
  obtain ⟨statements, closing, htokenize, hinner, htaken, -, rfl⟩ :=
    exists_takenAll_of_parseWithin h
  have hlexemes : ∀ token ∈ tokensOf statements, token.lexeme.toList ∈ lexemes token.kind := by
    intro token htoken
    have hyielded : token ∈ (TokenStream.ofSource source).yielded := by
      rw [yielded_of_tokenize htokenize]
      exact List.mem_append_left _ htoken
    exact mem_lexemes_of_mem_yielded hyielded (hinner token htoken)
  have hgenuine : ∀ statement ∈ statements, statement.node.IsGenuineStatement :=
    fun statement hstatement ↦ statement.isGenuineStatement fun token htoken ↦
      hlexemes token (List.mem_flatMap.mpr ⟨statement, hstatement, htoken⟩)
  cases statements with
  | nil => exact ⟨.empty, [], rfl, List.forall_mem_singleton.mpr (.inl rfl), .inl rfl, nofun⟩
  | cons first others =>
    refine ⟨first.node, others.map Statement.node, rfl, ?_, first.eq_empty_or_isRelation, ?_⟩
    · rw [← List.map_cons, List.forall_mem_map]
      exact hgenuine
    · rw [List.forall_mem_map]
      exact fun statement hmem ↦
        Statement.isRelation_of_not_isBlank (htaken.not_isBlank statement hmem)

end Formula
