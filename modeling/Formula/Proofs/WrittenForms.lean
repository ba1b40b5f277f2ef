import Mathlib.Tactic.TFAE
import Formula.Proofs.BracketedForm
import Formula.Tree.CallForm
import Formula.Tree.Display

/-!
# Written forms lose only positions

The structural form and the call form of the tree of a source tell which tree it was, up to the
positions of its tokens (`writtenForms_tfae`). Expressions are written between brackets
(`displayForm`, `renderForm`), each relation on a line of its own, and the empty statement as an
empty line. The call form has to name its wrappers by identifiers that can be told apart.
-/

set_option autoImplicit false
set_option relaxedAutoImplicit false

namespace Formula

open Grammar Lexicon Parse Text

/-! ### The structural form -/

theorem Token.IsGenuine.append_ne_bracket {token : Token} (h : token.IsGenuine) {bracket : Char}
    (hbracket : bracket ∈ ['[', '\x7b']) (rest more : List Char) :
    token.lexeme.toList ++ rest ≠ bracket :: more := by
  obtain ⟨first, others, hlexeme, hfirst⟩ := h.exists_cons
  rw [hlexeme, List.cons_append]
  rintro ⟨⟩
  simp_all

namespace Node

/-- What the structural form of a node begins with. -/
def displayOpening : Node → List Char
  | .atom leaf => leaf.lexeme.toList
  | .apply function _ => function.lexeme.toList ++ ['(']
  | .vector _ => ['[']
  | .set _ => ['\x7b']
  | .relation .. | .sequence _ | .empty => []

/-- What the structural form of a node ends in. -/
def displayClosing : Node → List Char
  | .apply .. => [')']
  | .vector _ => [']']
  | .set _ => ['\x7d']
  | .atom _ | .relation .. | .sequence _ | .empty => []

theorem toList_intercalate_map (write : Node → String) (nodes : List Node) :
    (", ".intercalate (nodes.map write)).toList =
      [',', ' '].intercalate (nodes.map fun node ↦ (write node).toList) := by
  rw [String.toList_intercalate, List.map_map]
  rfl

theorem IsGenuine.display_eq {node : Node} (h : node.IsGenuine) : node.display.toList =
    node.displayOpening ++ ([',', ' '].intercalate
      (node.children.map fun child ↦ child.display.toList) ++ node.heading.displayClosing) := by
  cases h <;> simp [display, displayOpening, displayClosing, heading, children, displayAll_eq_map,
    ← toList_intercalate_map, Atom.lexeme]

theorem joins_of_goesOn : ∀ character, Token.joins character → goesOn character := by
  intro character h
  rw [goesOn, h, Bool.true_or]

theorem startsWithout_joins_paren (rest : List Char) : StartsWithout Token.joins ('(' :: rest) :=
  startsWithout_cons (by decide)

theorem ne_paren_of_startsWithout {rest more : List Char} (h : StartsWithout goesOn rest) :
    rest ≠ '(' :: more := by
  rintro rfl
  exact h '(' rfl (by decide)

theorem IsGenuine.exists_displayOpening_cons {node : Node} (h : node.IsGenuine) :
    ∃ first rest, node.displayOpening = first :: rest ∧ first ∉ closers ∧ first ≠ '\n' := by
  cases h with
  | atom hoperand =>
    obtain ⟨first, rest, h⟩ := hoperand.exists_append_cons []
    rw [List.append_nil] at h
    exact ⟨first, rest, h⟩
  | apply hfunction => exact hfunction.exists_append_cons ['(']
  | vector => exact ⟨_, _, rfl, by decide⟩
  | set => exact ⟨_, _, rfl, by decide⟩

theorem IsGenuine.heading_eq_of_displayOpening {first second : Node} (hfirst : first.IsGenuine)
    (hsecond : second.IsGenuine) (firstRest secondRest : List Char)
    (hfirstRest : first.isLeaf → StartsWithout goesOn firstRest)
    (hsecondRest : second.isLeaf → StartsWithout goesOn secondRest)
    (h : first.displayOpening ++ firstRest = second.displayOpening ++ secondRest) :
    first.heading = second.heading ∧ firstRest = secondRest := by
  cases hfirst with
  | atom hoperand =>
    have hends := (hfirstRest rfl).mono joins_of_goesOn
    cases hsecond with
    | atom hother =>
      obtain ⟨htoken, hrest⟩ := Token.decodes_lexeme hoperand.mem_lexemes hother.mem_lexemes
        _ _ hends ((hsecondRest rfl).mono joins_of_goesOn) h
      exact ⟨congrArg (fun token ↦ Node.atom (.value token)) htoken, hrest⟩
    | apply hfunction =>
      rw [displayOpening, displayOpening, List.append_assoc] at h
      obtain ⟨-, hrest⟩ := Token.decodes_lexeme hoperand.mem_lexemes hfunction.mem_lexemes
        _ _ hends (startsWithout_joins_paren _) h
      exact absurd hrest (ne_paren_of_startsWithout (hfirstRest rfl))
    | vector => exact absurd h (hoperand.append_ne_bracket (by decide) _ _)
    | set => exact absurd h (hoperand.append_ne_bracket (by decide) _ _)
  | apply hfunction =>
    rw [displayOpening, List.append_assoc] at h
    cases hsecond with
    | atom hother =>
      obtain ⟨-, hrest⟩ := Token.decodes_lexeme hfunction.mem_lexemes hother.mem_lexemes
        _ _ (startsWithout_joins_paren _) ((hsecondRest rfl).mono joins_of_goesOn) h
      exact absurd hrest.symm (ne_paren_of_startsWithout (hsecondRest rfl))
    | apply hother =>
      rw [displayOpening, List.append_assoc] at h
      obtain ⟨htoken, hrest⟩ := Token.decodes_lexeme hfunction.mem_lexemes hother.mem_lexemes
        _ _ (startsWithout_joins_paren _) (startsWithout_joins_paren _) h
      exact ⟨congrArg (fun token ↦ Node.apply (.callTarget token) []) htoken,
        List.tail_eq_of_cons_eq hrest⟩
    | vector => exact absurd h (hfunction.append_ne_bracket (by decide) _ _)
    | set => exact absurd h (hfunction.append_ne_bracket (by decide) _ _)
  | vector =>
    cases hsecond with
    | atom hother => exact absurd h.symm (hother.append_ne_bracket (by decide) _ _)
    | apply hother =>
      rw [displayOpening, displayOpening, List.append_assoc] at h
      exact absurd h.symm (hother.append_ne_bracket (by decide) _ _)
    | vector => exact ⟨rfl, List.append_cancel_left h⟩
    | set => cases h
  | set =>
    cases hsecond with
    | atom hother => exact absurd h.symm (hother.append_ne_bracket (by decide) _ _)
    | apply hother =>
      rw [displayOpening, displayOpening, List.append_assoc] at h
      exact absurd h.symm (hother.append_ne_bracket (by decide) _ _)
    | vector => cases h
    | set => exact ⟨rfl, List.append_cancel_left h⟩

theorem displayClosing_heading_of_isLeaf {node : Node} (h : node.isLeaf) :
    node.heading.displayClosing = [] := by
  cases node with
  | atom => rfl
  | _ => exact absurd h Bool.false_ne_true

theorem IsGenuine.exists_displayClosing {node : Node} (h : node.IsGenuine) (hleaf : ¬ node.isLeaf) :
    ∃ closer ∈ closers, node.heading.displayClosing = [closer] := by
  cases h with
  | atom => exact absurd rfl hleaf
  | apply | vector | set => exact ⟨_, by decide, rfl⟩

end Node

/-- The structural form writes trees between brackets. -/
def displayForm : BracketedForm where
  text node := node.display.toList
  opening := Node.displayOpening
  closing := Node.displayClosing
  text_eq _ := Node.IsGenuine.display_eq
  closing_leaf _ := Node.displayClosing_heading_of_isLeaf
  closing_list _ := Node.IsGenuine.exists_displayClosing
  exists_opening_cons _ := Node.IsGenuine.exists_displayOpening_cons
  heading_eq _ _ := Node.IsGenuine.heading_eq_of_displayOpening

/-! ### The call form -/

/-- The names around functions, values, vectors and sets. -/
def Naming.names (naming : Naming) : List String :=
  [naming.functionWrapper, naming.atomWrapper, naming.vectorName, naming.setName]

/-- The choices with which a call form can be read back: operators are named by their lexemes, and
the names of the form are identifiers, no two of them the same. -/
structure Naming.IsReadable (naming : Naming) : Prop where
  operatorStyle_eq : naming.operatorStyle = .lexeme
  mem_lexemes : ∀ name ∈ naming.names, name.toList ∈ lexemes .identifier
  nodup : naming.names.Nodup

theorem Naming.isReadable_default : ({} : Naming).IsReadable where
  operatorStyle_eq := rfl
  mem_lexemes name hname := by
    have hfound : ∀ name ∈ ({} : Naming).names,
        Token.lexemeAt? name.toList = some (.identifier, name.toList) := by decide
    exact (Token.mem_lexemes_of_lexemeAt? (hfound name hname)).1
  nodup := by decide

/-- An atom in its wrapper, where operators are named by their lexemes. -/
theorem Atom.render_eq {naming : Naming} (h : naming.operatorStyle = .lexeme) (atom : Atom) :
    atom.render naming =
      (if atom.isCallTarget then naming.functionWrapper else naming.atomWrapper) ++
        "(\"" ++ atom.lexeme ++ "\")" := by
  simp [Atom.render, h]

/-- A lexeme between quotes and parentheses. -/
def Token.enclosed (token : Token) : List Char :=
  ['(', '"'] ++ token.lexeme.toList ++ ['"', ')']

theorem Token.decodes_enclosed {first second : Token}
    (hfirst : first.lexeme.toList ∈ lexemes first.kind)
    (hsecond : second.lexeme.toList ∈ lexemes second.kind) :
    Decodes Token.enclosed Token.unplaced (fun _ ↦ True) first second := by
  intro firstRest secondRest _ _ h
  have hquote (rest : List Char) : StartsWithout Token.joins ('"' :: rest) :=
    startsWithout_cons (by decide)
  simp only [Token.enclosed, List.cons_append, List.append_assoc, List.nil_append,
    List.cons_inj_right] at h
  obtain ⟨htoken, hrest⟩ := Token.decodes_lexeme hfirst hsecond _ _ (hquote _) (hquote _) h
  exact ⟨htoken, by simpa using hrest⟩

namespace Node

variable {naming : Naming}

/-- The name that the call form of a node begins with. -/
def wrapper (naming : Naming) : Node → String
  | .apply .. => naming.functionWrapper
  | .vector _ => naming.vectorName
  | .set _ => naming.setName
  | .atom _ | .relation .. | .sequence _ | .empty => naming.atomWrapper

/-- What the call form of a node begins with behind its wrapper. -/
def renderOpening (naming : Naming) : Node → List Char
  | .atom leaf => leaf.token.enclosed
  | .apply function _ => function.token.enclosed ++ ('.' :: naming.applyMethod.toList ++ ['('])
  | .vector _ | .set _ | .relation .. | .sequence _ | .empty => ['(']

/-- What the call form of a node ends in. -/
def renderClosing : Node → List Char
  | .atom _ => []
  | .apply .. | .vector _ | .set _ | .relation .. | .sequence _ | .empty => [')']

theorem IsGenuine.render_eq (hnaming : naming.IsReadable) {node : Node} (h : node.IsGenuine) :
    (node.render naming).toList = ((node.wrapper naming).toList ++ node.renderOpening naming) ++
      ([',', ' '].intercalate (node.children.map fun child ↦ (child.render naming).toList) ++
        node.heading.renderClosing) := by
  cases h <;>
    simp [render, wrapper, renderOpening, renderClosing, heading, children, renderAll_eq_map,
      ← toList_intercalate_map, Token.enclosed, Atom.lexeme,
      Atom.render_eq hnaming.operatorStyle_eq, Atom.value, Atom.callTarget]

theorem wrapper_mem_names (naming : Naming) (node : Node) : node.wrapper naming ∈ naming.names := by
  cases node <;> simp [wrapper, Naming.names]

theorem exists_renderOpening_cons (naming : Naming) (node : Node) :
    ∃ rest, node.renderOpening naming = '(' :: rest := by
  cases node <;> exact ⟨_, rfl⟩

/-- Names that are identifiers can be read back in front of a parenthesis. -/
theorem name_eq_of_append (hnaming : naming.IsReadable) {first second : String}
    (hfirst : first ∈ naming.names) (hsecond : second ∈ naming.names)
    {firstRest secondRest : List Char}
    (h : first.toList ++ '(' :: firstRest = second.toList ++ '(' :: secondRest) :
    first = second ∧ firstRest = secondRest := by
  obtain ⟨htoken, hrest⟩ := @Token.decodes_lexeme (.identifier first 0) (.identifier second 0)
    (hnaming.mem_lexemes first hfirst) (hnaming.mem_lexemes second hsecond) _ _
    (startsWithout_joins_paren _) (startsWithout_joins_paren _) h
  exact ⟨congrArg Token.lexeme htoken, List.tail_eq_of_cons_eq hrest⟩

theorem IsGenuine.heading_eq_of_renderOpening (hnaming : naming.IsReadable) {first second : Node}
    (hfirst : first.IsGenuine) (hsecond : second.IsGenuine) (firstRest secondRest : List Char)
    (h : (first.wrapper naming).toList ++ first.renderOpening naming ++ firstRest =
      (second.wrapper naming).toList ++ second.renderOpening naming ++ secondRest) :
    first.heading = second.heading ∧ firstRest = secondRest := by
  have hwrapper : first.wrapper naming = second.wrapper naming := by
    obtain ⟨firstMore, hfirstOpening⟩ := exists_renderOpening_cons naming first
    obtain ⟨secondMore, hsecondOpening⟩ := exists_renderOpening_cons naming second
    rw [hfirstOpening, hsecondOpening, List.append_assoc, List.append_assoc] at h
    exact (name_eq_of_append hnaming (wrapper_mem_names naming first)
      (wrapper_mem_names naming second) h).1
  have hdistinct := hnaming.nodup
  simp only [Naming.names, List.nodup_cons, List.mem_cons, List.not_mem_nil, not_or,
    or_false] at hdistinct
  rw [hwrapper, List.append_assoc, List.append_assoc, List.append_cancel_left_eq] at h
  cases hfirst <;> cases hsecond
  case atom.atom hoperand _ hother =>
    obtain ⟨htoken, hrest⟩ := Token.decodes_enclosed hoperand.mem_lexemes hother.mem_lexemes
      _ _ trivial trivial h
    exact ⟨congrArg (fun token ↦ Node.atom (.value token)) htoken, hrest⟩
  case apply.apply _ _ hfunction _ _ _ hother _ =>
    simp only [renderOpening, List.append_assoc] at h
    obtain ⟨htoken, hrest⟩ := Token.decodes_enclosed hfunction.mem_lexemes hother.mem_lexemes
      _ _ trivial trivial h
    exact ⟨congrArg (fun token ↦ Node.apply (.callTarget token) []) htoken, by simpa using hrest⟩
  case vector.vector => exact ⟨rfl, List.append_cancel_left h⟩
  case set.set => exact ⟨rfl, List.append_cancel_left h⟩
  all_goals simp_all [wrapper]

theorem IsGenuine.exists_wrapper_cons (hnaming : naming.IsReadable) (node : Node) :
    ∃ first rest, (node.wrapper naming).toList ++ node.renderOpening naming = first :: rest ∧
      first ∉ closers ∧ first ≠ '\n' := by
  have hidentifier : (Token.identifier (node.wrapper naming) 0).IsGenuine :=
    ⟨rfl, hnaming.mem_lexemes _ (wrapper_mem_names naming node)⟩
  exact hidentifier.exists_append_cons _

theorem renderClosing_heading_of_isLeaf {node : Node} (h : node.isLeaf) :
    node.heading.renderClosing = [] := by
  cases node with
  | atom => rfl
  | _ => exact absurd h Bool.false_ne_true

theorem IsGenuine.exists_renderClosing {node : Node} (h : node.IsGenuine) (hleaf : ¬ node.isLeaf) :
    ∃ closer ∈ closers, node.heading.renderClosing = [closer] := by
  cases h with
  | atom => exact absurd rfl hleaf
  | apply | vector | set => exact ⟨_, by decide, rfl⟩

end Node

/-- The call form writes trees between parentheses. -/
def renderForm {naming : Naming} (h : naming.IsReadable) : BracketedForm where
  text node := (node.render naming).toList
  opening node := (node.wrapper naming).toList ++ node.renderOpening naming
  closing := Node.renderClosing
  text_eq _ := Node.IsGenuine.render_eq h
  closing_leaf _ := Node.renderClosing_heading_of_isLeaf
  closing_list _ := Node.IsGenuine.exists_renderClosing
  exists_opening_cons node _ := Node.IsGenuine.exists_wrapper_cons h node
  heading_eq _ _ hfirst hsecond firstRest secondRest _ _ :=
    hfirst.heading_eq_of_renderOpening h hsecond firstRest secondRest

/-! ### Programs -/

/-- Whether a character does not end a line. -/
def staysOnLine (character : Char) : Bool :=
  character != '\n'

theorem staysOnLine_of_goesOn : ∀ character, goesOn character → staysOnLine character := by
  intro character h
  rw [staysOnLine, bne_iff_ne]
  rintro rfl
  exact absurd h (by decide)

section

variable {write : Node → List Char}

/-- Statements can be read back at the end of a line if relations can be: what is written for a
relation begins with a character, and not with a line end. -/
theorem decodes_statement (hempty : write .empty = [])
    (hcons : ∀ node : Node, node.IsGenuineRelation →
      ∃ first rest, write node = first :: rest ∧ first ≠ '\n')
    (hrelation : ∀ first second : Node, first.IsGenuineRelation → second.IsGenuineRelation →
      Decodes write (Node.map Token.unplaced) (StartsWithout staysOnLine) first second)
    {first second : Node} (hfirst : first.IsGenuineStatement)
    (hsecond : second.IsGenuineStatement) :
    Decodes write (Node.map Token.unplaced) (StartsWithout staysOnLine) first second := by
  have hline {node : Node} (hnode : node.IsGenuineRelation) {rest more : List Char}
      (hrest : StartsWithout staysOnLine rest) : rest ≠ write node ++ more := by
    obtain ⟨start, others, hwrite, hstart⟩ := hcons node hnode
    rw [hwrite]
    rintro rfl
    exact hrest start rfl (bne_iff_ne.mpr hstart)
  rcases hfirst with rfl | hfirst
  · intro firstRest secondRest hfirstRest _ h
    rw [hempty, List.nil_append] at h
    rcases hsecond with rfl | hsecond
    · rw [hempty, List.nil_append] at h
      exact ⟨rfl, h⟩
    · exact absurd h (hline hsecond hfirstRest)
  · rcases hsecond with rfl | hsecond
    · intro firstRest secondRest _ hsecondRest h
      rw [hempty, List.nil_append] at h
      exact absurd h.symm (hline hfirst hsecondRest)
    · exact hrelation first second hfirst hsecond

/-- The statements of a program can be read back, each from its line. -/
theorem statements_eq_of_lines {κ : Type} {key : Node → κ} {firsts seconds : List Node}
    {first second : Node}
    (hjoined : ∀ nodes, write (ofStatements nodes) = ['\n'].intercalate (nodes.map write))
    (hdecodes : ∀ statement ∈ first :: firsts, ∀ other ∈ second :: seconds,
      Decodes write key (StartsWithout staysOnLine) statement other)
    (h : write (ofStatements (first :: firsts)) = write (ofStatements (second :: seconds))) :
    (first :: firsts).map key = (second :: seconds).map key := by
  have hlines : ∀ rest, StartsWithout staysOnLine (['\n'] ++ rest) :=
    fun _ ↦ startsWithout_cons (by decide)
  have hends : ¬ ['\n'] <+: [] := by simp
  rw [hjoined, hjoined] at h
  exact (eq_of_joined_cons hdecodes hlines (startsWithout_nil _) (startsWithout_nil _) hends hends
    (congrArg (· ++ []) h)).1

/-- The tree of a program can be read back up to positions if its statements can be. -/
theorem map_unplaced_eq_of_statements {firsts seconds : List Node} {first second : Node}
    (hjoined : ∀ nodes, write (ofStatements nodes) = ['\n'].intercalate (nodes.map write))
    (hdecodes : ∀ first second : Node, first.IsGenuineStatement → second.IsGenuineStatement →
      Decodes write (Node.map Token.unplaced) (StartsWithout staysOnLine) first second)
    (hfirsts : ∀ statement ∈ first :: firsts, statement.IsGenuineStatement)
    (hseconds : ∀ statement ∈ second :: seconds, statement.IsGenuineStatement)
    (h : write (ofStatements (first :: firsts)) = write (ofStatements (second :: seconds))) :
    (ofStatements (first :: firsts)).map Token.unplaced =
      (ofStatements (second :: seconds)).map Token.unplaced := by
  have hstatements := statements_eq_of_lines hjoined
    (fun statement hstatement other hother ↦
      hdecodes statement other (hfirsts statement hstatement) (hseconds other hother)) h
  rw [Node.map_ofStatements, Node.map_ofStatements, hstatements]

end

/-- A form that writes the statements of a sequence on lines writes those of a program so. -/
theorem toList_ofStatements {write : Node → String} (hempty : write .empty = "")
    (hsequence : ∀ nodes, write (.sequence nodes) = "\n".intercalate (nodes.map write))
    (nodes : List Node) : (write (ofStatements nodes)).toList =
      ['\n'].intercalate (nodes.map fun node ↦ (write node).toList) := by
  match nodes with
  | [] => simp [ofStatements, hempty]
  | [only] => simp [ofStatements]
  | first :: second :: others =>
    change (write (.sequence (first :: second :: others))).toList = _
    rw [hsequence, String.toList_intercalate, List.map_map]
    rfl

theorem toList_display_ofStatements (nodes : List Node) : (ofStatements nodes).display.toList =
    ['\n'].intercalate (nodes.map fun node ↦ node.display.toList) :=
  toList_ofStatements (by simp [Node.display])
    (fun nodes ↦ by rw [Node.display, Node.displayAll_eq_map]) nodes

theorem toList_display_relation (left right : Node) (operator : Atom) :
    (Node.relation left operator right).display.toList =
      left.display.toList ++ ' ' :: (operator.lexeme.toList ++ ' ' :: right.display.toList) := by
  simp [Node.display]

/-- Statements can be read back from the structural form. -/
theorem decodes_display {first second : Node} (hfirst : first.IsGenuineStatement)
    (hsecond : second.IsGenuineStatement) :
    Decodes (fun node ↦ node.display.toList) (Node.map Token.unplaced)
      (StartsWithout staysOnLine) first second := by
  refine decodes_statement (by simp [Node.display]) ?_ ?_ hfirst hsecond
  · rintro _ ⟨_, hleft, _⟩
    obtain ⟨start, rest, htext, -, hstart⟩ := displayForm.exists_text_cons hleft
    exact ⟨start, _, (toList_display_relation _ _ _).trans (congrArg (· ++ _) htext), hstart⟩
  · rintro _ _ ⟨hoperator, hleft, hright⟩ ⟨hother, hotherLeft, hotherRight⟩
    intro firstRest secondRest hfirstRest hsecondRest h
    simp only [toList_display_relation, List.append_assoc, List.cons_append] at h
    obtain ⟨hleftEq, h⟩ := displayForm.decodes hleft hotherLeft _ _
      (startsWithout_cons (by decide)) (startsWithout_cons (by decide)) h
    obtain ⟨hoperatorEq, h⟩ := Token.decodes_lexeme hoperator.mem_lexemes hother.mem_lexemes _ _
      (startsWithout_cons (by decide)) (startsWithout_cons (by decide))
      (List.tail_eq_of_cons_eq h)
    obtain ⟨hrightEq, h⟩ := displayForm.decodes hright hotherRight _ _
      (hfirstRest.mono staysOnLine_of_goesOn) (hsecondRest.mono staysOnLine_of_goesOn)
      (List.tail_eq_of_cons_eq h)
    refine ⟨?_, h⟩
    rw [Node.map, Node.map, hleftEq, hrightEq]
    exact congrArg (fun token ↦ Node.relation _ (.callTarget token) _) hoperatorEq

theorem toList_render_ofStatements (naming : Naming) (nodes : List Node) :
    ((ofStatements nodes).render naming).toList =
      ['\n'].intercalate (nodes.map fun node ↦ (node.render naming).toList) :=
  toList_ofStatements (by simp [Node.render])
    (fun nodes ↦ by rw [Node.render, Node.renderAll_eq_map]) nodes

theorem toList_render_relation {naming : Naming} (h : naming.IsReadable) (left right : Node)
    (operator : Token) : ((Node.relation left (.callTarget operator) right).render naming).toList =
      naming.functionWrapper.toList ++ (operator.enclosed ++ '(' :: ((left.render naming).toList ++
        ',' :: ' ' :: ((right.render naming).toList ++ [')']))) := by
  simp [Node.render, Atom.render_eq h.operatorStyle_eq, Atom.callTarget, Token.enclosed,
    Atom.lexeme]

/-- Statements can be read back from the call form. -/
theorem decodes_render {naming : Naming} (h : naming.IsReadable) {first second : Node}
    (hfirst : first.IsGenuineStatement) (hsecond : second.IsGenuineStatement) :
    Decodes (fun node ↦ (node.render naming).toList) (Node.map Token.unplaced)
      (StartsWithout staysOnLine) first second := by
  refine decodes_statement (by simp [Node.render]) ?_ ?_ hfirst hsecond
  · rintro _ ⟨_, _, _⟩
    have hidentifier : (Token.identifier naming.functionWrapper 0).IsGenuine :=
      ⟨rfl, h.mem_lexemes _ List.mem_cons_self⟩
    obtain ⟨start, rest, htext, -, hstart⟩ := hidentifier.exists_append_cons _
    exact ⟨start, rest, (toList_render_relation h _ _ _).trans htext, hstart⟩
  · rintro _ _ ⟨hoperator, hleft, hright⟩ ⟨hother, hotherLeft, hotherRight⟩
    intro firstRest secondRest hfirstRest hsecondRest htext
    simp only [toList_render_relation h, List.append_assoc, List.cons_append, List.nil_append,
      List.append_cancel_left_eq] at htext
    obtain ⟨hoperatorEq, htext⟩ := Token.decodes_enclosed hoperator.mem_lexemes
      hother.mem_lexemes _ _ trivial trivial htext
    obtain ⟨hleftEq, htext⟩ := (renderForm h).decodes hleft hotherLeft _ _
      (startsWithout_cons (by decide)) (startsWithout_cons (by decide))
      (List.tail_eq_of_cons_eq htext)
    obtain ⟨hrightEq, htext⟩ := (renderForm h).decodes hright hotherRight _ _
      (startsWithout_cons (by decide)) (startsWithout_cons (by decide))
      (List.tail_eq_of_cons_eq (List.tail_eq_of_cons_eq htext))
    refine ⟨?_, List.tail_eq_of_cons_eq htext⟩
    rw [Node.map, Node.map, hleftEq, hrightEq]
    exact congrArg (fun token ↦ Node.relation _ (.callTarget token) _) hoperatorEq

/-! ### Positions are not written -/

theorem map_mapAll {write other : Node → String} {relabel : Token → Token} {nodes : List Node}
    (h : ∀ node ∈ nodes, write (node.map relabel) = other node) :
    (Node.mapAll relabel nodes).map write = nodes.map other := by
  rw [Node.mapAll_eq_map, List.map_map]
  exact List.map_congr_left h

theorem display_map_unplaced (node : Node) : (node.map Token.unplaced).display = node.display := by
  induction node using Node.induction with
  | atom | empty => rfl
  | apply _ _ ih =>
    rw [Node.map, Node.display, Node.display, Node.displayAll_eq_map, Node.displayAll_eq_map,
      map_mapAll ih]
    rfl
  | vector _ ih | set _ ih | sequence _ ih =>
    rw [Node.map, Node.display, Node.display, Node.displayAll_eq_map, Node.displayAll_eq_map,
      map_mapAll ih]
  | relation _ _ _ ihleft ihright =>
    rw [Node.map, Node.display, Node.display, ihleft, ihright]
    rfl

theorem render_map_unplaced (naming : Naming) (node : Node) :
    (node.map Token.unplaced).render naming = node.render naming := by
  induction node using Node.induction with
  | atom | empty => rfl
  | apply _ _ ih =>
    rw [Node.map, Node.render, Node.render, Node.renderAll_eq_map, Node.renderAll_eq_map,
      map_mapAll ih]
    rfl
  | vector _ ih | set _ ih | sequence _ ih =>
    rw [Node.map, Node.render, Node.render, Node.renderAll_eq_map, Node.renderAll_eq_map,
      map_mapAll ih]
  | relation _ _ _ ihleft ihright =>
    rw [Node.map, Node.render, Node.render, ihleft, ihright]
    rfl

/-- Nothing but positions is lost in the structural form and in the call form, and the two forms
tell trees apart in the same way. -/
theorem writtenForms_tfae (naming : Naming) (hnaming : naming.IsReadable)
    (firstSource secondSource : String) (first second : Node)
    (hfirst : parse firstSource = .ok first) (hsecond : parse secondSource = .ok second) :
    [first.map Token.unplaced = second.map Token.unplaced,
      first.render naming = second.render naming, first.display = second.display].TFAE := by
  obtain ⟨firstHead, firstOthers, rfl, hfirsts, -, -⟩ := exists_statements_of_parseWithin hfirst
  obtain ⟨secondHead, secondOthers, rfl, hseconds, -, -⟩ := exists_statements_of_parseWithin hsecond
  tfae_have 1 → 2 := fun h ↦ by
    rw [← render_map_unplaced, h, render_map_unplaced]
  tfae_have 1 → 3 := fun h ↦ by
    rw [← display_map_unplaced, h, display_map_unplaced]
  tfae_have 2 → 1 := fun h ↦
    map_unplaced_eq_of_statements (toList_render_ofStatements naming)
      (fun _ _ ↦ decodes_render hnaming) hfirsts hseconds (congrArg String.toList h)
  tfae_have 3 → 1 := fun h ↦
    map_unplaced_eq_of_statements toList_display_ofStatements (fun _ _ ↦ decodes_display) hfirsts
      hseconds (congrArg String.toList h)
  tfae_finish

/-- A blank line makes a difference, blanks and comments do not. -/
theorem writtenForms_tfae_blankLine :
    ({} : Naming).IsReadable ∧
    ∃ first second other, parse "\n-f(x) = [1]" = .ok first ∧
      parse "\r - f( x)=[ 1 ] # c" = .ok second ∧ parse "-f(x) = [1]" = .ok other ∧
      first.map Token.unplaced = second.map Token.unplaced ∧
      first.render {} ≠ other.render {} := by
  obtain ⟨first, hfirst, hfirstText⟩ : ∃ node, parse "\n-f(x) = [1]" = .ok node ∧
      node.display = "\n-(f(x)) = [1]" := ⟨_, by cbv, by cbv⟩
  obtain ⟨second, hsecond, hsecondText⟩ : ∃ node, parse "\r - f( x)=[ 1 ] # c" = .ok node ∧
      node.display = "\n-(f(x)) = [1]" := ⟨_, by cbv, by cbv⟩
  obtain ⟨other, hother, hotherText⟩ : ∃ node, parse "-f(x) = [1]" = .ok node ∧
      node.display = "-(f(x)) = [1]" := ⟨_, by cbv, by cbv⟩
  have hsame := writtenForms_tfae {} Naming.isReadable_default _ _ _ _ hfirst hsecond
  have hdifferent := writtenForms_tfae {} Naming.isReadable_default _ _ _ _ hfirst hother
  refine ⟨Naming.isReadable_default, first, second, other, hfirst, hsecond, hother, ?_, ?_⟩
  · exact (hsame.out 0 2).mpr (hfirstText.trans hsecondText.symm)
  · intro hrender
    have hdisplay := (hdifferent.out 1 2).mp hrender
    rw [hfirstText, hotherText] at hdisplay
    exact absurd hdisplay (by decide)

end Formula
