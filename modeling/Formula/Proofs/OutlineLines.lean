import Mathlib.Data.List.Forall2
import Formula.Proofs.GenuineTrees
import Formula.Proofs.Walks

/-!
# The lines of an outline

An outline has one line for each node of its tree, in preorder: two spaces for each level, the icon
of the node's kind and the label, if there is one, up to the width (`toList_outline`). No line of
the tree of a source holds a line end itself (`not_mem_lineText`), so an outline can be cut into its
lines again. A line tells the level and the kind of its node whatever has become of the label
(`eq_of_lineText`), and the levels and kinds in preorder tell the shape of the tree
(`sameShape_of_marks`).
-/

set_option autoImplicit false
set_option relaxedAutoImplicit false

namespace Formula

open Lexicon Parse Text

/-- A token that trees keep has no line end in its lexeme. -/
theorem Token.IsGenuine.not_mem_lexeme {token : Token} (h : token.IsGenuine) :
    '\n' ∉ token.lexeme.toList := by
  obtain ⟨kind, lexeme, position⟩ := token
  obtain ⟨hkept, hmem⟩ := h
  cases kind with
  | identifier =>
    obtain ⟨first, rest, hlexeme, hfirst, hrest⟩ := mem_lexemes_identifier.mp hmem
    rw [hlexeme, List.mem_cons]
    rintro (rfl | hend)
    · exact absurd hfirst (by decide)
    · exact absurd (hrest _ hend) (by decide)
  | number =>
    obtain ⟨first, digits, fraction, hlexeme, hfirst, hdigits, hfraction⟩ :=
      mem_lexemes_number.mp hmem
    have hnot {character : Char} (h : character.isDigit) : '\n' ≠ character := by
      rintro rfl
      exact absurd h (by decide)
    have hpoint : '\n' ∉ fraction := by
      rcases hfraction with rfl | ⟨others, rfl, hothers⟩
      · exact List.not_mem_nil
      · simpa using fun hend ↦ hnot (hothers _ hend) rfl
    rw [hlexeme, List.mem_cons, List.mem_append]
    rintro (hend | hend | hend)
    · exact hnot hfirst hend
    · exact hnot (hdigits _ hend) rfl
    · exact hpoint hend
  | operator symbol =>
    rw [Set.mem_singleton_iff.mp hmem]
    cases symbol <;> decide
  | newLine => exact absurd hkept (not_isKept_of_isNewLine rfl)
  | endOfInput => exact hmem.elim
  | invalid => exact hmem.elim

namespace Node

/-! ### Lines -/

/-- The line of a node at a level, without its line end. -/
def lineText (width level : Nat) (node : Node) : List Char :=
  List.replicate (2 * level) ' ' ++ node.icon.toList ++
    if node.label.toList = [] then []
    else ' ' :: (node.label.toList.take width ++
      if width < node.label.toList.length then ['.', '.', '.'] else [])

/-- The lines of a tree that stands at a level, each with its line end. -/
def outlineText (width level : Nat) (node : Node) : List Char :=
  (node.levelled level).flatMap fun entry ↦ entry.2.lineText width entry.1 ++ ['\n']

theorem toList_cut (width : Nat) (label : String) :
    (cut width label).toList = label.toList.take width ++
      if width < label.toList.length then ['.', '.', '.'] else [] := by
  unfold cut
  split
  · rw [String.toList_append, String.toList_ofList]
    rfl
  · next h => rw [List.append_nil, List.take_of_length_le (Nat.le_of_not_lt h)]

theorem cut_isEmpty (width : Nat) (label : String) :
    (cut width label).isEmpty = true ↔ label.toList = [] := by
  rw [String.isEmpty_iff, ← String.toList_eq_nil_iff, toList_cut]
  constructor
  · intro h
    obtain ⟨htake, hdots⟩ := List.append_eq_nil_iff.mp h
    by_cases hwidth : width < label.toList.length
    · rw [if_pos hwidth] at hdots
      cases hdots
    · rwa [List.take_of_length_le (Nat.le_of_not_lt hwidth)] at htake
  · intro h
    simp [h]

theorem toList_outlineLine (width level : Nat) (node : Node) :
    (outlineLine width level node).toList = node.lineText width level ++ ['\n'] := by
  unfold outlineLine lineText
  simp only [cut_isEmpty, String.toList_append, String.toList_ofList]
  split
  · simp
  · simp [toList_cut]

/-! ### The lines of a walk -/

theorem outlineText_eq (width level : Nat) (node : Node) :
    node.outlineText width level = node.lineText width level ++ '\n' ::
      node.parts.flatMap (outlineText width (level + 1)) := by
  rw [outlineText, levelled_eq, List.flatMap_cons, List.flatMap_assoc, List.append_assoc]
  rfl

theorem toList_lines_acceptAll {width : Nat} {nodes : List Node}
    (h : ∀ node ∈ nodes, ∀ outline, (node.accept (outliner width) outline).lines.toList =
      outline.lines.toList ++ node.outlineText width outline.level) (outline : Outline) :
    (acceptAll (outliner width) nodes outline).lines.toList =
      outline.lines.toList ++ nodes.flatMap (outlineText width outline.level) := by
  induction nodes generalizing outline with
  | nil => rw [List.flatMap_nil, List.append_nil, acceptAll]
  | cons node others ih =>
    obtain ⟨hnode, hothers⟩ := List.forall_mem_cons.mp h
    rw [acceptAll, ih hothers, hnode, level_accept, List.flatMap_cons, List.append_assoc]

/-- A walk adds the lines of its tree to an outline. -/
theorem toList_lines_accept (width : Nat) (node : Node) (outline : Outline) :
    (node.accept (outliner width) outline).lines.toList =
      outline.lines.toList ++ node.outlineText width outline.level := by
  induction node using induction_parts generalizing outline with
  | step node ih =>
    have hentered : ((outliner width).enter node outline).lines.toList =
        outline.lines.toList ++ (node.lineText width outline.level ++ ['\n']) := by
      rw [← toList_outlineLine, ← String.toList_append]
      rfl
    by_cases hempty : node = .empty
    · subst hempty
      rw [outlineText_eq]
      exact hentered
    · have hleft (outline : Outline) : ((outliner width).leave node outline).lines =
          outline.lines := rfl
      have hparts : node.parts.flatMap (outlineText width
            ((outliner width).enter node outline).level) =
          node.parts.flatMap (outlineText width (outline.level + 1)) := by
        cases node <;> rfl
      rw [accept_of_ne_empty hempty, hleft, toList_lines_acceptAll ih, hentered, hparts,
        outlineText_eq]
      simp only [List.append_assoc, List.singleton_append]

theorem toList_outline (width : Nat) (node : Node) :
    (node.outline width).toList = node.outlineText width 0 :=
  toList_lines_accept width node {}

/-! ### Line ends -/

theorem not_mem_displayAll {nodes : List Node} (h : ∀ node ∈ nodes, '\n' ∉ node.display.toList) :
    '\n' ∉ (", ".intercalate (displayAll nodes)).toList := by
  rw [displayAll_eq_map, String.toList_intercalate, List.map_map]
  cases nodes with
  | nil => exact List.not_mem_nil
  | cons first others =>
    obtain ⟨hfirst, hothers⟩ := List.forall_mem_cons.mp h
    rw [intercalate_map_cons]
    simpa [hfirst] using hothers

theorem IsGenuine.not_mem_display {node : Node} (h : node.IsGenuine) :
    '\n' ∉ node.display.toList := by
  induction h with
  | atom hoperand => exact hoperand.not_mem_lexeme
  | apply hfunction _ ih =>
    have hfunction := hfunction.not_mem_lexeme
    have harguments := not_mem_displayAll ih
    simp_all [display, Atom.lexeme, Atom.callTarget]
  | vector _ ih =>
    have helements := not_mem_displayAll ih
    simp_all [display]
  | set _ ih =>
    have helements := not_mem_displayAll ih
    simp_all [display]

theorem not_mem_counted {count : Nat} {singular plural : String}
    (hsingular : '\n' ∉ singular.toList) (hplural : '\n' ∉ plural.toList) :
    '\n' ∉ (counted count singular plural).toList := by
  unfold counted
  split
  · simpa using hsingular
  · have hdigits : '\n' ∉ Nat.toDigits 10 count := fun hmem ↦
      absurd (Nat.isDigit_of_mem_toDigits (by decide) (by decide) hmem) (by decide)
    simpa [hdigits] using hplural

/-- Whether no label in a tree holds a line end. -/
def HasLineLabels (node : Node) : Prop :=
  ∀ level, ∀ entry ∈ node.levelled level, '\n' ∉ entry.2.label.toList

theorem hasLineLabels_of_parts {node : Node} (hnode : '\n' ∉ node.label.toList)
    (hparts : ∀ part ∈ node.parts, part.HasLineLabels) : node.HasLineLabels := by
  intro level
  rw [levelled_eq, List.forall_mem_cons]
  refine ⟨hnode, fun entry hentry ↦ ?_⟩
  obtain ⟨part, hpart, hmem⟩ := List.mem_flatMap.mp hentry
  exact hparts part hpart (level + 1) entry hmem

theorem IsGenuine.hasLineLabels {node : Node} (h : node.IsGenuine) : node.HasLineLabels := by
  induction h with
  | atom hoperand => exact hasLineLabels_of_parts hoperand.not_mem_lexeme (List.forall_mem_nil _)
  | apply hfunction _ ih =>
    refine hasLineLabels_of_parts ?_ ih
    have hfunction := hfunction.not_mem_lexeme
    have hcount (count : Nat) : '\n' ∉ (counted count "arg" "args").toList :=
      not_mem_counted (by decide) (by decide)
    simp_all [label, Atom.lexeme, Atom.callTarget]
  | vector _ ih =>
    exact hasLineLabels_of_parts (not_mem_counted (by decide) (by decide)) ih
  | set _ ih =>
    exact hasLineLabels_of_parts (not_mem_counted (by decide) (by decide)) ih

theorem IsGenuineStatement.hasLineLabels {node : Node} (h : node.IsGenuineStatement) :
    node.HasLineLabels := by
  rcases h with rfl | ⟨hoperator, hleft, hright⟩
  · exact hasLineLabels_of_parts List.not_mem_nil (List.forall_mem_nil _)
  · refine hasLineLabels_of_parts ?_ (List.forall_mem_cons.mpr
      ⟨hleft.hasLineLabels, List.forall_mem_singleton.mpr hright.hasLineLabels⟩)
    have hoperator := hoperator.not_mem_lexeme
    have hleft := hleft.not_mem_display
    have hright := hright.not_mem_display
    simp_all [label, display, Atom.lexeme, Atom.callTarget]

theorem hasLineLabels_ofStatements {statements : List Node}
    (h : ∀ statement ∈ statements, statement.IsGenuineStatement) :
    (ofStatements statements).HasLineLabels := by
  match statements with
  | [] => exact hasLineLabels_of_parts List.not_mem_nil (List.forall_mem_nil _)
  | [only] => exact (h only List.mem_cons_self).hasLineLabels
  | first :: second :: others =>
    exact hasLineLabels_of_parts (not_mem_counted (by decide) (by decide))
      fun part hpart ↦ (h part hpart).hasLineLabels

theorem exists_icon (node : Node) :
    ∃ icon, node.icon.toList = [icon] ∧ icon ≠ ' ' ∧ icon ≠ '\n' := by
  cases node with
  | sequence => exact ⟨'⧉', by rw [icon]; simp, by decide, by decide⟩
  | relation => exact ⟨'≟', by rw [icon]; simp, by decide, by decide⟩
  | apply => exact ⟨'ƒ', by rw [icon]; simp, by decide, by decide⟩
  | atom => exact ⟨'◦', by rw [icon]; simp, by decide, by decide⟩
  | vector => exact ⟨'⟦', by rw [icon]; simp, by decide, by decide⟩
  | set => exact ⟨'⦃', by rw [icon]; simp, by decide, by decide⟩
  | empty => exact ⟨'∅', by rw [icon]; simp, by decide, by decide⟩

/-- No line of the tree of a source holds a line end. -/
theorem not_mem_lineText {source : String} {node : Node} (h : parse source = .ok node)
    (width : Nat) : ∀ entry ∈ node.levelled 0, '\n' ∉ entry.2.lineText width entry.1 := by
  obtain ⟨first, others, rfl, hgenuine, -, -⟩ := exists_statements_of_parseWithin h
  intro entry hentry
  obtain ⟨icon, hicon, -, hend⟩ := entry.2.exists_icon
  have hlabel := hasLineLabels_ofStatements hgenuine 0 entry hentry
  have htake : '\n' ∉ entry.2.label.toList.take width :=
    fun hmem ↦ hlabel (List.mem_of_mem_take hmem)
  rw [lineText, hicon]
  split
  · simp [hend.symm]
  · split <;> simp [hend.symm, htake]

/-! ### Reading lines back -/

theorem typeName_eq_of_icon {first second : Node} (h : first.icon = second.icon) :
    first.typeName = second.typeName := by
  cases first <;> cases second <;> first | rfl | simp [icon] at h

/-- A line tells the level and the kind of its node, whatever its label is. -/
theorem eq_of_lineText {width firstLevel secondLevel : Nat} {first second : Node}
    (h : first.lineText width firstLevel = second.lineText width secondLevel) :
    firstLevel = secondLevel ∧ first.typeName = second.typeName := by
  obtain ⟨firstIcon, hfirst, hfirstNe, -⟩ := first.exists_icon
  obtain ⟨secondIcon, hsecond, hsecondNe, -⟩ := second.exists_icon
  have hblank (count : Nat) : ∀ character ∈ List.replicate count ' ', (character == ' ') = true :=
    fun _ hmem ↦ beq_iff_eq.mpr (List.eq_of_mem_replicate hmem)
  have hicon {icon : Char} (hne : icon ≠ ' ') (rest : List Char) :
      StartsWithout (· == ' ') ([icon] ++ rest) :=
    startsWithout_cons (by simpa using hne)
  -- the indentation ends where the icon stands
  rw [lineText, lineText, hfirst, hsecond, List.append_assoc, List.append_assoc] at h
  obtain ⟨hindent, hmore⟩ := eq_of_startsWithout (hblank _) (hblank _) (hicon hfirstNe _)
    (hicon hsecondNe _) h
  constructor
  · have hlength := congrArg List.length hindent
    rw [List.length_replicate, List.length_replicate] at hlength
    omega
  · apply typeName_eq_of_icon
    rw [← String.toList_inj, hfirst, hsecond, (List.cons.inj hmore).1]

theorem decodes_lineText {width : Nat} {first second : Nat × Node}
    (hfirst : '\n' ∉ first.2.lineText width first.1)
    (hsecond : '\n' ∉ second.2.lineText width second.1) :
    Decodes (fun entry : Nat × Node ↦ entry.2.lineText width entry.1 ++ ['\n'])
      (fun entry ↦ (entry.1, entry.2.typeName)) (fun _ ↦ True) first second := by
  intro firstRest secondRest _ _ h
  simp only [List.append_assoc] at h
  have hinside {text : List Char} (htext : '\n' ∉ text) :
      ∀ character ∈ text, (character != '\n') = true := by
    rintro character hmem
    exact bne_iff_ne.mpr fun heq ↦ htext (heq ▸ hmem)
  have hend (rest : List Char) : StartsWithout (· != '\n') (['\n'] ++ rest) :=
    startsWithout_cons (by decide)
  obtain ⟨hline, hrest⟩ := eq_of_startsWithout (hinside hfirst) (hinside hsecond)
    (hend firstRest) (hend secondRest) h
  obtain ⟨hlevel, htype⟩ := eq_of_lineText hline
  exact ⟨Prod.ext hlevel htype, List.append_cancel_left hrest⟩

/-! ### Shapes -/

/-- Whether two trees have the same kinds of nodes in the same places. -/
inductive SameShape : Node → Node → Prop
  | node {first second : Node} :
      first.typeName = second.typeName →
      List.Forall₂ SameShape first.parts second.parts →
      SameShape first second

/-- The levels and the kinds of the nodes of a tree in preorder. -/
def marks (level : Nat) (node : Node) : List (Nat × String) :=
  (node.levelled level).map fun entry ↦ (entry.1, entry.2.typeName)

theorem marks_eq (level : Nat) (node : Node) :
    node.marks level = (level, node.typeName) :: node.parts.flatMap (marks (level + 1)) := by
  rw [marks, levelled_eq, List.map_cons, List.map_flatMap]
  rfl

/-- Whether what stands behind the parts of a node at a level belongs to none of them. -/
def Closes (level : Nat) (rest : List (Nat × String)) : Prop :=
  ∀ mark ∈ rest.head?, mark.1 ≤ level

/-- Marks of trees that stand at the same level can be told apart, if those of each tree can. -/
theorem forall₂_of_marks {level : Nat} {firsts seconds : List Node}
    {firstRest secondRest : List (Nat × String)}
    (hparts : ∀ first ∈ firsts, ∀ second firstRest secondRest,
      Closes (level + 1) firstRest → Closes (level + 1) secondRest →
      first.marks (level + 1) ++ firstRest = second.marks (level + 1) ++ secondRest →
      SameShape first second ∧ firstRest = secondRest)
    (hfirst : Closes level firstRest) (hsecond : Closes level secondRest)
    (h : firsts.flatMap (marks (level + 1)) ++ firstRest =
      seconds.flatMap (marks (level + 1)) ++ secondRest) :
    List.Forall₂ SameShape firsts seconds ∧ firstRest = secondRest := by
  have hopen {node : Node} {rest more : List (Nat × String)} (hrest : Closes level rest) :
      rest ≠ node.marks (level + 1) ++ more := by
    rintro rfl
    rw [marks_eq] at hrest
    exact absurd (hrest _ rfl) (Nat.not_succ_le_self level)
  have hcloses {others : List Node} {rest : List (Nat × String)} (hrest : Closes level rest) :
      Closes (level + 1) (others.flatMap (marks (level + 1)) ++ rest) := by
    intro mark hmark
    cases others with
    | nil => exact Nat.le_succ_of_le (hrest mark hmark)
    | cons other others =>
      rw [List.flatMap_cons, marks_eq] at hmark
      obtain rfl := Option.some.inj hmark
      exact Nat.le_refl _
  induction firsts generalizing seconds with
  | nil =>
    cases seconds with
    | nil => exact ⟨.nil, h⟩
    | cons second seconds =>
      rw [List.flatMap_cons, List.append_assoc] at h
      exact absurd h (hopen hfirst)
  | cons first firsts ih =>
    cases seconds with
    | nil =>
      rw [List.flatMap_cons, List.append_assoc] at h
      exact absurd h.symm (hopen hsecond)
    | cons second seconds =>
      obtain ⟨hhead, hothers⟩ := List.forall_mem_cons.mp hparts
      rw [List.flatMap_cons, List.flatMap_cons, List.append_assoc, List.append_assoc] at h
      obtain ⟨hshape, hrest⟩ := hhead second _ _ (hcloses hfirst) (hcloses hsecond) h
      obtain ⟨hshapes, hends⟩ := ih hothers hrest
      exact ⟨.cons hshape hshapes, hends⟩

/-- The marks of a tree tell its shape, also with other marks behind them that close it. -/
theorem sameShape_of_marks {level : Nat} {first second : Node}
    {firstRest secondRest : List (Nat × String)}
    (hfirst : Closes level firstRest) (hsecond : Closes level secondRest)
    (h : first.marks level ++ firstRest = second.marks level ++ secondRest) :
    SameShape first second ∧ firstRest = secondRest := by
  induction first using induction_parts generalizing level second firstRest secondRest with
  | step first ih =>
    rw [marks_eq, marks_eq, List.cons_append, List.cons_append] at h
    obtain ⟨hmark, hparts⟩ := List.cons.inj h
    obtain ⟨hshapes, hrest⟩ := forall₂_of_marks
      (fun part hpart _ _ _ hclosed hotherClosed ↦ ih part hpart hclosed hotherClosed)
      hfirst hsecond hparts
    exact ⟨.node (Prod.mk.inj hmark).2 hshapes, hrest⟩

/-! ### Outlines of sources -/

/-- The outline of the tree of a source consists of one line for each node in preorder, none of
which holds a line end. So two sources with the same outline have trees of the same shape, whatever
the width is and wherever labels are cut. -/
theorem outline_lines {source : String} {node : Node} (h : parse source = .ok node) (width : Nat) :
    (node.outline width).toList =
      ((node.levelled 0).flatMap fun entry ↦ entry.2.lineText width entry.1 ++ ['\n']) ∧
    (∀ entry ∈ node.levelled 0, '\n' ∉ entry.2.lineText width entry.1) ∧
    ∀ (otherSource : String) (other : Node), parse otherSource = .ok other →
      node.outline width = other.outline width → SameShape node other := by
  refine ⟨node.toList_outline width, not_mem_lineText h width, ?_⟩
  intro otherSource other hother houtline
  have hlines : node.outlineText width 0 = other.outlineText width 0 := by
    rw [← toList_outline, ← toList_outline, houtline]
  have hmarks : node.marks 0 = other.marks 0 :=
    eq_of_flatMap
      (fun first hfirst second hsecond ↦ decodes_lineText (not_mem_lineText h width first hfirst)
        (not_mem_lineText hother width second hsecond))
      (fun _ ↦ List.append_ne_nil_of_right_ne_nil _ (List.cons_ne_nil _ _)) hlines
  exact (sameShape_of_marks (nofun : Closes 0 []) (nofun : Closes 0 [])
    (congrArg (· ++ []) hmarks)).1

theorem outline_lines_narrow :
    ∃ node other, parse "\nx = f(1, [2])" = .ok node ∧ parse "\ny = g(10, [z])" = .ok other ∧
      node.outline 0 = other.outline 0 ∧ SameShape node other := by
  obtain ⟨node, hnode⟩ : ∃ node, parse "\nx = f(1, [2])" = .ok node := ⟨_, by cbv⟩
  obtain ⟨other, hother⟩ : ∃ other, parse "\ny = g(10, [z])" = .ok other := ⟨_, by cbv⟩
  have houtline : (parse "\nx = f(1, [2])").map (outline 0) =
      (parse "\ny = g(10, [z])").map (outline 0) := by decide +kernel
  rw [hnode, hother] at houtline
  have houtline := Except.ok.inj houtline
  exact ⟨node, other, hnode, hother, houtline,
    (outline_lines hnode 0).2.2 _ other hother houtline⟩

end Node

end Formula
