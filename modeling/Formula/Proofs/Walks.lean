import Mathlib.Data.List.Basic
import Formula.Tree.Outline

/-!
# Walks

A walk tells a visitor about a tree in one order that the tree alone determines: whatever a visitor
does, its walk is a fold over the recorded steps (`accept_eq_foldl`). Those steps are the node, the
steps of its parts in source order and the node again (`steps_of_ne_empty`), or the empty statement
once. Hence the nodes that are entered are those of the tree in preorder (`filterMap_steps`), the
steps are a sequence of brackets in which every node is closed by itself (`balanced_steps`), and an
outline always is below its first level when it goes up by one (`Balanced.lt_level_of_leave`).
-/

set_option autoImplicit false
set_option relaxedAutoImplicit false

namespace Formula

/-- What a visitor does at one step of a walk. -/
def Visitor.at {σ : Type} (visitor : Visitor σ) (state : σ) : Node.Step → σ
  | .enter node => visitor.enter node state
  | .leave node => visitor.leave node state

namespace Node

variable {σ : Type} {node : Node}

/-! ### The parts of a node -/

/-- The trees right below a node, in source order. -/
def parts : Node → List Node
  | .apply _ arguments => arguments
  | .vector elements => elements
  | .set elements => elements
  | .relation left _ right => [left, right]
  | .sequence statements => statements
  | .atom _ | .empty => []

/-- Induction over trees, from the parts of a node to the node. -/
theorem induction_parts {motive : Node → Prop}
    (step : ∀ node, (∀ part ∈ node.parts, motive part) → motive node) (node : Node) :
    motive node := by
  induction node using Node.induction with
  | atom leaf => exact step _ (List.forall_mem_nil _)
  | apply function arguments ih => exact step _ ih
  | vector elements ih => exact step _ ih
  | set elements ih => exact step _ ih
  | relation left operator right ihleft ihright =>
    exact step _ (List.forall_mem_cons.mpr ⟨ihleft, List.forall_mem_singleton.mpr ihright⟩)
  | sequence statements ih => exact step _ ih
  | empty => exact step _ (List.forall_mem_nil _)

/-! ### Steps -/

/-- Every node but the empty statement is entered, walked through and left. -/
theorem accept_of_ne_empty (h : node ≠ .empty) (visitor : Visitor σ) (state : σ) :
    node.accept visitor state =
      visitor.leave node (acceptAll visitor node.parts (visitor.enter node state)) := by
  cases node with
  | empty => exact absurd rfl h
  | _ => rfl

theorem acceptAll_recorder {nodes : List Node}
    (h : ∀ node ∈ nodes, ∀ before, node.accept recorder before = before ++ node.steps)
    (before : List Step) :
    acceptAll recorder nodes before = before ++ nodes.flatMap steps := by
  induction nodes generalizing before with
  | nil => rw [List.flatMap_nil, List.append_nil, acceptAll]
  | cons node others ih =>
    obtain ⟨hnode, hothers⟩ := List.forall_mem_cons.mp h
    rw [acceptAll, hnode, ih hothers, List.flatMap_cons, List.append_assoc]

/-- A record can be continued. -/
theorem accept_recorder (node : Node) (before : List Step) :
    node.accept recorder before = before ++ node.steps := by
  induction node using induction_parts generalizing before with
  | step node ih =>
    by_cases hempty : node = .empty
    · subst hempty
      rfl
    · simp only [steps, accept_of_ne_empty hempty, acceptAll_recorder ih]
      simp [recorder]

@[simp] theorem steps_empty : steps .empty = [.enter .empty] := rfl

theorem steps_of_ne_empty (h : node ≠ .empty) :
    node.steps = .enter node :: (node.parts.flatMap steps ++ [.leave node]) := by
  rw [steps, accept_of_ne_empty h, acceptAll_recorder fun part _ ↦ part.accept_recorder]
  rfl

theorem acceptAll_eq_foldl {visitor : Visitor σ} {nodes : List Node}
    (h : ∀ node ∈ nodes, ∀ state, node.accept visitor state = node.steps.foldl visitor.at state)
    (state : σ) :
    acceptAll visitor nodes state = (nodes.flatMap steps).foldl visitor.at state := by
  induction nodes generalizing state with
  | nil => rfl
  | cons node others ih =>
    obtain ⟨hnode, hothers⟩ := List.forall_mem_cons.mp h
    rw [acceptAll, hnode, ih hothers, List.flatMap_cons, List.foldl_append]

/-- A walk is a fold over its steps. -/
theorem accept_eq_foldl (node : Node) (visitor : Visitor σ) (state : σ) :
    node.accept visitor state = node.steps.foldl visitor.at state := by
  induction node using induction_parts generalizing state with
  | step node ih =>
    by_cases hempty : node = .empty
    · subst hempty
      rfl
    · rw [accept_of_ne_empty hempty, acceptAll_eq_foldl ih, steps_of_ne_empty hempty,
        List.foldl_cons, List.foldl_append]
      rfl

/-! ### The nodes that are entered -/

/-- The node that a step enters. -/
def Step.entered? : Step → Option Node
  | .enter node => some node
  | .leave _ => none

mutual

/-- The nodes of a tree in preorder, each with its level, if the tree stands at the given level. -/
def levelled (level : Nat) : Node → List (Nat × Node)
  | .atom leaf => [(level, .atom leaf)]
  | .apply function arguments =>
    (level, .apply function arguments) :: levelledAll (level + 1) arguments
  | .vector elements => (level, .vector elements) :: levelledAll (level + 1) elements
  | .set elements => (level, .set elements) :: levelledAll (level + 1) elements
  | .relation left operator right =>
    (level, .relation left operator right) ::
      (levelled (level + 1) left ++ levelled (level + 1) right)
  | .sequence statements => (level, .sequence statements) :: levelledAll (level + 1) statements
  | .empty => [(level, .empty)]

/-- The nodes of several trees at one level. -/
def levelledAll (level : Nat) : List Node → List (Nat × Node)
  | [] => []
  | node :: others => levelled level node ++ levelledAll level others

end

theorem levelledAll_eq_flatMap (level : Nat) (nodes : List Node) :
    levelledAll level nodes = nodes.flatMap (levelled level) := by
  induction nodes with
  | nil => rfl
  | cons node others ih => rw [levelledAll, ih, List.flatMap_cons]

theorem levelled_eq (level : Nat) (node : Node) :
    node.levelled level = (level, node) :: node.parts.flatMap (levelled (level + 1)) := by
  cases node <;> simp [levelled, parts, levelledAll_eq_flatMap]

/-- A walk enters the nodes of its tree in preorder. -/
theorem filterMap_steps (level : Nat) (node : Node) :
    node.steps.filterMap Step.entered? = (node.levelled level).map Prod.snd := by
  induction node using induction_parts generalizing level with
  | step node ih =>
    by_cases hempty : node = .empty
    · subst hempty
      rfl
    · have hparts : (node.parts.flatMap steps).filterMap Step.entered? =
          (node.parts.flatMap (levelled (level + 1))).map Prod.snd := by
        rw [List.filterMap_flatMap, List.map_flatMap]
        exact List.flatMap_congr fun part hpart ↦ ih part hpart (level + 1)
      rw [steps_of_ne_empty hempty, levelled_eq, List.map_cons, ← hparts]
      simp [Step.entered?]

/-! ### Brackets -/

/-- Steps in which every node but the empty statement is left again, after the nodes that were
entered in between. -/
inductive Balanced : List Step → Prop
  | nil : Balanced []
  | empty {rest : List Step} :
      Balanced rest →
      Balanced (.enter .empty :: rest)
  | visit {node : Node} {inner rest : List Step} :
      node ≠ .empty →
      Balanced inner →
      Balanced rest →
      Balanced (.enter node :: (inner ++ .leave node :: rest))

namespace Balanced

variable {first second : List Step}

theorem append (hfirst : Balanced first) (hsecond : Balanced second) :
    Balanced (first ++ second) := by
  induction hfirst with
  | nil => exact hsecond
  | empty _ ih => exact .empty ih
  | visit hnode hinner _ _ ih =>
    rw [List.cons_append, List.append_assoc, List.cons_append]
    exact .visit hnode hinner ih

theorem flatMap {nodes : List Node} (h : ∀ node ∈ nodes, Balanced node.steps) :
    Balanced (nodes.flatMap steps) := by
  induction nodes with
  | nil => exact .nil
  | cons node others ih =>
    obtain ⟨hnode, hothers⟩ := List.forall_mem_cons.mp h
    exact hnode.append (ih hothers)

end Balanced

/-- The steps of a walk are a sequence of brackets. -/
theorem balanced_steps (node : Node) : Balanced node.steps := by
  induction node using induction_parts with
  | step node ih =>
    by_cases hempty : node = .empty
    · subst hempty
      exact .empty .nil
    · rw [steps_of_ne_empty hempty]
      exact .visit hempty (.flatMap ih) .nil

/-! ### The level of an outline -/

theorem level_at_enter (width : Nat) (node : Node) (outline : Outline) :
    ((outliner width).at outline (.enter node)).level =
      if node.isBranch then outline.level + 1 else outline.level := rfl

theorem level_at_leave (width : Nat) (node : Node) (outline : Outline) :
    ((outliner width).at outline (.leave node)).level =
      if node.isBranch then outline.level - 1 else outline.level := rfl

namespace Balanced

variable {steps : List Step}

/-- After a sequence of brackets an outline is at the level at which it was before. -/
theorem level_foldl (h : Balanced steps) (width : Nat) (outline : Outline) :
    (steps.foldl (outliner width).at outline).level = outline.level := by
  induction h generalizing outline with
  | nil => rfl
  | empty _ ih => exact ih _
  | visit hnode _ _ ihinner ihrest =>
    rw [List.foldl_cons, List.foldl_append, List.foldl_cons, ihrest, level_at_leave, ihinner,
      level_at_enter]
    split <;> omega

/-- An outline goes up only from below the level at which it was before. -/
theorem lt_level_of_leave (h : Balanced steps) (width : Nat) {before after : List Step}
    {branch : Node} (hsteps : steps = before ++ .leave branch :: after) (hbranch : branch.isBranch)
    (outline : Outline) :
    outline.level < (before.foldl (outliner width).at outline).level := by
  induction h generalizing before after outline with
  | nil => cases before <;> cases hsteps
  | empty _ ih =>
    cases before with
    | nil => cases hsteps
    | cons first before =>
      obtain ⟨rfl, hrest⟩ := List.cons.inj hsteps
      exact ih hrest ((outliner width).at outline (.enter .empty))
  | @visit node inner rest hnode hinner hrest ihinner ihrest =>
    cases before with
    | nil => cases hsteps
    | cons first before =>
      obtain ⟨rfl, hsplit⟩ := List.cons.inj hsteps
      rw [List.foldl_cons]
      have hinside := hinner.level_foldl width ((outliner width).at outline (.enter node))
      rw [level_at_enter] at hinside
      have hclosing (hleave : Step.leave node = .leave branch) :
          outline.level <
            (inner.foldl (outliner width).at ((outliner width).at outline (.enter node))).level := by
        obtain rfl := Step.leave.inj hleave
        rw [hinside, if_pos hbranch]
        exact Nat.lt_succ_self _
      -- the step stands among the inner ones, closes the node or comes after it
      rcases List.append_eq_append_iff.mp hsplit with ⟨more, rfl, hmore⟩ | ⟨more, rfl, hmore⟩
      · cases more with
        | nil =>
          rw [List.append_nil]
          exact hclosing (List.cons.inj hmore).1
        | cons leave more =>
          obtain ⟨rfl, hrest⟩ := List.cons.inj hmore
          rw [List.foldl_append, List.foldl_cons]
          refine Nat.lt_of_le_of_lt ?_ (ihrest hrest _)
          rw [level_at_leave, hinside]
          split <;> omega
      · cases more with
        | nil =>
          rw [List.append_nil] at hclosing
          exact hclosing (List.cons.inj hmore).1.symm
        | cons leave more =>
          obtain ⟨rfl, -⟩ := List.cons.inj hmore
          refine Nat.lt_of_le_of_lt ?_ (ihinner rfl _)
          rw [level_at_enter]
          split <;> omega

end Balanced

theorem level_accept (width : Nat) (node : Node) (outline : Outline) :
    (node.accept (outliner width) outline).level = outline.level := by
  rw [accept_eq_foldl, node.balanced_steps.level_foldl]

/-! ### Every walk -/

/-- Whatever a visitor does, it is led through a tree by steps that the tree alone determines: the
empty statement is entered once, and every other node is entered, followed by the steps of its parts
in source order, and left. The nodes that are entered are those of the tree in preorder, and the
steps are a sequence of brackets. So an outline ends at the level at which it started, and before it
goes up by a level it is below that one. -/
theorem balanced_walk (node : Node) :
    (∀ {σ : Type} (visitor : Visitor σ) (state : σ),
      node.accept visitor state = node.steps.foldl visitor.at state) ∧
    steps .empty = [.enter .empty] ∧
    (node ≠ .empty → node.steps = .enter node :: (node.parts.flatMap steps ++ [.leave node])) ∧
    node.steps.filterMap Step.entered? = (node.levelled 0).map Prod.snd ∧
    Balanced node.steps ∧
    ∀ (width : Nat) (outline : Outline),
      (node.accept (outliner width) outline).level = outline.level ∧
      ∀ (before after : List Step) (branch : Node),
        node.steps = before ++ .leave branch :: after → branch.isBranch →
        outline.level < (before.foldl (outliner width).at outline).level := by
  refine ⟨node.accept_eq_foldl, rfl, steps_of_ne_empty, node.filterMap_steps 0, node.balanced_steps,
    fun width outline ↦ ⟨node.level_accept width outline, ?_⟩⟩
  intro before after branch hsteps hbranch
  exact node.balanced_steps.lt_level_of_leave width hsteps hbranch outline

/-- A relation whose sides hold lists, statements and nothing, after an empty statement. -/
def handmade : Node :=
  .sequence [.empty, .relation (.vector [.set [], .sequence [.empty, .empty]])
    (.callTarget (Token.ofOperator .equal 0)) (.relation .empty
      (.callTarget (Token.ofOperator .lessThan 0)) (.apply (.callTarget (Token.identifier "f" 0)) []))]

theorem balanced_walk_handmade :
    handmade ≠ .empty ∧
    handmade.steps = .enter handmade :: (handmade.parts.flatMap steps ++ [.leave handmade]) ∧
    handmade.isBranch ∧
    0 < ((Step.enter handmade :: handmade.parts.flatMap steps).foldl (outliner 0).at {}).level := by
  obtain ⟨-, -, hsteps, -, -, hlevel⟩ := balanced_walk handmade
  have hne : handmade ≠ .empty := nofun
  exact ⟨hne, hsteps hne, rfl, (hlevel 0 {}).2 _ _ _ (hsteps hne) rfl⟩

end Node

end Formula
