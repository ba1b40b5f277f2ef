import Formula.Proofs.GenuineTrees

/-!
# Trees between brackets

Both written forms of expressions have the same build: an opening text, the trees that a node
lists with commas between neighbours, and a closing bracket. In a `BracketedForm` the opening text
tells everything about a node but the trees that it lists, so a whole tree can be read back up to
the positions of its tokens (`BracketedForm.decodes`).
-/

set_option autoImplicit false
set_option relaxedAutoImplicit false

namespace Formula

open Lexicon Text

/-! ### Headings -/

/-- A node without the trees that it lists and without positions. -/
def Node.heading : Node → Node
  | .atom leaf => .atom (leaf.map Token.unplaced)
  | .apply function _ => .apply (function.map Token.unplaced) []
  | .vector _ => .vector []
  | .set _ => .set []
  | .relation .. | .sequence _ | .empty => .empty

/-- Whether a node is a name or a number on its own. -/
def Node.isLeaf : Node → Bool
  | .atom _ => true
  | _ => false

theorem Node.children_of_isLeaf {node : Node} (h : node.isLeaf) : node.children = [] := by
  cases node with
  | atom leaf => rfl
  | _ => exact absurd h Bool.false_ne_true

theorem Node.IsGenuine.isGenuine_of_mem_children {node child : Node} (h : node.IsGenuine)
    (hchild : child ∈ node.children) : child.IsGenuine := by
  cases h with
  | atom => exact absurd hchild List.not_mem_nil
  | apply _ harguments => exact harguments child hchild
  | vector helements | set helements => exact helements child hchild

theorem Node.IsGenuine.isLeaf_eq {first second : Node} (hfirst : first.IsGenuine)
    (hsecond : second.IsGenuine) (hheading : first.heading = second.heading) :
    first.isLeaf = second.isLeaf := by
  cases hfirst <;> cases hsecond <;> first | rfl | cases hheading

/-- A tree is known up to positions from its heading and from the trees that it lists. -/
theorem Node.IsGenuine.map_unplaced_eq {first second : Node} (hfirst : first.IsGenuine)
    (hsecond : second.IsGenuine) (hheading : first.heading = second.heading)
    (hchildren : first.children.map (Node.map Token.unplaced) =
      second.children.map (Node.map Token.unplaced)) :
    first.map Token.unplaced = second.map Token.unplaced := by
  cases hfirst <;> cases hsecond <;>
    simp_all [Node.heading, Node.children, Node.map, Node.mapAll_eq_map]

/-! ### Forms -/

/-- The characters that can stand behind the items of a list. -/
def closers : List Char :=
  [')', ']', '\x7d']

/-- Whether a character can go on with a name or a number, or makes a call of it. -/
def goesOn (character : Char) : Bool :=
  Token.joins character || character == '('

theorem Token.IsGenuine.exists_append_cons {token : Token} (h : token.IsGenuine)
    (rest : List Char) :
    ∃ first others, token.lexeme.toList ++ rest = first :: others ∧ first ∉ closers ∧
      first ≠ '\n' := by
  obtain ⟨first, others, hlexeme, hfirst⟩ := h.exists_cons
  refine ⟨first, _, by rw [hlexeme, List.cons_append], ?_⟩
  simp_all [closers]

/-- A way to write trees in which the trees that a node lists stand between brackets. -/
structure BracketedForm where
  text : Node → List Char
  /-- What is written in front of the trees that a node lists. -/
  opening : Node → List Char
  /-- What is written behind the trees that a node lists; the heading decides it. -/
  closing : Node → List Char
  text_eq : ∀ node : Node, node.IsGenuine → text node =
    opening node ++ ([',', ' '].intercalate (node.children.map text) ++ closing node.heading)
  closing_leaf : ∀ node : Node, node.isLeaf → closing node.heading = []
  closing_list : ∀ node : Node, node.IsGenuine → ¬ node.isLeaf →
    ∃ closer ∈ closers, closing node.heading = [closer]
  exists_opening_cons : ∀ node : Node, node.IsGenuine →
    ∃ first rest, opening node = first :: rest ∧ first ∉ closers ∧ first ≠ '\n'
  /-- The opening text tells the heading; behind a leaf nothing must go on with it. -/
  heading_eq : ∀ first second : Node, first.IsGenuine → second.IsGenuine →
    ∀ firstRest secondRest, (first.isLeaf → StartsWithout goesOn firstRest) →
      (second.isLeaf → StartsWithout goesOn secondRest) →
      opening first ++ firstRest = opening second ++ secondRest →
      first.heading = second.heading ∧ firstRest = secondRest

namespace BracketedForm

variable {firsts seconds : List Node} {firstRest secondRest : List Char}

theorem exists_text_cons (form : BracketedForm) {node : Node} (h : node.IsGenuine) :
    ∃ first rest, form.text node = first :: rest ∧ first ∉ closers ∧ first ≠ '\n' := by
  obtain ⟨first, rest, hopening, hfirst⟩ := form.exists_opening_cons node h
  exact ⟨first, _, by rw [form.text_eq node h, hopening, List.cons_append], hfirst⟩

theorem not_text_isPrefix (form : BracketedForm) {node : Node} (h : node.IsGenuine) {closer : Char}
    (hcloser : closer ∈ closers) (rest : List Char) : ¬ form.text node <+: closer :: rest := by
  obtain ⟨first, others, htext, hfirst, -⟩ := form.exists_text_cons h
  rw [htext, List.cons_prefix_cons]
  exact fun hstart ↦ hfirst (hstart.1 ▸ hcloser)

/-- The items of a list can be read back in front of a closing bracket. -/
theorem eq_of_items (form : BracketedForm) {closer : Char} (hcloser : closer ∈ closers)
    (hdecodes : ∀ first ∈ firsts, ∀ second ∈ seconds,
      Decodes form.text (Node.map Token.unplaced) (StartsWithout goesOn) first second)
    (hfirsts : ∀ first ∈ firsts, first.IsGenuine) (hseconds : ∀ second ∈ seconds, second.IsGenuine)
    (h : [',', ' '].intercalate (firsts.map form.text) ++ closer :: firstRest =
      [',', ' '].intercalate (seconds.map form.text) ++ closer :: secondRest) :
    firsts.map (Node.map Token.unplaced) = seconds.map (Node.map Token.unplaced) ∧
      firstRest = secondRest := by
  obtain ⟨hends, hcomma⟩ : ¬ goesOn closer ∧ ',' ≠ closer := by
    simp only [closers, List.mem_cons, List.not_mem_nil, or_false] at hcloser
    rcases hcloser with rfl | rfl | rfl <;> decide
  have hstop (rest : List Char) : ¬ [',', ' '] <+: closer :: rest := by
    rw [List.cons_prefix_cons]
    exact fun hprefix ↦ hcomma hprefix.1
  have hspace : ¬ goesOn ',' := by decide
  obtain ⟨hkeys, hrests⟩ := eq_of_joined hdecodes (fun _ ↦ startsWithout_cons hspace)
    (startsWithout_cons hends) (startsWithout_cons hends) (hstop firstRest) (hstop secondRest)
    (fun first hmem ↦ form.not_text_isPrefix (hfirsts first hmem) hcloser secondRest)
    (fun second hmem ↦ form.not_text_isPrefix (hseconds second hmem) hcloser firstRest) h
  exact ⟨hkeys, List.tail_eq_of_cons_eq hrests⟩

/-- A tree can be read back if the trees that it lists can be. -/
theorem decodes_of_children (form : BracketedForm) {first second : Node}
    (hfirst : first.IsGenuine) (hsecond : second.IsGenuine)
    (hchildren : ∀ child ∈ first.children, ∀ other : Node, other.IsGenuine →
      Decodes form.text (Node.map Token.unplaced) (StartsWithout goesOn) child other) :
    Decodes form.text (Node.map Token.unplaced) (StartsWithout goesOn) first second := by
  intro firstRest secondRest hfirstRest hsecondRest h
  have hleaf {node : Node} {rest : List Char} (hrest : StartsWithout goesOn rest)
      (hnode : node.isLeaf) : StartsWithout goesOn
        ([',', ' '].intercalate (node.children.map form.text) ++
          (form.closing node.heading ++ rest)) := by
    rw [Node.children_of_isLeaf hnode, form.closing_leaf node hnode]
    exact hrest
  rw [form.text_eq first hfirst, form.text_eq second hsecond] at h
  simp only [List.append_assoc] at h
  obtain ⟨hheading, hitems⟩ := form.heading_eq first second hfirst hsecond _ _ (hleaf hfirstRest)
    (hleaf hsecondRest) h
  suffices hboth : first.children.map (Node.map Token.unplaced) =
      second.children.map (Node.map Token.unplaced) ∧ firstRest = secondRest from
    ⟨hfirst.map_unplaced_eq hsecond hheading hboth.1, hboth.2⟩
  rw [hheading] at hitems
  by_cases hnode : second.isLeaf
  · have hother : first.isLeaf := (hfirst.isLeaf_eq hsecond hheading).trans hnode
    rw [Node.children_of_isLeaf hother, Node.children_of_isLeaf hnode,
      form.closing_leaf second hnode] at hitems
    rw [Node.children_of_isLeaf hother, Node.children_of_isLeaf hnode]
    exact ⟨rfl, hitems⟩
  · obtain ⟨closer, hcloser, hclosing⟩ := form.closing_list second hsecond hnode
    rw [hclosing] at hitems
    exact form.eq_of_items hcloser
      (fun child hchild other hother ↦
        hchildren child hchild other (hsecond.isGenuine_of_mem_children hother))
      (fun _ ↦ hfirst.isGenuine_of_mem_children) (fun _ ↦ hsecond.isGenuine_of_mem_children) hitems

/-- A genuine tree can be read back up to positions, where nothing goes on with it. -/
theorem decodes (form : BracketedForm) {first second : Node} (hfirst : first.IsGenuine)
    (hsecond : second.IsGenuine) :
    Decodes form.text (Node.map Token.unplaced) (StartsWithout goesOn) first second := by
  induction hfirst generalizing second with
  | atom htoken => exact form.decodes_of_children (.atom htoken) hsecond nofun
  | apply hfunction harguments ih =>
    exact form.decodes_of_children (.apply hfunction harguments) hsecond fun child hchild _ ↦
      ih child hchild
  | vector helements ih =>
    exact form.decodes_of_children (.vector helements) hsecond fun child hchild _ ↦
      ih child hchild
  | set helements ih =>
    exact form.decodes_of_children (.set helements) hsecond fun child hchild _ ↦
      ih child hchild

end BracketedForm

end Formula
