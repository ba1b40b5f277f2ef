import Formula.Proofs.ProgramReplay
import Formula.Proofs.Spelling

/-!
# The height of trees

How high the tree of a source can be. A chain of operators of one precedence leans to the left and
opens no nesting level, so every operator in it makes the tree one node higher
(`longestChain_le_height`). Apart from chains the nesting limit bounds the height
(`height_le_of_parseWithin`). Together the two say that the trees of some sources are bounded in
height exactly if their chains are bounded in length (`height_of_parse`); no bound holds for all
sources (`height_unbounded`).
-/

set_option autoImplicit false
set_option relaxedAutoImplicit false

namespace Formula

/-! ### Heights and chains -/

namespace Node

mutual

/-- The number of nodes on the longest way from the root of a tree to a leaf. -/
def height : Node → Nat
  | .atom _ => 1
  | .apply _ arguments => heightAll arguments + 1
  | .vector elements => heightAll elements + 1
  | .set elements => heightAll elements + 1
  | .relation left _ right => max left.height right.height + 1
  | .sequence statements => heightAll statements + 1
  | .empty => 1

/-- The height of the highest of several trees. -/
def heightAll : List Node → Nat
  | [] => 0
  | node :: others => max node.height (heightAll others)

end

/-- The number of sums, differences, products and quotients on the way from the root of a tree to
the left, as long as there is no other node between them. -/
def chainLength : Node → Nat
  | .apply function [left, _] =>
    if function.token.isOneOf [.plus, .minus, .multiply, .divide] then left.chainLength + 1 else 0
  | _ => 0

mutual

/-- The length of the longest chain anywhere in a tree. -/
def longestChain : Node → Nat
  | .atom _ => 0
  | .apply function arguments =>
    max (chainLength (.apply function arguments)) (longestChainAll arguments)
  | .vector elements => longestChainAll elements
  | .set elements => longestChainAll elements
  | .relation left _ right => max left.longestChain right.longestChain
  | .sequence statements => longestChainAll statements
  | .empty => 0

/-- The length of the longest chain in several trees. -/
def longestChainAll : List Node → Nat
  | [] => 0
  | node :: others => max node.longestChain (longestChainAll others)

end

theorem chainLength_le_height (node : Node) : node.chainLength ≤ node.height := by
  fun_induction chainLength node with
  | case1 function left right hfunction ih =>
    rw [height, heightAll]
    omega
  | case2 => exact Nat.zero_le _
  | case3 => exact Nat.zero_le _

theorem chainLength_le_longestChain (node : Node) : node.chainLength ≤ node.longestChain := by
  cases node with
  | apply function arguments =>
    rw [longestChain]
    exact Nat.le_max_left _ _
  | _ => exact Nat.zero_le _

mutual

theorem longestChain_le_height : (node : Node) → node.longestChain ≤ node.height
  | .atom _ => by
    rw [longestChain]
    exact Nat.zero_le _
  | .apply function arguments => by
    have hchain := chainLength_le_height (.apply function arguments)
    have harguments := longestChainAll_le_heightAll arguments
    rw [longestChain]
    rw [height] at hchain ⊢
    omega
  | .vector elements => by
    have helements := longestChainAll_le_heightAll elements
    rw [longestChain, height]
    omega
  | .set elements => by
    have helements := longestChainAll_le_heightAll elements
    rw [longestChain, height]
    omega
  | .relation left _ right => by
    have hleft := longestChain_le_height left
    have hright := longestChain_le_height right
    rw [longestChain, height]
    omega
  | .sequence statements => by
    have hstatements := longestChainAll_le_heightAll statements
    rw [longestChain, height]
    omega
  | .empty => by
    rw [longestChain]
    exact Nat.zero_le _

theorem longestChainAll_le_heightAll :
    (nodes : List Node) → longestChainAll nodes ≤ heightAll nodes
  | [] => Nat.le_refl _
  | node :: others => by
    have hnode := longestChain_le_height node
    have hothers := longestChainAll_le_heightAll others
    rw [longestChainAll, heightAll]
    omega

end

end Node

/-! ### Heights of phrases -/

namespace Grammar

/-- The length of the longest chain in the trees of a phrase. -/
def Phrase.longestChain : Phrase → Nat
  | .items nodes => Node.longestChainAll nodes
  | .relation node | .expression node | .sum node | .product node | .unary node | .power node
  | .primary node | .call node => node.longestChain

/-- Whether the trees of a phrase are as low as chains of a length and a number of levels allow.
The operators of the chain at the root of a sum or a product count on their own. -/
def Low (chain levels : Nat) : Phrase → Prop
  | .relation node => node.height ≤ (2 * chain + 1) * levels + 1
  | .expression node => node.height ≤ (2 * chain + 1) * levels
  | .items nodes => Node.heightAll nodes ≤ (2 * chain + 1) * levels
  | .sum node => node.height ≤ node.chainLength + chain + (2 * chain + 1) * levels + 1
  | .product node => node.height ≤ node.chainLength + (2 * chain + 1) * levels + 1
  | .unary node => node.height ≤ (2 * chain + 1) * levels + 1
  | .power node => node.height ≤ (2 * chain + 1) * (levels + 1) + 1
  | .primary node | .call node => node.height ≤ (2 * chain + 1) * (levels + 1)

section

variable {operators : List Token.Operator} {operator : Token} {left right : Node}

theorem chainLength_apply (h : operator.isOneOf operators)
    (hoperators : operators ⊆ [.plus, .minus, .multiply, .divide]) :
    (Node.apply (.callTarget operator) [left, right]).chainLength = left.chainLength + 1 := by
  rw [Node.chainLength]
  exact if_pos (Token.isOneOf_of_subset h hoperators)

theorem height_apply_pair (function : Atom) (left right : Node) :
    (Node.apply function [left, right]).height = max left.height right.height + 1 := by
  rw [Node.height, Node.heightAll, Node.heightAll, Node.heightAll, Nat.max_zero]

theorem longestChain_apply_pair (function : Atom) (left right : Node) :
    (Node.apply function [left, right]).longestChain =
      max (Node.apply function [left, right]).chainLength
        (max left.longestChain right.longestChain) := by
  rw [Node.longestChain, Node.longestChainAll, Node.longestChainAll, Node.longestChainAll,
    Nat.max_zero]

end

/-- A phrase that fits into a number of levels is low. -/
theorem low_of_derives {chain levels : Nat} {weights : List Nat} {tokens : List Token}
    {phrase : Phrase} (h : Derives weights tokens phrase)
    (hfits : Fits levels phrase.goal weights) (hchain : phrase.longestChain ≤ chain) :
    Low chain levels phrase := by
  have hstep (levels : Nat) :
      (2 * chain + 1) * (levels + 1) = (2 * chain + 1) * levels + (2 * chain + 1) :=
    Nat.mul_succ _ _
  induction h generalizing levels with
  | relation hleft hoperator hright ihleft ihright =>
    obtain ⟨hleftFits, hrightFits⟩ := List.forall_mem_append.mp hfits
    rw [Phrase.longestChain, Node.longestChain] at hchain
    have hleftLow := ihleft hleftFits (Nat.le_trans (Nat.le_max_left _ _) hchain)
    have hrightLow := ihright hrightFits (Nat.le_trans (Nat.le_max_right _ _) hchain)
    simp only [Low] at hleftLow hrightLow ⊢
    rw [Node.height]
    omega
  | set _ hitems _ ih | vector _ hitems _ ih =>
    obtain ⟨levels, rfl⟩ :=
      exists_levels_of_fits hfits (hitems.map_weights_ne_nil _) (Nat.succ_ne_zero _)
    have hlevels : 2 + (levels + 1) ≤ 1 + 2 + levels := by omega
    have hlow := ih (fits_of_map_add hfits hlevels) hchain
    simp only [Low] at hlow ⊢
    rw [Node.height, hstep]
    omega
  | @expression _ _ node hsum ih =>
    obtain ⟨levels, rfl⟩ := exists_levels_of_fits hfits hsum.weights_ne_nil (Nat.succ_ne_zero _)
    have hlevels : 1 + (levels + 1) ≤ 2 + levels := by omega
    have hlow := ih (fits_of_le hfits hlevels) hchain
    have hlength := Nat.le_trans node.chainLength_le_longestChain hchain
    simp only [Low] at hlow ⊢
    rw [hstep]
    omega
  | item hfirst ih =>
    rw [Phrase.longestChain, Node.longestChainAll, Node.longestChainAll, Nat.max_zero] at hchain
    have hlow := ih hfits hchain
    simp only [Low] at hlow ⊢
    rwa [Node.heightAll, Node.heightAll, Nat.max_zero]
  | nextItem hfirst hcomma hrest ihfirst ihrest =>
    obtain ⟨hfirstFits, hrestFits⟩ := List.forall_mem_append.mp hfits
    rw [Phrase.longestChain, Node.longestChainAll] at hchain
    have hfirstLow := ihfirst hfirstFits (Nat.le_trans (Nat.le_max_left _ _) hchain)
    have hrestLow := ihrest hrestFits (Nat.le_trans (Nat.le_max_right _ _) hchain)
    simp only [Low] at hfirstLow hrestLow ⊢
    rw [Node.heightAll]
    exact Nat.max_le.mpr ⟨hfirstLow, hrestLow⟩
  | sum hproduct ih =>
    have hlow := ih hfits hchain
    simp only [Low] at hlow ⊢
    omega
  | @addition _ _ _ _ left right _ hleft hoperator hright ihleft ihright =>
    obtain ⟨hleftFits, hrightFits⟩ := List.forall_mem_append.mp hfits
    rw [Phrase.longestChain, longestChain_apply_pair] at hchain
    have hleftLow := ihleft hleftFits (show left.longestChain ≤ chain by omega)
    have hrightLow := ihright hrightFits (show right.longestChain ≤ chain by omega)
    have hlength := right.chainLength_le_longestChain
    simp only [Low] at hleftLow hrightLow ⊢
    rw [height_apply_pair, chainLength_apply hoperator (by simp)]
    omega
  | product hunary ih =>
    have hlow := ih hfits hchain
    simp only [Low] at hlow ⊢
    omega
  | @multiplication _ _ _ _ left right _ hleft hoperator hright ihleft ihright =>
    obtain ⟨hleftFits, hrightFits⟩ := List.forall_mem_append.mp hfits
    rw [Phrase.longestChain, longestChain_apply_pair] at hchain
    have hleftLow := ihleft hleftFits (show left.longestChain ≤ chain by omega)
    have hrightLow := ihright hrightFits (show right.longestChain ≤ chain by omega)
    simp only [Low] at hleftLow hrightLow ⊢
    rw [height_apply_pair, chainLength_apply hoperator (by simp)]
    omega
  | sign hsign hoperand ih =>
    obtain ⟨levels, rfl⟩ :=
      exists_levels_of_fits hfits (hoperand.map_weights_ne_nil _) (Nat.succ_ne_zero _)
    have hlevels : 1 + (levels + 1) ≤ 1 + 1 + levels := by omega
    rw [Phrase.longestChain, Node.longestChain, Node.longestChainAll, Node.longestChainAll,
      Nat.max_zero] at hchain
    have hlow := ih (fits_of_map_add hfits hlevels) (Nat.le_trans (Nat.le_max_right _ _) hchain)
    simp only [Low] at hlow ⊢
    rw [Node.height, Node.heightAll, Node.heightAll, hstep]
    omega
  | unary hpower ih =>
    obtain ⟨levels, rfl⟩ := exists_levels_of_fits hfits hpower.weights_ne_nil (Nat.succ_ne_zero _)
    have hlevels : 0 + (levels + 1) ≤ 1 + levels := by omega
    exact ih (fits_of_le hfits hlevels) hchain
  | power hprimary ih => exact Nat.le_succ_of_le (ih hfits hchain)
  | @raised _ _ _ _ base exponent _ hbase hoperator hexponent ihbase ihexponent =>
    obtain ⟨hbaseFits, hexponentFits⟩ := List.forall_mem_append.mp hfits
    rw [Phrase.longestChain, longestChain_apply_pair] at hchain
    have hbaseLow := ihbase hbaseFits (show base.longestChain ≤ chain by omega)
    have hexponentLow := ihexponent (fits_of_map_add hexponentFits (Nat.le_refl _))
      (show exponent.longestChain ≤ chain by omega)
    simp only [Low] at hbaseLow hexponentLow ⊢
    rw [height_apply_pair]
    rw [hstep] at hbaseLow ⊢
    omega
  | @group _ _ node _ _ hopening hsum hclosing ih =>
    have hlow := ih (fits_of_map_add hfits (Nat.le_refl _)) hchain
    have hlength := Nat.le_trans node.chainLength_le_longestChain hchain
    simp only [Low] at hlow ⊢
    rw [hstep]
    omega
  | primary hcall ih => exact ih hfits hchain
  | operand hoperand =>
    simp only [Low]
    rw [Node.height, hstep]
    omega
  | emptyCall hfunction hopening hclosing =>
    simp only [Low]
    rw [Node.height, Node.heightAll, hstep]
    omega
  | call hfunction hopening hitems hclosing ih =>
    have hlow := ih (fits_of_map_add hfits (Nat.le_refl _))
      (Nat.le_trans (Nat.le_max_right _ _) hchain)
    simp only [Low] at hlow ⊢
    rw [Node.height, hstep]
    omega

/-! ### Heights of programs -/

theorem height_of_derivesStatement {chain limit : Nat} {weights : List Nat} {tokens : List Token}
    {node : Node} (h : DerivesStatement weights tokens node) (hfits : Fits limit .relation weights)
    (hchain : node.longestChain ≤ chain) : node.height ≤ (2 * chain + 1) * limit + 1 := by
  cases h with
  | relation hderives _ => exact low_of_derives hderives hfits hchain
  | empty =>
    rw [Node.height]
    exact Nat.le_add_left 1 _

end Grammar

namespace Node

theorem heightAll_le {nodes : List Node} {bound : Nat} (h : ∀ node ∈ nodes, node.height ≤ bound) :
    heightAll nodes ≤ bound := by
  induction nodes with
  | nil => exact Nat.zero_le _
  | cons node others ih =>
    obtain ⟨hnode, hothers⟩ := List.forall_mem_cons.mp h
    exact Nat.max_le.mpr ⟨hnode, ih hothers⟩

theorem longestChain_le_all {nodes : List Node} {node : Node} (h : node ∈ nodes) :
    node.longestChain ≤ longestChainAll nodes := by
  induction nodes with
  | nil => exact absurd h List.not_mem_nil
  | cons first others ih =>
    rw [longestChainAll]
    rcases List.mem_cons.mp h with rfl | hothers
    · exact Nat.le_max_left _ _
    · exact Nat.le_trans (ih hothers) (Nat.le_max_right _ _)

theorem longestChain_le_ofStatements {nodes : List Node} {node : Node} (h : node ∈ nodes) :
    node.longestChain ≤ (Parse.ofStatements nodes).longestChain := by
  match nodes with
  | [] => exact absurd h List.not_mem_nil
  | [only] => exact List.mem_singleton.mp h ▸ Nat.le_refl _
  | first :: second :: others =>
    change _ ≤ longestChain (.sequence (first :: second :: others))
    rw [longestChain]
    exact longestChain_le_all h

theorem height_ofStatements_le {nodes : List Node} {bound : Nat}
    (h : ∀ node ∈ nodes, node.height ≤ bound + 1) :
    (Parse.ofStatements nodes).height ≤ bound + 2 := by
  match nodes with
  | [] =>
    rw [Parse.ofStatements, height]
    exact Nat.le_add_left 1 _
  | [only] => exact Nat.le_succ_of_le (h only (List.mem_singleton_self only))
  | first :: second :: others =>
    change height (.sequence (first :: second :: others)) ≤ _
    rw [height]
    exact Nat.succ_le_succ (heightAll_le h)

end Node

namespace Parse

open Grammar

/-- Apart from its chains the nesting limit bounds the height of a tree. -/
theorem height_le_of_parseWithin {limit : Nat} {source : String} {node : Node}
    (h : parseWithin limit source = .ok node) :
    node.height ≤ (2 * node.longestChain + 1) * limit + 2 := by
  obtain ⟨statements, closing, -, -, -, hfits, rfl⟩ := exists_takenAll_of_parseWithin h
  refine Node.height_ofStatements_le fun node hnode ↦ ?_
  have hchain := Node.longestChain_le_ofStatements hnode
  obtain ⟨statement, hstatement, rfl⟩ := List.mem_map.mp hnode
  refine height_of_derivesStatement statement.derives (fun weight hweight ↦ ?_) hchain
  exact hfits weight (List.mem_flatMap.mpr ⟨statement, hstatement, hweight⟩)

/-! ### Long chains -/

/-- The words of a sum of names with a number of operators. -/
def sumWords : Nat → List Word
  | 0 => [(Token.identifier "x" 0).word]
  | count + 1 =>
    sumWords count ++ [(Token.ofOperator .plus 0).word, (Token.identifier "x" 0).word]

theorem spellable_sumWords (count : Nat) : ∀ word ∈ sumWords count, Spellable word := by
  induction count with
  | zero => exact List.forall_mem_singleton.mpr spellable_name
  | succ count ih =>
    exact List.forall_mem_append.mpr ⟨ih, List.forall_mem_cons.mpr
      ⟨spellable_ofOperator _, List.forall_mem_singleton.mpr spellable_name⟩⟩

/-- Every operator of a sum makes its tree one node higher. -/
theorem exists_sum {count : Nat} {tokens : List Token}
    (h : tokens.map Token.word = sumWords count) :
    ∃ weights node, Derives weights tokens (.sum node) ∧ (∀ weight ∈ weights, weight = 0) ∧
      node.height = count + 1 := by
  induction count generalizing tokens with
  | zero =>
    obtain ⟨operand, rfl, hoperand⟩ := List.map_eq_singleton_iff.mp h
    have hname : operand.kind.isOperand := congrArg (fun word ↦ word.kind.isOperand) hoperand
    exact ⟨_, _, .sum (derives_product_operand hname),
      List.forall_mem_singleton.mpr rfl, rfl⟩
  | succ count ih =>
    obtain ⟨leftTokens, more, rfl, hleft, hmore⟩ := List.map_eq_append_iff.mp h
    obtain ⟨operator, rest, rfl, hoperator, hrest⟩ := List.map_eq_cons_iff.mp hmore
    obtain ⟨operand, rfl, hoperand⟩ := List.map_eq_singleton_iff.mp hrest
    have hplus : operator.isOneOf [.plus, .minus] := by
      simp [show operator.kind = _ from congrArg Word.kind hoperator, Token.word,
        Token.ofOperator]
    have hname : operand.kind.isOperand := congrArg (fun word ↦ word.kind.isOperand) hoperand
    obtain ⟨weights, left, hderives, hzero, hheight⟩ := ih hleft
    refine ⟨_, _, .addition hderives hplus (derives_product_operand hname),
      List.forall_mem_append.mpr ⟨hzero, List.forall_mem_singleton.mpr rfl⟩, ?_⟩
    rw [height_apply_pair, hheight, Node.height]
    omega

/-- Sums of every length are accepted. -/
theorem exists_parse_height (count : Nat) :
    ∃ source node, parse source = .ok node ∧ node.height = count + 2 := by
  obtain ⟨source, tokens, closing, htokenize, hwords⟩ := exists_tokenize_spell
    ((Token.identifier "x" 0).word :: (Token.ofOperator .equal 0).word :: sumWords count)
    (List.forall_mem_cons.mpr ⟨spellable_name, List.forall_mem_cons.mpr
      ⟨spellable_ofOperator _, spellable_sumWords count⟩⟩)
  obtain ⟨left, more, rfl, hleft, hmore⟩ := List.map_eq_cons_iff.mp hwords
  obtain ⟨operator, rest, rfl, hoperator, hrest⟩ := List.map_eq_cons_iff.mp hmore
  obtain ⟨weights, right, hderives, hzero, hheight⟩ := exists_sum hrest
  have hname : left.kind.isOperand := congrArg (fun word ↦ word.kind.isOperand) hleft
  have hequal : operator.kind.isRelational :=
    congrArg (fun word ↦ word.kind.isRelational) hoperator
  have hrelation := Derives.relation (derives_operand hname) hequal (.expression hderives)
  have hclosing := isEndOfInput_of_tokenize htokenize
  have hfits : Fits maxNesting .relation (weightsOf [.ofRelation hrelation]) := by
    intro weight hweight
    rw [weightsOf_ofRelation] at hweight
    rcases List.mem_cons.mp hweight with hmem | hmem
    · exact hmem ▸ Nat.le_add_left 2 254
    · exact hzero weight hmem ▸ Nat.le_add_left 2 254
  change tokenize source = .ok (([left] ++ operator :: rest) ++ [closing]) at htokenize
  rw [← tokensOf_ofRelation hrelation] at htokenize
  have hparse := parseWithin_of_takenAll htokenize (takenAll_ofRelation hrelation hclosing) hfits
  refine ⟨source, _, hparse, ?_⟩
  change Node.height (.relation _ _ right) = _
  rw [Node.height, Node.height, hheight]
  omega

end Parse

/-- The tree of a source is at least as high as its longest chain is long, and apart from that the
nesting limit bounds it. So the trees of some sources are bounded in height exactly if their chains
are bounded in length. -/
theorem height_of_parse (sources : String → Prop) :
    (∀ source node, sources source → parse source = .ok node →
      node.longestChain ≤ node.height ∧
        node.height ≤ (2 * node.longestChain + 1) * 256 + 2) ∧
    ((∃ bound, ∀ source node, sources source → parse source = .ok node → node.height ≤ bound) ↔
      ∃ length, ∀ source node, sources source → parse source = .ok node →
        node.longestChain ≤ length) := by
  have hlower (node : Node) := node.longestChain_le_height
  have hupper (source : String) (node : Node) (h : parse source = .ok node) :
      node.height ≤ (2 * node.longestChain + 1) * 256 + 2 := Parse.height_le_of_parseWithin h
  refine ⟨fun source node _ h ↦ ⟨hlower node, hupper source node h⟩, ?_, ?_⟩
  · rintro ⟨bound, hbound⟩
    exact ⟨bound, fun source node hsource h ↦
      Nat.le_trans (hlower node) (hbound source node hsource h)⟩
  · rintro ⟨length, hlength⟩
    refine ⟨(2 * length + 1) * 256 + 2, fun source node hsource h ↦ ?_⟩
    have hchain := Nat.mul_le_mul_left 2 (hlength source node hsource h)
    exact Nat.le_trans (hupper source node h)
      (Nat.add_le_add_right (Nat.mul_le_mul_right 256 (Nat.succ_le_succ hchain)) 2)

/-- No height bounds the trees of all sources. -/
theorem height_unbounded :
    ¬ ∃ bound, ∀ source node, parse source = .ok node → node.height ≤ bound := by
  rintro ⟨bound, hbound⟩
  obtain ⟨source, node, h, hheight⟩ := Parse.exists_parse_height bound
  have hlow := hbound source node h
  omega

end Formula
