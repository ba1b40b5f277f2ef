import Formula.Proofs.WrittenForms

/-!
# The tokens of the structural form

The structural form of the tree of a source is scanned without a lexical error, and the kinds and
lexemes of its tokens are known from the tree (`exists_tokenize_display`): the tokens of the tree in
the order in which the form writes them, and brackets, commas and line ends between them.
-/

set_option autoImplicit false
set_option relaxedAutoImplicit false

namespace Formula

open Lexicon Parse Text

/-! ### Tokens of trees as they are displayed -/

/-- A line end. -/
def Token.lineEnd : Token :=
  ⟨.newLine, "\n", 0⟩

/-- Lists of tokens with a comma between neighbours. -/
def Token.commaSeparated (lists : List (List Token)) : List Token :=
  [Token.ofOperator .comma 0].intercalate lists

theorem Token.commaSeparated_singleton (tokens : List Token) :
    Token.commaSeparated [tokens] = tokens :=
  List.intercalate_singleton

theorem Token.commaSeparated_cons_cons (first second : List Token) (others : List (List Token)) :
    Token.commaSeparated (first :: second :: others) =
      first ++ Token.ofOperator .comma 0 :: Token.commaSeparated (second :: others) := by
  rw [Token.commaSeparated, List.intercalate_cons_cons, List.append_assoc, Token.commaSeparated]
  rfl

namespace Node

mutual

/-- The tokens of the structural form of a tree. Those that the tree holds keep their position. -/
def displayTokens : Node → List Token
  | .atom leaf => [leaf.token]
  | .apply function arguments =>
    function.token :: .ofOperator .leftParen 0 ::
      (Token.commaSeparated (displayTokensEach arguments) ++ [.ofOperator .rightParen 0])
  | .vector elements =>
    .ofOperator .leftSquare 0 ::
      (Token.commaSeparated (displayTokensEach elements) ++ [.ofOperator .rightSquare 0])
  | .set elements =>
    .ofOperator .leftCurly 0 ::
      (Token.commaSeparated (displayTokensEach elements) ++ [.ofOperator .rightCurly 0])
  | .relation left operator right => left.displayTokens ++ operator.token :: right.displayTokens
  | .sequence statements => [Token.lineEnd].intercalate (displayTokensEach statements)
  | .empty => []

/-- The tokens of the structural form of each of several trees. -/
def displayTokensEach : List Node → List (List Token)
  | [] => []
  | node :: others => node.displayTokens :: displayTokensEach others

end

theorem displayTokensEach_eq_map (nodes : List Node) :
    displayTokensEach nodes = nodes.map displayTokens := by
  induction nodes with
  | nil => rfl
  | cons node others ih => rw [displayTokensEach, List.map_cons, ih]

theorem displayTokens_ofStatements (nodes : List Node) :
    (ofStatements nodes).displayTokens =
      [Token.lineEnd].intercalate (nodes.map displayTokens) := by
  match nodes with
  | [] => rfl
  | [only] => simp [ofStatements]
  | first :: second :: others =>
    change (Node.sequence (first :: second :: others)).displayTokens = _
    rw [displayTokens, displayTokensEach_eq_map]

end Node

/-! ### Scanning piece by piece -/

/-- `Scans tokens text rest` says that a text is scanned up to a rest of it, with tokens of the same
kinds and lexemes on the way. -/
inductive Scans : List Token → List Char → List Char → Prop
  | stop (rest : List Char) : Scans [] rest rest
  | blank {tokens : List Token} {text rest : List Char} :
      Scans tokens text rest →
      Scans tokens (' ' :: text) rest
  | token {token : Token} {tokens : List Token} {text rest : List Char} :
      token.lexeme.toList ∈ lexemes token.kind →
      Token.lexemeAt? (token.lexeme.toList ++ text) = some (token.kind, token.lexeme.toList) →
      Scans tokens text rest →
      Scans (token :: tokens) (token.lexeme.toList ++ text) rest

namespace Scans

variable {tokens more : List Token} {text middle rest : List Char}

theorem append (hfirst : Scans tokens text middle) (hsecond : Scans more middle rest) :
    Scans (tokens ++ more) text rest := by
  induction hfirst with
  | stop => exact hsecond
  | blank _ ih => exact .blank (ih hsecond)
  | token hlexeme hfound _ ih => exact .token hlexeme hfound (ih hsecond)

theorem lexeme {token : Token} (h : token.lexeme.toList ∈ lexemes token.kind)
    (htext : StartsWithout Token.joins text) (hnext : Scans tokens text rest) :
    Scans (token :: tokens) (token.lexeme.toList ++ text) rest :=
  .token h (Token.lexemeAt?_of_startsWithout h htext) hnext

/-- A punctuation mark is a lexeme on its own, whatever follows. -/
theorem punctuation {operator : Token.Operator} (h : operator.isPunctuation)
    (hnext : Scans tokens text rest) :
    Scans (.ofOperator operator 0 :: tokens) (operator.lexeme.toList ++ text) rest := by
  refine .token (by exact rfl) ?_ hnext
  cases operator <;> first | rfl | exact absurd h (by decide)

/-- A line end is a lexeme on its own, whatever follows. -/
theorem lineEnd (hnext : Scans tokens text rest) :
    Scans (.lineEnd :: tokens) ('\n' :: text) rest :=
  @Scans.token .lineEnd _ _ _ (Token.mem_lexemes_newLine.mpr ⟨'\n', rfl, rfl⟩) rfl hnext

/-- A text that is scanned to its end has these tokens, up to positions. -/
theorem exists_toTokens (h : Scans tokens text []) (offset : Nat) :
    ∃ scanned closing, (TokenStream.scan 0 offset text).toTokens = .ok (scanned ++ [closing]) ∧
      scanned.map Token.word = tokens.map Token.word := by
  generalize hrest : ([] : List Char) = rest at h
  induction h generalizing offset with
  | stop =>
    subst hrest
    exact ⟨[], .endOfInput offset, rfl, rfl⟩
  | blank _ ih =>
    rw [TokenStream.scan, if_pos (by decide)]
    exact ih _ hrest
  | @token token tokens text rest hlexeme hfound _ ih =>
    have hscan : TokenStream.scan 0 offset (token.lexeme.toList ++ text) =
        .token ⟨token.kind, token.lexeme, offset⟩
          (TokenStream.scan 0 (offset + byteLength token.lexeme.toList) text) :=
      @TokenStream.scan_word token.word _ (spellable_of_mem hlexeme) hfound offset
    rw [hscan]
    obtain ⟨scanned, closing, hscanned, hwords⟩ := ih _ hrest
    refine ⟨⟨token.kind, token.lexeme, offset⟩ :: scanned, closing, ?_, ?_⟩
    · rw [TokenStream.toTokens, hscanned]
      rfl
    · rw [List.map_cons, List.map_cons, hwords]
      rfl

end Scans

/-! ### Scanning the structural form -/

/-- Whether the structural form of a tree is scanned into its tokens where no lexeme goes on. -/
def Node.DisplayScans (node : Node) : Prop :=
  ∀ rest, StartsWithout Token.joins rest →
    Scans node.displayTokens (node.display.toList ++ rest) rest

/-- Trees with a separator between neighbours are scanned if each of them is. -/
theorem scans_joined {separatorTokens : List Token} {separator : List Char} {nodes : List Node}
    (hseparator : ∀ rest, Scans separatorTokens (separator ++ rest) rest)
    (hstarts : ∀ rest, StartsWithout Token.joins (separator ++ rest))
    (hnodes : ∀ node ∈ nodes, node.DisplayScans) {rest : List Char}
    (hrest : StartsWithout Token.joins rest) :
    Scans (separatorTokens.intercalate (nodes.map Node.displayTokens))
      (separator.intercalate (nodes.map fun node ↦ node.display.toList) ++ rest) rest := by
  have hothers {others : List Node} (hmem : ∀ node ∈ others, node.DisplayScans) :
      StartsWithout Token.joins
        (others.flatMap (fun node ↦ separator ++ node.display.toList) ++ rest) ∧
      Scans (others.flatMap fun node ↦ separatorTokens ++ node.displayTokens)
        (others.flatMap (fun node ↦ separator ++ node.display.toList) ++ rest) rest := by
    induction others with
    | nil => exact ⟨hrest, .stop rest⟩
    | cons other others ih =>
      obtain ⟨hother, hmem⟩ := List.forall_mem_cons.mp hmem
      obtain ⟨hends, hscans⟩ := ih hmem
      simp only [List.flatMap_cons, List.append_assoc]
      exact ⟨hstarts _, (hseparator _).append ((hother _ hends).append hscans)⟩
  cases nodes with
  | nil => exact .stop rest
  | cons first others =>
    obtain ⟨hfirst, hmem⟩ := List.forall_mem_cons.mp hnodes
    obtain ⟨hends, hscans⟩ := hothers hmem
    rw [intercalate_map_cons, intercalate_map_cons, List.append_assoc]
    exact (hfirst _ hends).append hscans

/-- The trees between two brackets are scanned if each of them is. -/
theorem scans_items {nodes : List Node} (hnodes : ∀ node ∈ nodes, node.DisplayScans)
    {closer : Token.Operator} (hcloser : closer.closes) (rest : List Char) :
    Scans (Token.commaSeparated (Node.displayTokensEach nodes) ++ [.ofOperator closer 0])
      ((", ".intercalate (Node.displayAll nodes)).toList ++ (closer.lexeme.toList ++ rest))
      rest := by
  have hcomma (rest : List Char) : Scans [.ofOperator .comma 0] ([',', ' '] ++ rest) rest :=
    .punctuation rfl (.blank (.stop rest))
  have hends : StartsWithout Token.joins (closer.lexeme.toList ++ rest) := by
    cases closer <;> first | exact startsWithout_cons (by decide) | exact absurd hcloser (by decide)
  have hclose : Scans [.ofOperator closer 0] (closer.lexeme.toList ++ rest) rest :=
    .punctuation (by simp [Token.Operator.isPunctuation, hcloser]) (.stop rest)
  rw [Node.displayAll_eq_map, Node.displayTokensEach_eq_map, String.toList_intercalate,
    List.map_map]
  exact (scans_joined hcomma (fun _ ↦ startsWithout_cons (by decide)) hnodes hends).append hclose

theorem Node.IsGenuine.displayScans {node : Node} (h : node.IsGenuine) : node.DisplayScans := by
  induction h with
  | atom hoperand =>
    intro rest hrest
    exact .lexeme hoperand.mem_lexemes hrest (.stop rest)
  | apply hfunction _ ih =>
    intro rest _
    simp only [Node.display, Node.displayTokens, String.toList_append, List.append_assoc]
    exact .lexeme hfunction.mem_lexemes (startsWithout_cons (by decide))
      (.punctuation rfl (scans_items ih rfl rest))
  | vector _ ih =>
    intro rest _
    simp only [Node.display, Node.displayTokens, String.toList_append, List.append_assoc]
    exact .punctuation rfl (scans_items ih rfl rest)
  | set _ ih =>
    intro rest _
    simp only [Node.display, Node.displayTokens, String.toList_append, List.append_assoc]
    exact .punctuation rfl (scans_items ih rfl rest)

theorem Node.IsGenuineStatement.displayScans {node : Node} (h : node.IsGenuineStatement) :
    node.DisplayScans := by
  intro rest hrest
  rcases h with rfl | h
  · exact .stop rest
  · cases h with
    | relation hoperator hleft hright =>
    have hspace (rest : List Char) : StartsWithout Token.joins (' ' :: rest) :=
      startsWithout_cons (by decide)
    simp only [Node.display, Node.displayTokens, String.toList_append, List.append_assoc]
    refine (hleft.displayScans _ (hspace _)).append (.blank ?_)
    exact .lexeme hoperator.mem_lexemes (hspace _) (.blank (hright.displayScans rest hrest))

/-- The structural form of genuine statements is scanned into its tokens. -/
theorem exists_tokenize_display {nodes : List Node} (h : ∀ node ∈ nodes, node.IsGenuineStatement) :
    ∃ tokens closing, tokenize (ofStatements nodes).display = .ok (tokens ++ [closing]) ∧
      tokens.map Token.word = (ofStatements nodes).displayTokens.map Token.word := by
  have hline (rest : List Char) : Scans [.lineEnd] (['\n'] ++ rest) rest := .lineEnd (.stop rest)
  have hscans := scans_joined hline (fun _ ↦ startsWithout_cons (by decide))
    (fun node hnode ↦ (h node hnode).displayScans) (startsWithout_nil _)
  rw [List.append_nil, ← Node.displayTokens_ofStatements, ← toList_display_ofStatements] at hscans
  exact hscans.exists_toTokens 0

end Formula
