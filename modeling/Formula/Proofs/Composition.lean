import Mathlib
import Formula.Proofs.Correctness
import Formula.Proofs.LazyReading
import Formula.Proofs.Relabeling
import Formula.Proofs.Spelling

/-!
# Programs line by line

A source behind an accepted one, with a line end between them, is parsed as it is on its own
(`parse_append_line`): its statements follow those of the first source, and its errors are the
same, with all positions moved behind the line end.
-/

set_option autoImplicit false
set_option relaxedAutoImplicit false

namespace Formula

open Grammar Lexicon Parse

/-! ### Moved tokens -/

/-- The token at a greater position. -/
def Token.shift (distance : Nat) (token : Token) : Token :=
  { token with position := token.position + distance }

/-- The lexical error at a greater offset. -/
def LexError.shift (distance : Nat) (error : LexError) : LexError :=
  { error with offset := error.offset + distance }

/-- The error at a greater offset. -/
def SyntaxError.shift (distance : Nat) : SyntaxError → SyntaxError
  | .lexical error => .lexical (error.shift distance)
  | .grammatical error => .grammatical (error.map (Token.shift distance))

theorem Token.kind_shift (distance : Nat) (token : Token) :
    (token.shift distance).kind = token.kind :=
  rfl

namespace TokenStream

/-- The stream with everything in it moved. -/
def shift (distance : Nat) : TokenStream → TokenStream
  | .token first following => .token (first.shift distance) (following.shift distance)
  | .finish size => .finish (size + distance)
  | .invalid error => .invalid (error.shift distance)
  | .exhausted => .exhausted

theorem shift_scan (distance passing offset : Nat) (text : List Char) :
    (scan passing offset text).shift distance = scan passing (offset + distance) text := by
  fun_induction scan passing offset text with
  | case1 => rw [scan, shift]
  | case2 _ _ _ _ ih => rw [ih, scan, Nat.add_right_comm]
  | case3 _ _ _ hblank ih => rw [ih, scan, if_pos hblank, Nat.add_right_comm]
  | case4 _ _ hblank ih => rw [ih, scan, if_neg hblank, if_pos rfl, Nat.add_right_comm]
  | case5 _ _ _ hblank hcomment _ _ hlexeme ih =>
    rw [shift, ih, scan, if_neg hblank, if_neg hcomment, hlexeme, Nat.add_right_comm]
    rfl
  | case6 _ _ _ hblank hcomment hlexeme =>
    rw [shift, scan, if_neg hblank, if_neg hcomment, hlexeme]
    rfl

theorem toTokens_shift (distance : Nat) (stream : TokenStream) :
    (stream.shift distance).toTokens =
      (stream.toTokens.map (List.map (Token.shift distance))).mapError
        (LexError.shift distance) := by
  induction stream with
  | token first following ih =>
    rw [shift, toTokens, ih, toTokens]
    cases following.toTokens <;> rfl
  | finish | invalid | exhausted => rfl

theorem yielded_shift (distance : Nat) (stream : TokenStream) :
    (stream.shift distance).yielded = stream.yielded.map (Token.shift distance) := by
  induction stream with
  | token first following ih => rw [shift, yielded, ih, yielded, List.map_cons]
  | finish | invalid | exhausted => rfl

end TokenStream

/-! ### Texts behind a line end -/

namespace Token

theorem commentAt_append_line (text more : List Char) :
    commentAt (text ++ '\n' :: more) = commentAt text := by
  cases text with
  | nil => rfl
  | cons first body =>
    by_cases hfirst : first = '#'
    · subst hfirst
      rw [List.cons_append, commentAt, takeWhile_append_cons (by decide), commentAt]
    · rw [List.cons_append]
      simp [commentAt, hfirst]

theorem gapAt_append_line (text more : List Char) :
    gapAt (text ++ '\n' :: more) = gapAt text := by
  have hblank : isBlank '\n' = false := by decide
  rw [gapAt, gapAt, takeWhile_append_cons hblank, dropWhile_append_cons hblank,
    commentAt_append_line]

theorem longest_gaps_append_line {text gap : List Char} (h : Longest gaps text gap)
    (more : List Char) : Longest gaps (text ++ '\n' :: more) gap := by
  rw [longest_gaps_iff] at h ⊢
  rw [h, gapAt_append_line]

theorem longest_lexemes_append_line {text lexeme : List Char} {kind : TokenKind}
    (h : Longest allLexemes text lexeme) (hkind : lexeme ∈ lexemes kind) (more : List Char) :
    Longest allLexemes (text ++ '\n' :: more) lexeme := by
  have hfound := lexemeAt?_eq_some_iff.mpr ⟨h, hkind⟩
  have hline : ¬ joins '\n' := by decide
  cases text with
  | nil => cases hfound
  | cons first rest =>
    rw [← lexemeAt?_append hline first rest more] at hfound
    exact (lexemeAt?_eq_some_iff.mp hfound).1

end Token

namespace Lexicon

/-- A line end behind a text does not change how the text is cut. -/
theorem Munches.append_line {passed rest : List Char} {tokens : List Token}
    (h : Munches passed tokens rest) (more : List Char) :
    Munches passed tokens (rest ++ '\n' :: more) := by
  induction h with
  | start text => exact .start _
  | @next passed gap lexeme rest tokens kind _ hgap hlexeme hkind ih =>
    have hgap := Token.longest_gaps_append_line hgap more
    have hlexeme := Token.longest_lexemes_append_line hlexeme hkind more
    rw [List.append_assoc, List.append_assoc] at ih hgap
    rw [List.append_assoc] at hlexeme
    exact .next ih hgap hlexeme hkind

/-- The line end behind a text that is cut to its end is the next token. -/
theorem MunchesAll.append_line {text : List Char} {tokens : List Token}
    (h : MunchesAll text tokens) (more : List Char) :
    Munches (text ++ ['\n']) (tokens ++ [⟨.newLine, "\n", Text.byteLength text⟩]) more := by
  obtain ⟨passed, gap, rfl, hmunches, hgap⟩ := h
  have hlongest : Longest gaps gap gap := ⟨hgap, List.prefix_rfl, fun _ _ h ↦ h.length_le⟩
  obtain ⟨hline, hkind⟩ : Longest allLexemes (['\n'] ++ more) ['\n'] ∧
      ['\n'] ∈ lexemes .newLine := Token.lexemeAt?_eq_some_iff.mp rfl
  exact .next (hmunches.append_line more) (Token.longest_gaps_append_line hlongest more) hline
    hkind

end Lexicon

/-- The tokens of a source behind an accepted one. -/
theorem ofSource_append_line {first : String} {tokens : List Token} {closing : Token}
    (h : tokenize first = .ok (tokens ++ [closing])) (second : String) :
    TokenStream.ofSource (first ++ "\n" ++ second) =
      .prepend (tokens ++ [⟨.newLine, "\n", first.utf8ByteSize⟩])
        ((TokenStream.ofSource second).shift (first.utf8ByteSize + 1)) := by
  obtain ⟨munched, hmunched, htokens⟩ := tokenize_eq_ok_iff.mp h
  obtain ⟨rfl, -⟩ := List.append_inj' htokens rfl
  have hmunches := hmunched.append_line second.toList
  have hlength : Text.byteLength (first.toList ++ ['\n']) = 0 + (first.utf8ByteSize + 1) := by
    rw [Text.byteLength_append, Text.byteLength_toList, Nat.zero_add]
    rfl
  have hsource : (first ++ "\n" ++ second).toList = first.toList ++ ['\n'] ++ second.toList := by
    rw [String.toList_append, String.toList_append]
    rfl
  rw [TokenStream.ofSource, hsource, TokenStream.scan_of_munches hmunches, hlength,
    ← TokenStream.shift_scan, Text.byteLength_toList, TokenStream.ofSource]

theorem tokenize_append_line_ok {first second : String} {tokens others : List Token}
    {closing : Token} (hfirst : tokenize first = .ok (tokens ++ [closing]))
    (hsecond : tokenize second = .ok others) :
    tokenize (first ++ "\n" ++ second) = .ok (tokens ++ ⟨.newLine, "\n", first.utf8ByteSize⟩ ::
      others.map (Token.shift (first.utf8ByteSize + 1))) := by
  rw [tokenize] at hsecond
  rw [tokenize, ofSource_append_line hfirst, TokenStream.toTokens_prepend,
    TokenStream.toTokens_shift, hsecond, List.append_cons tokens _ (others.map _)]
  rfl

theorem tokenize_append_line_error {first second : String} {tokens : List Token} {closing : Token}
    {error : LexError} (hfirst : tokenize first = .ok (tokens ++ [closing]))
    (hsecond : tokenize second = .error error) :
    tokenize (first ++ "\n" ++ second) = .error (error.shift (first.utf8ByteSize + 1)) := by
  rw [tokenize] at hsecond
  rw [tokenize, ofSource_append_line hfirst, TokenStream.toTokens_prepend,
    TokenStream.toTokens_shift, hsecond]
  rfl

theorem yielded_append_line {first : String} {tokens : List Token} {closing : Token}
    (h : tokenize first = .ok (tokens ++ [closing])) (second : String) :
    (TokenStream.ofSource (first ++ "\n" ++ second)).yielded =
      tokens ++ ⟨.newLine, "\n", first.utf8ByteSize⟩ ::
        (TokenStream.ofSource second).yielded.map (Token.shift (first.utf8ByteSize + 1)) := by
  rw [ofSource_append_line h, TokenStream.yielded_prepend, TokenStream.yielded_shift,
    List.append_assoc, List.singleton_append]

/-! ### Statements of a program -/

/-- The statements of a tree. -/
def Node.statements : Node → List Node
  | .sequence statements => statements
  | node => [node]

/-- The statements without an empty one in front of them. -/
def withoutLeadingEmpty : List Node → List Node
  | .empty :: others => others
  | nodes => nodes

namespace Grammar

theorem Statement.statements_node (statement : Statement) :
    statement.node.statements = [statement.node] := by
  obtain ⟨weights, tokens, node, derives⟩ := statement
  cases derives with
  | relation hderives =>
    cases hderives with
    | relation => rfl
  | empty => rfl

theorem statements_ofStatements {statements : List Statement} (h : statements ≠ []) :
    (ofStatements (statements.map Statement.node)).statements = statements.map Statement.node := by
  match statements with
  | [] => exact absurd rfl h
  | [only] => exact only.statements_node
  | _ :: _ :: _ => rfl

theorem withoutLeadingEmpty_statements (statements : List Statement) :
    withoutLeadingEmpty (ofStatements (statements.map Statement.node)).statements =
      withoutLeadingEmpty (statements.map Statement.node) := by
  cases statements with
  | nil => rfl
  | cons first others => rw [statements_ofStatements (List.cons_ne_nil _ _)]

theorem withoutLeadingEmpty_of_not_isBlank {first : Statement} (h : ¬ first.isBlank)
    (nodes : List Node) : withoutLeadingEmpty (first.node :: nodes) = first.node :: nodes := by
  rw [Statement.isBlank] at h
  cases hnode : first.node with
  | empty =>
    rw [hnode] at h
    exact absurd rfl h
  | _ => rfl

/-! ### Line ends between programs -/

/-- The last statement of a program takes the line ends behind the program; a program without
statements becomes an empty statement. -/
theorem TakenAll.exists_lines {statements : List Statement} {closing : Token} {lines : List Token}
    (h : TakenAll statements closing) (hnonempty : lines ≠ [])
    (hlines : ∀ line ∈ lines, line.isNewLine) :
    ∃ taken : List Statement, tokensOf taken = tokensOf statements ++ lines ∧
      weightsOf taken = weightsOf statements ∧
      taken.map Statement.node = (ofStatements (statements.map Statement.node)).statements ∧
      ∀ next : Token, ¬ next.isNewLine → TakenAll taken next := by
  induction h with
  | nil closing =>
    have hempty : DerivesStatement [] lines .empty := .empty hnonempty hlines
    refine ⟨[⟨_, _, _, hempty⟩], List.append_nil _, rfl, rfl, fun next hnext ↦ ?_⟩
    exact .cons (.empty hnonempty hlines hnext) (.nil next)
  | @cons last others closing htaken _ ih =>
    cases others with
    | nil =>
      have hjoined := last.derives.append_lines hlines
      refine ⟨[⟨_, _, _, hjoined⟩], ?_, rfl, last.statements_node.symm, fun next hnext ↦ ?_⟩
      · simp [tokensOf]
      · exact .cons (last.derives.taken_append_lines hnonempty hlines hnext) (.nil next)
    | cons second others =>
      -- only the last statement gets longer, so the first token behind this one is still there
      obtain ⟨taken, htokens, hweights, hnodes, htakenAll⟩ := ih
      rw [statements_ofStatements (List.cons_ne_nil _ _)] at hnodes ⊢
      have hsecond : tokensOf (second :: others) ≠ [] := by
        rw [tokensOf_cons]
        exact List.append_ne_nil_of_left_ne_nil second.derives.ne_nil _
      obtain ⟨first, rest, hfirst⟩ := List.exists_cons_of_ne_nil hsecond
      refine ⟨last :: taken, ?_, ?_, ?_, fun next hnext ↦ .cons ?_ (htakenAll next hnext)⟩
      · rw [tokensOf_cons, htokens, tokensOf_cons last, List.append_assoc]
      · rw [weightsOf_cons, hweights, weightsOf_cons last]
      · rw [List.map_cons, hnodes, List.map_cons (l := second :: others)]
      · rw [hfirst] at htaken
        rw [htokens, hfirst]
        exact htaken

/-- The line ends in front of a program can be taken off, and with them an empty statement. -/
theorem TakenAll.exists_split {statements : List Statement} {next : Token}
    (h : TakenAll statements next) (hnext : ¬ next.isNewLine) :
    ∃ lines others, tokensOf statements = lines ++ tokensOf others ∧
      (∀ line ∈ lines, line.isNewLine) ∧ weightsOf statements = weightsOf others ∧
      withoutLeadingEmpty (statements.map Statement.node) = others.map Statement.node ∧
      TakenAll others next ∧ ¬ ((tokensOf others).headD next).isNewLine := by
  cases h with
  | nil => exact ⟨[], [], rfl, List.forall_mem_nil _, rfl, rfl, .nil next, hnext⟩
  | @cons first others _ htaken hothers =>
    by_cases hblank : first.isBlank
    · obtain ⟨hweights, hnode, hlines⟩ := first.isBlank_iff.mp hblank
      refine ⟨first.tokens, others, tokensOf_cons _ _, hlines, ?_, ?_, hothers,
        htaken.not_isNewLine⟩
      · rw [weightsOf_cons, hweights, List.nil_append]
      · rw [List.map_cons, hnode, withoutLeadingEmpty]
    · obtain ⟨start, rest, hstart, hline⟩ := Statement.exists_cons_of_not_isBlank hblank
      refine ⟨[], first :: others, rfl, List.forall_mem_nil _, rfl, ?_, .cons htaken hothers, ?_⟩
      · rw [List.map_cons, withoutLeadingEmpty_of_not_isBlank hblank]
      · rwa [tokensOf_cons, hstart]

/-- A reader of statements gets stuck at the same place without the line ends in front. -/
theorem StuckProgram.exists_split {limit : Nat} {tokens : List Token} {error : ParseError}
    (h : StuckProgram limit tokens error) :
    ∃ lines others, tokens = lines ++ others ∧ (∀ line ∈ lines, line.isNewLine) ∧
      StuckProgram limit others error ∧ ¬ (others.headD error.token).isNewLine := by
  cases h with
  | here hend hline hstuck =>
    exact ⟨[], tokens, rfl, List.forall_mem_nil _, .here hend hline hstuck, hline⟩
  | @later weights tokens more node _ htaken hfits hmore =>
    by_cases hblank : Statement.isBlank ⟨weights, tokens, node, htaken.derives⟩
    · obtain ⟨-, -, hlines⟩ := (Statement.isBlank_iff _).mp hblank
      exact ⟨tokens, more, rfl, hlines, hmore, htaken.not_isNewLine⟩
    · obtain ⟨start, rest, hstart, hline⟩ := Statement.exists_cons_of_not_isBlank hblank
      subst hstart
      exact ⟨[], _, rfl, List.forall_mem_nil _, .later htaken hfits hmore, hline⟩

end Grammar

/-! ### Sources behind accepted ones -/

section

variable {limit : Nat} {first second : String} {tree : Node}

theorem parseWithin_append_line_ok {other : Node} (hfirst : parseWithin limit first = .ok tree)
    (hsecond : parseWithin limit second = .ok other) :
    ∃ joined, parseWithin limit (first ++ "\n" ++ second) = .ok joined ∧
      joined.statements = tree.statements ++
        withoutLeadingEmpty (other.map (Token.shift (first.utf8ByteSize + 1))).statements := by
  obtain ⟨before, closing, hbefore, -, htakenBefore, hfitsBefore, rfl⟩ :=
    exists_takenAll_of_parseWithin hfirst
  obtain ⟨after, ending, hafter, -, htakenAfter, hfitsAfter, rfl⟩ :=
    exists_takenAll_of_parseWithin hsecond
  obtain ⟨mapped, hmapped, hweights, hnodes, htakenMapped⟩ :=
    htakenAfter.exists_map (Token.kind_shift (first.utf8ByteSize + 1))
  -- the line ends at the seam go to the last statement of the first program
  have hending : ¬ (ending.shift (first.utf8ByteSize + 1)).isNewLine := by
    rw [closing_of_tokenize hafter]
    exact Bool.false_ne_true
  obtain ⟨lines, others, htokens, hlines, hweightsOthers, hnodesOthers, htakenOthers, hnext⟩ :=
    htakenMapped.exists_split hending
  obtain ⟨taken, htokensTaken, hweightsTaken, hnodesTaken, htaken⟩ := htakenBefore.exists_lines
    (List.cons_ne_nil ⟨.newLine, "\n", first.utf8ByteSize⟩ lines)
    (List.forall_mem_cons.mpr ⟨rfl, hlines⟩)
  have htokenize : tokenize (first ++ "\n" ++ second) =
      .ok (tokensOf (taken ++ others) ++ [ending.shift (first.utf8ByteSize + 1)]) := by
    rw [tokenize_append_line_ok hbefore hafter, List.map_append, ← hmapped, htokens,
      tokensOf_append, htokensTaken]
    simp only [List.append_assoc, List.cons_append, List.map_singleton]
  have hfits : Fits limit .relation (weightsOf (taken ++ others)) := by
    rw [weightsOf_append, hweightsTaken, ← hweightsOthers, hweights]
    exact fits_append hfitsBefore hfitsAfter
  have hnonempty : taken ++ others ≠ [] := by
    rintro hnil
    rw [(List.append_eq_nil_iff.mp hnil).1] at htokensTaken
    simp [tokensOf] at htokensTaken
  refine ⟨_, parseWithin_of_takenAll htokenize ((htaken _ hnext).append htakenOthers) hfits, ?_⟩
  rw [statements_ofStatements hnonempty, List.map_append, hnodesTaken, ← hnodesOthers,
    Node.map_ofStatements, ← hnodes, withoutLeadingEmpty_statements]

theorem parseWithin_append_line_grammatical {error : ParseError}
    (hfirst : parseWithin limit first = .ok tree)
    (hsecond : parseWithin limit second = .error (.grammatical error)) :
    parseWithin limit (first ++ "\n" ++ second) =
      .error (.grammatical (error.map (Token.shift (first.utf8ByteSize + 1)))) := by
  obtain ⟨before, closing, hbefore, -, htakenBefore, hfitsBefore, rfl⟩ :=
    exists_takenAll_of_parseWithin hfirst
  obtain ⟨tokens, more, hyielded, -, hstuck⟩ := exists_stuckProgram_of_parseWithin hsecond
  obtain ⟨lines, others, htokens, hlines, hstuckOthers, hnext⟩ :=
    (hstuck.map (Token.kind_shift (first.utf8ByteSize + 1))).exists_split
  obtain ⟨taken, htokensTaken, hweightsTaken, -, htaken⟩ := htakenBefore.exists_lines
    (List.cons_ne_nil ⟨.newLine, "\n", first.utf8ByteSize⟩ lines)
    (List.forall_mem_cons.mpr ⟨rfl, hlines⟩)
  have hjoined := hstuckOthers.append (htaken _ hnext) (hweightsTaken ▸ hfitsBefore)
  have hsource : (TokenStream.ofSource (first ++ "\n" ++ second)).yielded =
      tokensOf taken ++ others ++ error.token.shift (first.utf8ByteSize + 1) ::
        more.map (Token.shift (first.utf8ByteSize + 1)) := by
    rw [yielded_append_line hbefore, hyielded, List.map_append, List.map_cons, htokens,
      htokensTaken]
    simp only [List.append_assoc, List.cons_append]
  exact parseWithin_of_stuckProgram hsource hjoined

theorem parseWithin_append_line_lexical {error : LexError}
    (hfirst : parseWithin limit first = .ok tree)
    (hsecond : parseWithin limit second = .error (.lexical error)) :
    parseWithin limit (first ++ "\n" ++ second) =
      .error (.lexical (error.shift (first.utf8ByteSize + 1))) := by
  obtain ⟨before, closing, hbefore, hinner, -, -, -⟩ := exists_takenAll_of_parseWithin hfirst
  have htokenize := tokenize_of_parseWithin hsecond
  have hjoined := tokenize_append_line_error hbefore htokenize
  match hparse : parseWithin limit (first ++ "\n" ++ second) with
  | .ok node => exact absurd hparse (parseWithin_ne_ok hjoined node)
  | .error (.lexical other) =>
    rw [tokenize_of_parseWithin hparse] at hjoined
    cases hjoined
    rfl
  | .error (.grammatical other) =>
    exfalso
    have hinner := not_isEndOfInput_of_tokenize_error hjoined
    -- the second source up to its lexical error is refused at its end, if at all
    obtain ⟨passed, _, -, -, hshorter⟩ := exists_tokenize_of_error htokenize
    have herror : parseWithin limit (first ++ "\n" ++ String.ofList passed) =
        .error (.grammatical other) := by
      refine parseWithin_of_yielded_isPrefix hparse ?_
      rw [yielded_append_line hbefore, yielded_append_line hbefore, yielded_of_tokenize hshorter,
        List.map_append, ← List.cons_append, ← List.append_assoc]
      exact List.prefix_append _ _
    match hcut : parseWithin limit (String.ofList passed) with
    | .ok node =>
      obtain ⟨_, hok, -⟩ := parseWithin_append_line_ok hfirst hcut
      rw [herror] at hok
      cases hok
    | .error failure =>
      obtain ⟨failure, rfl, hend⟩ := isEndOfInput_of_lexical hsecond hshorter hcut
      have hmoved := parseWithin_append_line_grammatical hfirst hcut
      rw [herror] at hmoved
      cases hmoved
      exact hinner _ (mem_yielded_of_parseWithin hparse) hend

end

/-- Programs are put together line by line: behind an accepted source and a line end, the
statements of a second source follow those of the first one, and its errors are found again. -/
theorem parse_append_line (first second : String) (tree : Node) (h : parse first = .ok tree) :
    (∀ other, parse second = .ok other → ∃ joined, parse (first ++ "\n" ++ second) = .ok joined ∧
      joined.statements = tree.statements ++
        withoutLeadingEmpty (other.map (Token.shift (first.utf8ByteSize + 1))).statements) ∧
    ∀ error, parse second = .error error →
      parse (first ++ "\n" ++ second) = .error (error.shift (first.utf8ByteSize + 1)) := by
  refine ⟨fun other hother ↦ parseWithin_append_line_ok h hother, fun error herror ↦ ?_⟩
  cases error with
  | lexical error => exact parseWithin_append_line_lexical h herror
  | grammatical error => exact parseWithin_append_line_grammatical h herror

/-- The comment of the first source ends at the line end, and the blank lines at the seam are no
statement of their own. -/
theorem parse_append_line_comment :
    ∃ tree other joined, parse "x = 1 # one" = .ok tree ∧ parse "\n\ny = 2" = .ok other ∧
      parse ("x = 1 # one" ++ "\n" ++ "\n\ny = 2") = .ok joined ∧
      joined.statements = tree.statements ++
        withoutLeadingEmpty (other.map (Token.shift 12)).statements := by
  obtain ⟨tree, htree⟩ : ∃ tree, parse "x = 1 # one" = .ok tree := ⟨_, by cbv⟩
  obtain ⟨other, hother⟩ : ∃ other, parse "\n\ny = 2" = .ok other := ⟨_, by cbv⟩
  obtain ⟨joined, hjoined, hstatements⟩ :=
    (parse_append_line "x = 1 # one" "\n\ny = 2" tree htree).1 other hother
  exact ⟨tree, other, joined, htree, hother, hjoined, hstatements⟩

end Formula
