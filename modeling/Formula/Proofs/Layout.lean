import Mathlib
import Formula.Proofs.MaximalMunch
import Formula.Proofs.ProgramReplay
import Formula.Proofs.Relabeling
import Formula.Proofs.Spelling

/-!
# Layout does not matter

What is left of the tokens of a source when their positions are forgotten and every run of line ends
becomes a single one decides what the parser does (`parse_layout`). Blanks, comments and blank
lines leave no other trace in the tokens. The parser is run on what is left (`run_withoutLayout`):
it takes the same statements there, or it gets stuck at the same place.
-/

set_option autoImplicit false
set_option relaxedAutoImplicit false

namespace Formula

open Grammar Parse

namespace Token

/-! ### Tokens without their layout -/

/-- The token without its position. -/
def unplaced (token : Token) : Token :=
  { token with position := 0 }

/-- The token without its position; of a line end only the kind is left. -/
def unlaid (token : Token) : Token :=
  if token.isNewLine then ⟨.newLine, "", 0⟩ else token.unplaced

theorem kind_unplaced (token : Token) : token.unplaced.kind = token.kind :=
  rfl

theorem unlaid_of_isNewLine {token : Token} (h : token.isNewLine) :
    token.unlaid = ⟨.newLine, "", 0⟩ :=
  if_pos h

theorem unlaid_of_not_isNewLine {token : Token} (h : ¬ token.isNewLine) :
    token.unlaid = token.unplaced :=
  if_neg h

theorem kind_unlaid (token : Token) : token.unlaid.kind = token.kind := by
  by_cases h : token.isNewLine
  · rw [unlaid_of_isNewLine h, (isNewLine_iff token).mp h]
  · rw [unlaid_of_not_isNewLine h, kind_unplaced]

end Token

/-- Tokens without their layout: positions are forgotten and every run of line ends becomes a
single one, whichever characters it consists of. -/
def withoutLayout : List Token → List Token
  | [] => []
  | token :: others =>
    if token.isNewLine && others.head?.any Token.isNewLine then withoutLayout others
    else token.unlaid :: withoutLayout others

section

variable {tokens rest lines : List Token}

/-- A list of tokens can be cut in front of every token that is no line end. -/
theorem withoutLayout_append {next : Token} (hrest : ¬ (rest.headD next).isNewLine) :
    withoutLayout (tokens ++ rest) = withoutLayout tokens ++ withoutLayout rest := by
  induction tokens with
  | nil => rfl
  | cons token others ih =>
    have hhead : (others ++ rest).head?.any Token.isNewLine = others.head?.any Token.isNewLine := by
      cases others with
      | nil =>
        cases rest with
        | nil => rfl
        | cons first rest => exact Bool.eq_false_iff.mpr hrest
      | cons => rfl
    rw [List.cons_append, withoutLayout, withoutLayout, hhead, ih]
    split <;> rfl

theorem withoutLayout_append_of_not_isNewLine (htokens : ∀ token ∈ tokens, ¬ token.isNewLine)
    (rest : List Token) :
    withoutLayout (tokens ++ rest) = tokens.map Token.unlaid ++ withoutLayout rest := by
  induction tokens with
  | nil => rfl
  | cons token others ih =>
    obtain ⟨htoken, hothers⟩ := List.forall_mem_cons.mp htokens
    rw [List.cons_append, withoutLayout, if_neg (by simp [htoken]), ih hothers, List.map_cons,
      List.cons_append]

theorem withoutLayout_of_not_isNewLine (htokens : ∀ token ∈ tokens, ¬ token.isNewLine) :
    withoutLayout tokens = tokens.map Token.unlaid := by
  have happend := withoutLayout_append_of_not_isNewLine htokens []
  rwa [List.append_nil, withoutLayout, List.append_nil] at happend

theorem exists_withoutLayout_cons (token : Token) (others : List Token) :
    ∃ more, withoutLayout (token :: others) = token.unlaid :: more := by
  induction others generalizing token with
  | nil => exact ⟨[], by rw [withoutLayout, if_neg (by simp), withoutLayout]⟩
  | cons second others ih =>
    rw [withoutLayout]
    split
    · next hlines =>
      obtain ⟨hfirst, hsecond⟩ := Bool.and_eq_true_iff.mp hlines
      rw [List.head?_cons, Option.any_some] at hsecond
      obtain ⟨more, hmore⟩ := ih second
      exact ⟨more, by rw [hmore, Token.unlaid_of_isNewLine hfirst,
        Token.unlaid_of_isNewLine hsecond]⟩
    · exact ⟨_, rfl⟩

theorem headD_withoutLayout (tokens : List Token) (next : Token) :
    (withoutLayout tokens).headD next.unlaid = (tokens.headD next).unlaid := by
  cases tokens with
  | nil => rfl
  | cons token others =>
    obtain ⟨more, hmore⟩ := exists_withoutLayout_cons token others
    rw [hmore, List.headD_cons, List.headD_cons]

theorem withoutLayout_of_lines (hnonempty : lines ≠ []) (hlines : ∀ line ∈ lines, line.isNewLine) :
    withoutLayout lines = [⟨.newLine, "", 0⟩] := by
  induction lines with
  | nil => exact absurd rfl hnonempty
  | cons line others ih =>
    obtain ⟨hline, hothers⟩ := List.forall_mem_cons.mp hlines
    cases others with
    | nil => rw [withoutLayout, if_neg (by simp), Token.unlaid_of_isNewLine hline, withoutLayout]
    | cons second others =>
      have hsecond := hothers second List.mem_cons_self
      rw [withoutLayout, if_pos (by simp [hline, hsecond]), ih (List.cons_ne_nil _ _) hothers]

example : withoutLayout [⟨.newLine, "\r", 3⟩, ⟨.newLine, "\n", 4⟩, .identifier "x" 6] =
    [⟨.newLine, "", 0⟩, .identifier "x" 0] := by decide

theorem forall_mem_withoutLayout {holds : Token → Prop}
    (h : ∀ token ∈ tokens, holds token.unlaid) : ∀ token ∈ withoutLayout tokens, holds token := by
  induction tokens with
  | nil => exact List.forall_mem_nil _
  | cons token others ih =>
    obtain ⟨htoken, hothers⟩ := List.forall_mem_cons.mp h
    rw [withoutLayout]
    split
    · exact ih hothers
    · exact List.forall_mem_cons.mpr ⟨htoken, ih hothers⟩

end

/-- Tokens with the same words are the same without their layout. -/
theorem withoutLayout_congr {tokens others : List Token}
    (h : tokens.map Token.word = others.map Token.word) :
    withoutLayout tokens = withoutLayout others := by
  have hunlaid {token other : Token} (hword : token.word = other.word) :
      token.isNewLine = other.isNewLine ∧ token.unlaid = other.unlaid := by
    obtain ⟨hkind, hlexeme⟩ := Word.mk.inj hword
    have hline : token.isNewLine = other.isNewLine := by
      rw [Token.isNewLine, hkind, Token.isNewLine]
    refine ⟨hline, ?_⟩
    rw [Token.unlaid, Token.unlaid, hline, Token.unplaced, Token.unplaced, hkind, hlexeme]
  induction tokens generalizing others with
  | nil =>
    obtain rfl := List.map_eq_nil_iff.mp h.symm
    rfl
  | cons token tokens ih =>
    obtain ⟨other, more, rfl, hword, hwords⟩ := List.map_eq_cons_iff.mp h.symm
    obtain ⟨hline, htoken⟩ := hunlaid hword.symm
    have hnext : tokens.head?.any Token.isNewLine = more.head?.any Token.isNewLine := by
      cases tokens with
      | nil => rw [List.map_eq_nil_iff.mp hwords]
      | cons second tokens =>
        obtain ⟨third, _, rfl, hsecond, -⟩ := List.map_eq_cons_iff.mp hwords
        exact (hunlaid hsecond.symm).1
    rw [withoutLayout, withoutLayout, hline, hnext, htoken, ih hwords.symm]

namespace Grammar

/-! ### Statements without their layout -/

theorem Ends.of_kind_eq {phrase : Phrase} {tokens : List Token} {next other : Token}
    (h : Ends phrase tokens next) (hkind : other.kind = next.kind) : Ends phrase tokens other where
  notContinued := by
    rw [Token.isOneOf_iff, hkind, ← Token.isOneOf_iff]
    exact h.notContinued
  notCalled := by
    rw [Token.is_iff, hkind, ← Token.is_iff]
    exact h.notCalled

theorem map_unlaid_of_isInner {tokens : List Token} (h : ∀ token ∈ tokens, token.IsInner) :
    tokens.map Token.unlaid = tokens.map Token.unplaced :=
  List.map_congr_left fun token hmem ↦
    Token.unlaid_of_not_isNewLine (h token hmem).not_isNewLine

/-- A statement takes a single line end in place of all line ends behind it. -/
theorem Taken.withoutLayout {weights : List Nat} {tokens : List Token} {node : Node} {next : Token}
    (h : Taken weights tokens node next) :
    Taken weights (withoutLayout tokens) (node.map Token.unplaced) next.unlaid := by
  have hnext : ¬ next.unlaid.isNewLine := by
    rw [isNewLine_map Token.kind_unlaid]
    exact h.not_isNewLine
  have hline {lines : List Token} (hlines : ∀ line ∈ lines, line.isNewLine) :
      ∀ line ∈ Formula.withoutLayout lines, line.isNewLine :=
    forall_mem_withoutLayout fun line hmem ↦
      (isNewLine_map Token.kind_unlaid line).trans (hlines line hmem)
  cases h with
  | @relation _ tokens lines _ _ hderives hlines hends _ =>
    have hinner := hderives.isInner
    rw [withoutLayout_append_of_not_isNewLine fun token hmem ↦ (hinner token hmem).not_isNewLine,
      map_unlaid_of_isInner hinner]
    refine .relation (hderives.map Token.kind_unplaced) (hline hlines) ?_ hnext
    rw [headD_withoutLayout]
    exact (hends.map Token.kind_unplaced).of_kind_eq (Token.kind_unlaid _)
  | empty hnonempty hlines _ =>
    refine .empty ?_ (hline hlines) hnext
    rw [withoutLayout_of_lines hnonempty hlines]
    exact List.cons_ne_nil _ _

theorem TakenAll.exists_withoutLayout {statements : List Statement} {next : Token}
    (h : TakenAll statements next) :
    ∃ laid : List Statement, tokensOf laid = withoutLayout (tokensOf statements) ∧
      weightsOf laid = weightsOf statements ∧
      laid.map Statement.node = (statements.map Statement.node).map (Node.map Token.unplaced) ∧
      TakenAll laid next.unlaid :=
  h.exists_image rfl (fun _ _ _ hnext ↦ withoutLayout_append hnext) headD_withoutLayout
    Taken.withoutLayout

/-- A reader of statements gets stuck at the same place when the layout is forgotten. -/
theorem StuckProgram.exists_withoutLayout {limit : Nat} {tokens : List Token} {error : ParseError}
    (h : StuckProgram limit tokens error) (more : List Token) :
    ∃ before after,
      withoutLayout (tokens ++ error.token :: more) = before ++ error.token.unlaid :: after ∧
        StuckProgram limit before (error.map Token.unlaid) := by
  induction h with
  | @here tokens error hend hline hstuck =>
    -- the refused token can be a line end itself; other ones behind it are then left out
    obtain ⟨after, hafter⟩ := exists_withoutLayout_cons error.token more
    refine ⟨tokens.map Token.unlaid, after, ?_, .here ?_ ?_ (hstuck.map Token.kind_unlaid)⟩
    · rw [withoutLayout_append_of_not_isNewLine fun token hmem ↦
        (hstuck.isInner token hmem).not_isNewLine, hafter]
    · rwa [ParseError.map, List.headD_map, isEndOfInput_map Token.kind_unlaid]
    · rwa [ParseError.map, List.headD_map, isNewLine_map Token.kind_unlaid]
  | @later weights tokens others node error htaken hfits _ ih =>
    obtain ⟨before, after, hequal, hstuck⟩ := ih
    have hhead : before.headD error.token.unlaid = (others.headD error.token).unlaid := by
      rw [← headD_append_cons before error.token.unlaid after error.token.unlaid, ← hequal,
        headD_withoutLayout, headD_append_cons]
    have hnext : ¬ ((others ++ error.token :: more).headD error.token).isNewLine := by
      rw [headD_append_cons]
      exact htaken.not_isNewLine
    have hlaid := htaken.withoutLayout
    rw [← hhead] at hlaid
    refine ⟨withoutLayout tokens ++ before, after, ?_, .later hlaid hfits hstuck⟩
    rw [List.append_assoc, withoutLayout_append hnext, hequal, List.append_assoc]

end Grammar

/-! ### Sources -/

theorem withoutLayout_concat_endOfInput (tokens : List Token) (size : Nat) :
    withoutLayout (tokens ++ [.endOfInput size]) = withoutLayout tokens ++ [.endOfInput 0] := by
  have hend : ¬ ([Token.endOfInput size].headD (.endOfInput size)).isNewLine :=
    Bool.false_ne_true
  exact withoutLayout_append hend

theorem live_withoutLayout {tokens : List Token} (h : ∀ token ∈ tokens, ¬ token.isEndOfInput) :
    (stateOf (withoutLayout tokens)).Live :=
  live_stateOf (forall_mem_withoutLayout fun token hmem ↦ by
    rw [isEndOfInput_map Token.kind_unlaid]
    exact h token hmem)

/-- What the parser does with a source it does with the tokens of the source without their
layout. -/
theorem run_withoutLayout (limit : Nat) {source : String} {before : List Token} {size : Nat}
    (h : tokenize source = .ok (before ++ [.endOfInput size]))
    (hbefore : ∀ token ∈ before, ¬ token.isEndOfInput) :
    (∃ node final, parseWithin limit source = .ok node ∧
      (program limit).run (stateOf (withoutLayout before)) =
        .ok (node.map Token.unplaced, final)) ∨
    ∃ error, parseWithin limit source = .error (.grammatical error) ∧
      (program limit).run (stateOf (withoutLayout before)) =
        .error (.grammatical (error.map Token.unlaid)) := by
  have hlive := live_withoutLayout hbefore
  have hyielded := yielded_stateOf (withoutLayout before)
  match hparse : parseWithin limit source with
  | .ok node =>
    obtain ⟨statements, closing, htokenize, -, htaken, hfits, rfl⟩ :=
      exists_takenAll_of_parseWithin hparse
    obtain ⟨rfl, hclosing⟩ := List.append_inj' (Except.ok.inj (h.symm.trans htokenize)) rfl
    obtain rfl := List.singleton_inj.mp hclosing
    obtain ⟨laid, htokens, hweights, hnodes, hlaid⟩ := htaken.exists_withoutLayout
    obtain ⟨final, hreads, hfinal⟩ := exists_reads_of_yielded hlive hyielded
    have hend : (Token.endOfInput size).unlaid = final.current := hfinal.symm
    rw [hend] at hlaid
    rw [← htokens] at hlive hreads ⊢
    have hrun := run_program hlive hreads hlaid (hweights ▸ hfits) (hfinal ▸ rfl)
    refine .inl ⟨_, final, rfl, ?_⟩
    rw [hrun, hnodes, Node.map_ofStatements]
  | .error (.grammatical error) =>
    obtain ⟨tokens, more, hsource, -, hstuck⟩ := exists_stuckProgram_of_parseWithin hparse
    rw [yielded_of_tokenize h] at hsource
    obtain ⟨read, after, hread, hstuckLaid⟩ := hstuck.exists_withoutLayout more
    rw [← hsource, withoutLayout_concat_endOfInput, ← hyielded] at hread
    obtain ⟨final, hreads, hfinal⟩ := exists_reads_of_yielded hlive hread
    exact .inr ⟨error, rfl, run_program_error hlive hreads hstuckLaid hfinal⟩
  | .error (.lexical error) =>
    rw [tokenize_of_parseWithin hparse] at h
    cases h

/-- Statements decide what the parser does with a source that has their tokens without its
layout. -/
theorem parseWithin_of_takenAll_withoutLayout {limit : Nat} {source : String} {before : List Token}
    {closing : Token} {statements : List Statement}
    (htokens : tokenize source = .ok (before ++ [closing]))
    (hlaid : tokensOf statements = withoutLayout before)
    (htaken : TakenAll statements (.endOfInput 0))
    (hfits : Fits limit .relation (weightsOf statements)) :
    ∃ node, parseWithin limit source = .ok node ∧
      node.map Token.unplaced = ofStatements (statements.map Statement.node) := by
  obtain ⟨tokens, hequal, hinner⟩ := exists_of_tokenize htokens
  obtain ⟨rfl, -⟩ := List.append_inj' hequal rfl
  have hrun := run_withoutLayout limit (hequal ▸ htokens) hinner
  obtain ⟨final, hreads, hfinal⟩ :=
    exists_reads_of_yielded (live_withoutLayout hinner) (yielded_stateOf _)
  rw [← hlaid] at hrun hreads
  rw [← hfinal] at htaken
  have hlive := hlaid ▸ live_withoutLayout hinner
  rw [run_program hlive hreads htaken hfits (hfinal ▸ rfl)] at hrun
  rcases hrun with ⟨node, last, hparse, hsame⟩ | ⟨_, -, hsame⟩
  · obtain ⟨htree, -⟩ := Prod.mk.inj (Except.ok.inj hsame)
    exact ⟨node, hparse, htree.symm⟩
  · cases hsame

/-- Where a reader of statements gets stuck on the tokens of a source without its layout, the source
is refused with the same error, up to the layout. -/
theorem parseWithin_of_stuckProgram_withoutLayout {limit : Nat} {source : String}
    {before read after : List Token} {closing : Token} {error : ParseError}
    (htokens : tokenize source = .ok (before ++ [closing]))
    (hread : withoutLayout before = read ++ error.token :: after)
    (hstuck : StuckProgram limit read error) :
    ∃ found, parseWithin limit source = .error (.grammatical found) ∧
      found.map Token.unlaid = error := by
  obtain ⟨tokens, hequal, hinner⟩ := exists_of_tokenize htokens
  obtain ⟨rfl, -⟩ := List.append_inj' hequal rfl
  have hyielded := yielded_stateOf (withoutLayout before)
  have hlive := live_withoutLayout hinner
  rw [hread, List.append_assoc, List.cons_append, ← hread] at hyielded
  obtain ⟨final, hreads, hfinal⟩ := exists_reads_of_yielded hlive hyielded
  rcases run_withoutLayout limit (hequal ▸ htokens) hinner with
    ⟨_, _, -, hrun⟩ | ⟨found, hparse, hrun⟩
  · rw [run_program_error hlive hreads hstuck hfinal] at hrun
    cases hrun
  · rw [run_program_error hlive hreads hstuck hfinal] at hrun
    exact ⟨found, hparse, (SyntaxError.grammatical.inj (Except.error.inj hrun)).symm⟩

/-- The outcome for a source does not depend on its layout: sources whose tokens are the same
without it have the same tree up to positions, or are refused for the same reason in front of
tokens of the same kind. -/
theorem parse_layout (first second : String) (firstTokens secondTokens : List Token)
    (hfirst : tokenize first = .ok firstTokens) (hsecond : tokenize second = .ok secondTokens)
    (hlayout : withoutLayout firstTokens = withoutLayout secondTokens) :
    (∃ firstNode secondNode, parse first = .ok firstNode ∧ parse second = .ok secondNode ∧
      firstNode.map Token.unplaced = secondNode.map Token.unplaced) ∨
    ∃ firstError secondError, parse first = .error (.grammatical firstError) ∧
      parse second = .error (.grammatical secondError) ∧
      firstError.code = secondError.code ∧ firstError.rule = secondError.rule ∧
      firstError.expected = secondError.expected ∧
      firstError.token.kind = secondError.token.kind := by
  obtain ⟨firstBefore, rfl, hfirstBefore⟩ := exists_of_tokenize hfirst
  obtain ⟨secondBefore, rfl, hsecondBefore⟩ := exists_of_tokenize hsecond
  rw [withoutLayout_concat_endOfInput, withoutLayout_concat_endOfInput] at hlayout
  have hsecondRun := run_withoutLayout maxNesting hsecond hsecondBefore
  rw [← List.append_cancel_right hlayout] at hsecondRun
  rcases run_withoutLayout maxNesting hfirst hfirstBefore with
    ⟨firstNode, final, hparse, hrun⟩ | ⟨firstError, hparse, hrun⟩
  · rw [hrun] at hsecondRun
    rcases hsecondRun with ⟨secondNode, _, hother, hsame⟩ | ⟨_, -, hsame⟩
    · exact .inl ⟨firstNode, secondNode, hparse, hother, (Prod.mk.inj (Except.ok.inj hsame)).1⟩
    · cases hsame
  · rw [hrun] at hsecondRun
    rcases hsecondRun with ⟨_, _, -, hsame⟩ | ⟨secondError, hother, hsame⟩
    · cases hsame
    · rw [Except.error.injEq, SyntaxError.grammatical.injEq] at hsame
      rw [ParseError.map, ParseError.map, ParseError.mk.injEq] at hsame
      obtain ⟨hcode, hrule, hexpected, htoken⟩ := hsame
      have hkind := congrArg Token.kind htoken
      rw [Token.kind_unlaid, Token.kind_unlaid] at hkind
      exact .inr ⟨firstError, secondError, hparse, hother, hcode, hrule, hexpected, hkind⟩

/-- Blank lines, a comment and carriage returns make no difference. -/
theorem parse_layout_blankLines :
    ∃ firstTokens secondTokens, tokenize "a=f(1)\n\n\nb=2" = .ok firstTokens ∧
      tokenize "a = f (1) # c\r\nb\t= 2" = .ok secondTokens ∧
      withoutLayout firstTokens = withoutLayout secondTokens ∧
      ∃ firstNode secondNode, parse "a=f(1)\n\n\nb=2" = .ok firstNode ∧
        parse "a = f (1) # c\r\nb\t= 2" = .ok secondNode ∧
        firstNode.map Token.unplaced = secondNode.map Token.unplaced := by
  obtain ⟨firstTokens, hfirst⟩ : ∃ tokens, tokenize "a=f(1)\n\n\nb=2" = .ok tokens := ⟨_, by cbv⟩
  obtain ⟨secondTokens, hsecond⟩ : ∃ tokens, tokenize "a = f (1) # c\r\nb\t= 2" = .ok tokens :=
    ⟨_, by cbv⟩
  have hlayout : (tokenize "a=f(1)\n\n\nb=2").map withoutLayout =
      (tokenize "a = f (1) # c\r\nb\t= 2").map withoutLayout := by cbv
  rw [hfirst, hsecond] at hlayout
  have hlayout := Except.ok.inj hlayout
  refine ⟨firstTokens, secondTokens, hfirst, hsecond, hlayout, ?_⟩
  rcases parse_layout _ _ _ _ hfirst hsecond hlayout with htrees | ⟨error, _, herror, -⟩
  · exact htrees
  · have hparse : ∃ node, parse "a=f(1)\n\n\nb=2" = .ok node := ⟨_, by cbv⟩
    obtain ⟨node, hnode⟩ := hparse
    rw [hnode] at herror
    cases herror

end Formula
