import Formula.Proofs.Refusal

/-!
# Commas stand in lists

A bracket opens a list, except for a parenthesis with no name or number in front of it, which opens
a group, and a comma stands directly inside of a list. `Brackets` checks this from one token to the
next. A phrase of the grammar passes and leaves the open brackets as they were (`Derives.passes`),
and so do the tokens of a program (`passes_tokensOf`).
-/

set_option autoImplicit false
set_option relaxedAutoImplicit false

namespace Formula.Grammar

/-! ### Open brackets -/

/-- What is known of the tokens that were read: for each open bracket, from the inside to the
outside, whether it holds a list, and whether a name or a number was read last. -/
structure Brackets where
  lists : List Bool
  afterOperand : Bool

namespace Brackets

/-- Reads a token of a kind, unless it is a comma outside of a list or closes nothing. -/
def next? (brackets : Brackets) : TokenKind → Option Brackets
  | .identifier | .number => some ⟨brackets.lists, true⟩
  | .operator .leftParen => some ⟨brackets.afterOperand :: brackets.lists, false⟩
  | .operator .leftSquare | .operator .leftCurly => some ⟨true :: brackets.lists, false⟩
  | .operator .rightParen | .operator .rightSquare | .operator .rightCurly =>
    match brackets.lists with
    | [] => none
    | _ :: outer => some ⟨outer, false⟩
  | .operator .comma =>
    if brackets.lists.head? = some true then some ⟨brackets.lists, false⟩ else none
  | _ => some ⟨brackets.lists, false⟩

/-- Reads several tokens. -/
def after? (brackets : Brackets) (tokens : List Token) : Option Brackets :=
  (tokens.map Token.kind).foldlM next? brackets

theorem after?_cons (brackets : Brackets) (token : Token) (tokens : List Token) :
    brackets.after? (token :: tokens) =
      (brackets.next? token.kind).bind fun next ↦ next.after? tokens :=
  List.foldlM_cons

theorem after?_append (brackets : Brackets) (tokens more : List Token) :
    brackets.after? (tokens ++ more) =
      (brackets.after? tokens).bind fun next ↦ next.after? more := by
  rw [after?, List.map_append, List.foldlM_append]
  rfl

end Brackets

/-- Whether tokens pass where these brackets are open, and leave them open. -/
def Passes (lists : List Bool) (tokens : List Token) : Prop :=
  ∀ afterOperand, ∃ last, (⟨lists, afterOperand⟩ : Brackets).after? tokens = some ⟨lists, last⟩

/-- Whether tokens do not pass where these brackets are open. -/
def Fails (lists : List Bool) (tokens : List Token) : Prop :=
  ∀ afterOperand, (⟨lists, afterOperand⟩ : Brackets).after? tokens = none

section

variable {lists : List Bool} {tokens more : List Token} {token opening closing : Token}

theorem passes_nil (lists : List Bool) : Passes lists [] :=
  fun afterOperand ↦ ⟨afterOperand, rfl⟩

theorem Passes.append (h : Passes lists tokens) (hmore : Passes lists more) :
    Passes lists (tokens ++ more) := by
  intro afterOperand
  obtain ⟨middle, hmiddle⟩ := h afterOperand
  rw [Brackets.after?_append, hmiddle]
  exact hmore middle

theorem Fails.append_left (h : Fails lists tokens) (more : List Token) :
    Fails lists (tokens ++ more) := by
  intro afterOperand
  rw [Brackets.after?_append, h afterOperand]
  rfl

theorem Passes.fails_append (h : Passes lists tokens) (hmore : Fails lists more) :
    Fails lists (tokens ++ more) := by
  intro afterOperand
  obtain ⟨middle, hmiddle⟩ := h afterOperand
  rw [Brackets.after?_append, hmiddle]
  exact hmore middle

/-! ### Single tokens -/

theorem passes_of_isOperand (h : token.kind.isOperand) (lists : List Bool) :
    Passes lists [token] := by
  intro afterOperand
  rw [Brackets.after?_cons]
  cases hkind : token.kind with
  | identifier | number => exact ⟨true, rfl⟩
  | _ => simp [hkind, TokenKind.isOperand] at h

theorem next?_of_isOneOf {operators : List Token.Operator} (h : token.isOneOf operators)
    (hoperators : ∀ operator ∈ operators, ¬ operator.isPunctuation) (brackets : Brackets) :
    brackets.next? token.kind = some ⟨brackets.lists, false⟩ := by
  obtain ⟨operator, hmem, hkind⟩ := (Token.isOneOf_iff token operators).mp h
  have hoperator := hoperators operator hmem
  rw [hkind]
  cases operator <;> first | rfl | exact absurd rfl hoperator

theorem passes_of_isOneOf {operators : List Token.Operator} (h : token.isOneOf operators)
    (hoperators : ∀ operator ∈ operators, ¬ operator.isPunctuation) (lists : List Bool) :
    Passes lists [token] := by
  intro afterOperand
  rw [Brackets.after?_cons, next?_of_isOneOf h hoperators]
  exact ⟨false, rfl⟩

theorem passes_of_comma (h : token.is .comma) (lists : List Bool) :
    Passes (true :: lists) [token] := by
  intro afterOperand
  rw [Brackets.after?_cons, (Token.is_iff token _).mp h]
  exact ⟨false, rfl⟩

theorem fails_of_comma (h : token.is .comma) (lists : List Bool) :
    Fails (false :: lists) [token] := by
  intro afterOperand
  rw [Brackets.after?_cons, (Token.is_iff token _).mp h]
  rfl

theorem passes_of_isNewLine (h : token.isNewLine) (lists : List Bool) :
    Passes lists [token] := by
  intro afterOperand
  rw [Brackets.after?_cons, (Token.isNewLine_iff token).mp h]
  exact ⟨false, rfl⟩

/-! ### Pairs of brackets -/

theorem after?_closed {brackets : Brackets} {list : Bool} {last : Token.Operator}
    (hopening : brackets.next? opening.kind = some ⟨list :: brackets.lists, false⟩)
    (hclosing : closing.is last) (hlast : last.closes)
    (h : Passes (list :: brackets.lists) tokens) :
    brackets.after? (opening :: (tokens ++ [closing])) = some ⟨brackets.lists, false⟩ := by
  obtain ⟨middle, hmiddle⟩ := h false
  rw [Brackets.after?_cons, hopening, Option.bind_some, Brackets.after?_append, hmiddle,
    Option.bind_some, Brackets.after?_cons, (Token.is_iff closing last).mp hclosing]
  cases last <;> first | rfl | exact absurd hlast Bool.false_ne_true

theorem after?_of_fails {brackets : Brackets} {list : Bool}
    (hopening : brackets.next? opening.kind = some ⟨list :: brackets.lists, false⟩)
    (h : Fails (list :: brackets.lists) tokens) (more : List Token) :
    brackets.after? (opening :: (tokens ++ more)) = none := by
  rw [Brackets.after?_cons, hopening, Option.bind_some]
  exact h.append_left more false

theorem next?_container {first : Token.Operator} (h : opening.is first)
    (hfirst : first = .leftSquare ∨ first = .leftCurly) (brackets : Brackets) :
    brackets.next? opening.kind = some ⟨true :: brackets.lists, false⟩ := by
  rw [(Token.is_iff opening first).mp h]
  rcases hfirst with rfl | rfl <;> rfl

theorem next?_leftParen (h : opening.is .leftParen) (brackets : Brackets) :
    brackets.next? opening.kind = some ⟨brackets.afterOperand :: brackets.lists, false⟩ := by
  rw [(Token.is_iff opening _).mp h]
  rfl

theorem after?_call {function : Token} (hfunction : function.kind.isOperand)
    (brackets : Brackets) (tokens : List Token) :
    brackets.after? (function :: tokens) = (⟨brackets.lists, true⟩ : Brackets).after? tokens := by
  rw [Brackets.after?_cons]
  cases hkind : function.kind with
  | identifier | number => rfl
  | _ => simp [hkind, TokenKind.isOperand] at hfunction

end

/-! ### Phrases -/

/-- Whether the tokens of a phrase pass: items where a list is open, every other phrase
everywhere. -/
def Phrase.Passes (tokens : List Token) : Phrase → Prop
  | .items _ => ∀ lists, Grammar.Passes (true :: lists) tokens
  | _ => ∀ lists, Grammar.Passes lists tokens

theorem Derives.passes {weights : List Nat} {tokens : List Token} {phrase : Phrase}
    (h : Derives weights tokens phrase) : phrase.Passes tokens := by
  induction h with
  | relation _ hoperator _ ihleft ihright =>
    have hone := Token.isOneOf_comparisons hoperator
    exact fun lists ↦ (ihleft lists).append
      ((passes_of_isOneOf hone (by decide) lists).append (ihright lists))
  | set hopening _ hclosing ih =>
    have hlist := next?_container hopening (.inr rfl)
    exact fun lists _ ↦ ⟨false, after?_closed (hlist _) hclosing rfl (ih lists)⟩
  | vector hopening _ hclosing ih =>
    have hlist := next?_container hopening (.inl rfl)
    exact fun lists _ ↦ ⟨false, after?_closed (hlist _) hclosing rfl (ih lists)⟩
  | item _ ih => exact fun lists ↦ ih (true :: lists)
  | nextItem _ hcomma _ ihfirst ihrest =>
    exact fun lists ↦ (ihfirst _).append ((passes_of_comma hcomma lists).append (ihrest lists))
  | addition _ hoperator _ ihleft ihright | multiplication _ hoperator _ ihleft ihright =>
    exact fun lists ↦ (ihleft lists).append
      ((passes_of_isOneOf hoperator (by decide) lists).append (ihright lists))
  | raised _ hoperator _ ihleft ihright =>
    rw [← Token.isOneOf_singleton] at hoperator
    exact fun lists ↦ (ihleft lists).append
      ((passes_of_isOneOf hoperator (by decide) lists).append (ihright lists))
  | sign hsign _ ih =>
    exact fun lists ↦ (passes_of_isOneOf hsign (by decide) lists).append (ih lists)
  | group hopening _ hclosing ih =>
    exact fun lists _ ↦ ⟨false, after?_closed (next?_leftParen hopening _) hclosing rfl (ih _)⟩
  | operand hoperand => exact passes_of_isOperand hoperand
  | emptyCall hfunction hopening hclosing =>
    intro lists _
    rw [after?_call hfunction]
    exact ⟨false, after?_closed (next?_leftParen hopening _) hclosing rfl (passes_nil _)⟩
  | call hfunction hopening _ hclosing ih =>
    intro lists _
    rw [after?_call hfunction]
    exact ⟨false, after?_closed (next?_leftParen hopening _) hclosing rfl (ih lists)⟩
  | expression _ ih | sum _ ih | product _ ih | unary _ ih | power _ ih | primary _ ih => exact ih

/-! ### Programs -/

theorem passes_lines {lines : List Token} (h : ∀ line ∈ lines, line.isNewLine) (lists : List Bool) :
    Passes lists lines := by
  induction lines with
  | nil => exact passes_nil lists
  | cons line lines ih =>
    obtain ⟨hline, hlines⟩ := List.forall_mem_cons.mp h
    exact (passes_of_isNewLine hline lists).append (ih hlines)

theorem Statement.passes (statement : Statement) (lists : List Bool) :
    Passes lists statement.tokens := by
  obtain ⟨weights, tokens, node, derives⟩ := statement
  cases derives with
  | relation hderives hlines => exact (hderives.passes lists).append (passes_lines hlines lists)
  | empty _ hlines => exact passes_lines hlines lists

/-- The tokens of a program pass. -/
theorem passes_tokensOf (statements : List Statement) (lists : List Bool) :
    Passes lists (tokensOf statements) := by
  induction statements with
  | nil => exact passes_nil lists
  | cons statement statements ih =>
    rw [tokensOf_cons]
    exact (statement.passes lists).append ih

end Formula.Grammar
