import Mathlib.Data.List.Basic
import Formula.Parser.Program
import Formula.Proofs.Reading

/-!
# The tokens of a source

A source is scanned into a stream that ends in its closing token or in a lexical error
(`terminated_scan`), and the closing token stands behind its last byte (`toTokens_scan`). The
tokens that a parser moves past are the tokens of the source in the same order, whether it comes to
the closing token (`toTokens_of_reads`) or stops before (`yielded_of_reads`).
-/

set_option autoImplicit false
set_option relaxedAutoImplicit false

namespace Formula

/-! ### Scanning -/

theorem Text.byteLength_toList (text : String) : byteLength text.toList = text.utf8ByteSize := by
  rw [← String.ofList_toList (s := text)]
  generalize text.toList = characters
  rw [String.toList_ofList]
  induction characters with
  | nil => rfl
  | cons character characters ih =>
    rw [byteLength_cons, ih, String.ofList_cons, String.utf8ByteSize_append,
      String.utf8ByteSize_singleton]

theorem Token.kind_ne_endOfInput_of_lexemeAt? {text lexeme : List Char} {kind : TokenKind}
    (h : lexemeAt? text = some (kind, lexeme)) : kind ≠ .endOfInput := by
  unfold lexemeAt? at h
  split at h
  · exact absurd h (by simp)
  · split_ifs at h
    iterate 3
      · simp only [Option.some.injEq, Prod.mk.injEq] at h
        simp [← h.1]
    · obtain ⟨operator, -, hoperator⟩ := Option.map_eq_some_iff.mp h
      simp only [Prod.mk.injEq] at hoperator
      simp [← hoperator.1]

theorem exists_of_map_eq_ok {ε α β : Type} {f : α → β} {result : Except ε α} {value : β}
    (h : result.map f = .ok value) : ∃ inner, result = .ok inner ∧ f inner = value := by
  cases result with
  | error error => cases h
  | ok inner => exact ⟨inner, rfl, Except.ok.inj h⟩

namespace TokenStream

/-- The tokens of a stream before its lexical error, if there is one. -/
def yielded : TokenStream → List Token
  | .token first following => first :: following.yielded
  | .finish size => [.endOfInput size]
  | .invalid _ => []
  | .exhausted => []

theorem scan_append (passed : List Char) (offset : Nat) (text : List Char) :
    scan passed.length offset (passed ++ text) = scan 0 (offset + Text.byteLength passed) text := by
  induction passed generalizing offset with
  | nil => rfl
  | cons character passed ih =>
    rw [List.length_cons, List.cons_append, scan, ih, Text.byteLength_cons, Nat.add_assoc]

/-- A lexeme at the start of a text is scanned as one token. -/
theorem scan_lexeme {first : Char} {others rest : List Char} {kind : TokenKind}
    (hblank : ¬ Token.isBlank first) (hcomment : first ≠ '#')
    (hlexeme : Token.lexemeAt? (first :: others ++ rest) = some (kind, first :: others))
    (offset : Nat) :
    scan 0 offset (first :: others ++ rest) =
      .token ⟨kind, String.ofList (first :: others), offset⟩
        (scan 0 (offset + Text.byteLength (first :: others)) rest) := by
  rw [List.cons_append] at hlexeme ⊢
  rw [scan, if_neg hblank, if_neg hcomment, hlexeme]
  simp only
  rw [List.length_cons, Nat.add_sub_cancel, scan_append, Text.byteLength_cons, Nat.add_assoc]

theorem terminated_scan (passing offset : Nat) (text : List Char) :
    (scan passing offset text).Terminated := by
  fun_induction scan passing offset text with
  | case1 => trivial
  | case2 _ _ _ _ ih | case3 _ _ _ _ ih | case4 _ _ _ ih => exact ih
  | case5 _ _ _ _ _ _ _ hlexeme ih =>
    exact ⟨by simpa using Token.kind_ne_endOfInput_of_lexemeAt? hlexeme, ih⟩
  | case6 => trivial

theorem le_position_of_mem_yielded {passing offset : Nat} {text : List Char} {token : Token}
    (h : token ∈ (scan passing offset text).yielded) : offset ≤ token.position := by
  fun_induction scan passing offset text with
  | case1 =>
    rw [yielded, List.mem_singleton] at h
    exact h ▸ Nat.le_refl _
  | case2 _ _ _ _ ih | case3 _ _ _ _ ih | case4 _ _ _ ih =>
    exact Nat.le_of_add_right_le (ih h)
  | case5 _ _ _ _ _ _ _ _ ih =>
    rw [yielded, List.mem_cons] at h
    rcases h with rfl | hmem
    · exact Nat.le_refl _
    · exact Nat.le_of_add_right_le (ih hmem)
  | case6 => exact absurd h List.not_mem_nil

/-- The tokens of a text stand at increasing positions. -/
theorem pairwise_position_scan (passing offset : Nat) (text : List Char) :
    (scan passing offset text).yielded.Pairwise (·.position < ·.position) := by
  fun_induction scan passing offset text with
  | case1 => exact List.pairwise_singleton _ _
  | case2 _ _ _ _ ih | case3 _ _ _ _ ih | case4 _ _ _ ih => exact ih
  | case5 _ character _ _ _ _ _ _ ih =>
    refine List.pairwise_cons.mpr ⟨fun token hmem ↦ ?_, ih⟩
    exact Nat.lt_of_lt_of_le (Nat.lt_add_of_pos_right character.utf8Size_pos)
      (le_position_of_mem_yielded hmem)
  | case6 => exact List.Pairwise.nil

theorem yielded_of_toTokens {stream : TokenStream} {tokens : List Token}
    (h : stream.toTokens = .ok tokens) : stream.yielded = tokens := by
  induction stream generalizing tokens with
  | token first following ih =>
    obtain ⟨rest, hrest, rfl⟩ := exists_of_map_eq_ok h
    rw [yielded, ih hrest]
  | finish size => exact Except.ok.inj h
  | invalid error => cases h
  | exhausted => exact Except.ok.inj h

/-- The closing token stands behind the last byte of the text. -/
theorem toTokens_scan {passing offset : Nat} {text : List Char} {tokens : List Token}
    (h : (scan passing offset text).toTokens = .ok tokens) :
    ∃ before, tokens = before ++ [.endOfInput (offset + Text.byteLength text)] := by
  fun_induction scan passing offset text generalizing tokens with
  | case1 => exact ⟨[], by simpa [toTokens] using h.symm⟩
  | case2 _ _ _ _ ih | case3 _ _ _ _ ih | case4 _ _ _ ih =>
    obtain ⟨before, rfl⟩ := ih h
    exact ⟨before, by rw [Text.byteLength_cons, Nat.add_assoc]⟩
  | case5 _ _ _ _ _ _ _ _ ih =>
    obtain ⟨more, hmore, rfl⟩ := exists_of_map_eq_ok h
    obtain ⟨before, rfl⟩ := ih hmore
    exact ⟨_ :: before, by rw [Text.byteLength_cons, Nat.add_assoc, List.cons_append]⟩
  | case6 => exact absurd h (by simp [toTokens])

end TokenStream

namespace Parse

/-! ### Sources and states -/

/-- The tokens that a state still has, with the next one. -/
def stream (state : ParserState) : TokenStream :=
  .token state.current state.upcoming

theorem stream_of_forward {state next : ParserState} (hlive : state.Live)
    (hcurrent : ¬ state.current.isEndOfInput)
    (hforward : forward.run state = .ok (state.current, next)) :
    (stream state).toTokens = (stream next).toTokens.map (state.current :: ·) ∧
      (stream state).yielded = state.current :: (stream next).yielded := by
  rw [ParserState.Live, if_neg hcurrent] at hlive
  obtain ⟨current, upcoming, sourceSize⟩ := state
  cases upcoming with
  | token first following =>
    cases hforward
    exact ⟨rfl, rfl⟩
  | finish size =>
    cases hforward
    exact ⟨rfl, rfl⟩
  | invalid error => cases hforward
  | exhausted => exact hlive.elim

variable {state final : ParserState} {tokens : List Token}

theorem toTokens_of_reads (hlive : state.Live) (hreads : Reads state tokens final)
    (hfinal : final.current.isEndOfInput) :
    (stream state).toTokens = .ok (tokens ++ [final.current]) := by
  induction hreads with
  | nil state =>
    rw [ParserState.Live, if_pos hfinal] at hlive
    rw [stream, TokenStream.toTokens, hlive]
    rfl
  | cons hcurrent hforward hrest ih =>
    have hmiddle := (forward_next hlive hcurrent hforward).1
    rw [(stream_of_forward hlive hcurrent hforward).1, ih hmiddle hfinal]
    rfl

theorem yielded_of_reads (hlive : state.Live) (hreads : Reads state tokens final) :
    (stream state).yielded = tokens ++ final.current :: final.upcoming.yielded := by
  induction hreads with
  | nil state => rfl
  | cons hcurrent hforward hrest ih =>
    have hmiddle := (forward_next hlive hcurrent hforward).1
    rw [(stream_of_forward hlive hcurrent hforward).2, ih hmiddle, List.cons_append]

/-- A lexical error behind the tokens that can be moved past is the one of the source. -/
theorem toTokens_of_breaks {error : LexError} (hlive : state.Live) (h : Breaks state error) :
    (stream state).toTokens = .error error := by
  obtain ⟨tokens, final, hreads, hfinal⟩ := h
  induction hreads with
  | nil state =>
    rw [stream, TokenStream.toTokens, hfinal]
    rfl
  | cons hcurrent hforward hrest ih =>
    have hmiddle := (forward_next hlive hcurrent hforward).1
    rw [(stream_of_forward hlive hcurrent hforward).1, ih hmiddle hfinal]
    rfl

/-- A parser can move past the tokens of a source, up to each of them. -/
theorem exists_reads_of_yielded {token : Token} {more : List Token} (hlive : state.Live)
    (hyielded : (stream state).yielded = tokens ++ token :: more) :
    ∃ final, Reads state tokens final ∧ final.current = token := by
  induction tokens generalizing state with
  | nil => exact ⟨state, .nil state, (List.cons.inj hyielded).1⟩
  | cons first tokens ih =>
    have hcurrent : ¬ state.current.isEndOfInput := by
      intro hend
      rw [ParserState.Live, if_pos hend] at hlive
      rw [stream, hlive] at hyielded
      simp [TokenStream.yielded] at hyielded
    rcases forward_cases hlive hcurrent with ⟨next, hforward, hnext, -⟩ | ⟨error, hupcoming, -⟩
    · rw [(stream_of_forward hlive hcurrent hforward).2] at hyielded
      obtain ⟨rfl, hrest⟩ := List.cons.inj hyielded
      obtain ⟨final, hreads, hfinal⟩ := ih hnext hrest
      exact ⟨final, .cons hcurrent hforward hreads, hfinal⟩
    · rw [stream, hupcoming] at hyielded
      simp [TokenStream.yielded] at hyielded

/-- A source has a first state, unless it begins with a lexical error. -/
theorem start_cases (source : String) :
    (∃ state, start source = .ok state ∧ state.Live ∧
      tokenize source = (stream state).toTokens ∧
      (TokenStream.ofSource source).yielded = (stream state).yielded) ∨
    ∃ error, start source = .error (.lexical error) ∧ tokenize source = .error error ∧
      (TokenStream.ofSource source).yielded = [] := by
  have hterminated : (TokenStream.ofSource source).Terminated := TokenStream.terminated_scan _ _ _
  rw [start, tokenize]
  generalize TokenStream.ofSource source = stream at hterminated
  cases stream with
  | token first following =>
    refine .inl ⟨⟨first, following, source.utf8ByteSize⟩, rfl, ?_, rfl, rfl⟩
    rw [ParserState.Live, if_neg hterminated.1]
    exact hterminated.2
  | finish size =>
    exact .inl ⟨⟨.endOfInput size, .exhausted, source.utf8ByteSize⟩, rfl, rfl, rfl, rfl⟩
  | invalid error => exact .inr ⟨error, rfl, rfl, rfl⟩
  | exhausted => exact hterminated.elim

/-! ### States of tokens -/

/-- The stream of the tokens before the one that closes a source. -/
def streamOf : List Token → TokenStream
  | [] => .finish 0
  | token :: tokens => .token token (streamOf tokens)

/-- The state in front of the first of the tokens. -/
def stateOf : List Token → ParserState
  | [] => ⟨.endOfInput 0, .exhausted, 0⟩
  | token :: tokens => ⟨token, streamOf tokens, 0⟩

theorem yielded_streamOf (tokens : List Token) :
    (streamOf tokens).yielded = tokens ++ [.endOfInput 0] := by
  induction tokens with
  | nil => rfl
  | cons token tokens ih => rw [streamOf, TokenStream.yielded, ih, List.cons_append]

theorem yielded_stateOf (tokens : List Token) :
    (stream (stateOf tokens)).yielded = tokens ++ [.endOfInput 0] := by
  cases tokens with
  | nil => rfl
  | cons token tokens => rw [stream, stateOf, TokenStream.yielded, yielded_streamOf,
      List.cons_append]

theorem terminated_streamOf (h : ∀ token ∈ tokens, ¬ token.isEndOfInput) :
    (streamOf tokens).Terminated := by
  induction tokens with
  | nil => trivial
  | cons token tokens ih =>
    obtain ⟨htoken, hothers⟩ := List.forall_mem_cons.mp h
    exact ⟨htoken, ih hothers⟩

theorem live_stateOf (h : ∀ token ∈ tokens, ¬ token.isEndOfInput) : (stateOf tokens).Live := by
  cases tokens with
  | nil => rfl
  | cons token tokens =>
    obtain ⟨htoken, hothers⟩ := List.forall_mem_cons.mp h
    rw [ParserState.Live, stateOf, if_neg htoken]
    exact terminated_streamOf hothers

end Parse

/-! ### Tokens of sources -/

theorem yielded_of_tokenize {source : String} {tokens : List Token}
    (h : tokenize source = .ok tokens) : (TokenStream.ofSource source).yielded = tokens :=
  TokenStream.yielded_of_toTokens h

/-- The last token of a source closes it, behind its last byte. -/
theorem closing_of_tokenize {source : String} {tokens : List Token} {closing : Token}
    (h : tokenize source = .ok (tokens ++ [closing])) :
    closing = .endOfInput source.utf8ByteSize := by
  obtain ⟨before, hbefore⟩ := TokenStream.toTokens_scan h
  rw [Text.byteLength_toList, Nat.zero_add] at hbefore
  exact List.singleton_inj.mp (List.append_inj_right' hbefore rfl)

theorem isEndOfInput_of_tokenize {source : String} {tokens : List Token} {closing : Token}
    (h : tokenize source = .ok (tokens ++ [closing])) : closing.isEndOfInput := by
  rw [closing_of_tokenize h]
  rfl

end Formula
