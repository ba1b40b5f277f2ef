import Formula.Proofs.MaximalMunch

/-!
# Where tokens stand

Every token of a source stands where its span says: the span lies between whole characters, and the
bytes in it are those of the lexeme (`Text.Span.Holds`). The tokens come one behind the other, and
whatever they leave out is a gap of blanks and of comments that go up to the end of their line
(`tokenize_coverage`). All of this is read off maximal munch, where the text that has been passed
is gaps and lexemes in turn.
-/

set_option autoImplicit false
set_option relaxedAutoImplicit false

namespace Formula

open Lexicon

/-! ### Spans -/

namespace Text

/-- Whether the byte at an offset lies in a span. -/
def Span.Covers (span : Span) (offset : Nat) : Prop :=
  span.start ≤ offset ∧ offset < span.stop

/-- Whether a span lies between whole characters of a source and its bytes are those of a text. -/
structure Span.Holds (span : Span) (source text : String) : Prop where
  start_isValid : (String.Pos.Raw.mk span.start).IsValid source
  stop_isValid : (String.Pos.Raw.mk span.stop).IsValid source
  bytes_eq : source.toByteArray.extract span.start span.stop = text.toByteArray

/-- The bytes of a text between two others. -/
theorem Span.holds_append (before text after : String) :
    Span.Holds ⟨before.utf8ByteSize, before.utf8ByteSize + text.utf8ByteSize⟩
      (before ++ text ++ after) text where
  start_isValid := String.Pos.Raw.isValid_iff_exists_append.mpr
    ⟨before, text ++ after, String.append_assoc, rfl⟩
  stop_isValid := String.Pos.Raw.isValid_iff_exists_append.mpr
    ⟨before ++ text, after, rfl, by simp [String.rawEndPos]⟩
  bytes_eq := by
    rw [String.append_assoc, String.toByteArray_append, String.toByteArray_append]
    show ByteArray.extract _ (before.utf8ByteSize + 0) (before.utf8ByteSize + text.utf8ByteSize) = _
    rw [ByteArray.extract_append_size_add' String.size_toByteArray.symm,
      ByteArray.extract_append_eq_left String.size_toByteArray.symm]

end Text

namespace Token

/-- Whether a token stands in a text where its position says. -/
def StandsIn (token : Token) (text : List Char) : Prop :=
  ∃ before after, text = before ++ token.lexeme.toList ++ after ∧
    token.position = Text.byteLength before

variable {token : Token} {text : List Char}

theorem StandsIn.append (h : token.StandsIn text) (more : List Char) :
    token.StandsIn (text ++ more) := by
  obtain ⟨before, after, rfl, hposition⟩ := h
  exact ⟨before, after ++ more, List.append_assoc _ _ _, hposition⟩

theorem StandsIn.span_stop_le (h : token.StandsIn text) :
    token.span.stop ≤ Text.byteLength text := by
  obtain ⟨before, after, rfl, hposition⟩ := h
  rw [span, hposition, ← Text.byteLength_toList]
  simp

theorem StandsIn.holds {source : String} (h : token.StandsIn source.toList) :
    token.span.Holds source token.lexeme := by
  obtain ⟨before, after, hsource, hposition⟩ := h
  have hstring : source = String.ofList before ++ token.lexeme ++ String.ofList after :=
    String.toList_injective (by simp [hsource])
  have hsize : Text.byteLength before = (String.ofList before).utf8ByteSize := by
    rw [← Text.byteLength_toList, String.toList_ofList]
  rw [span, hposition, hsize]
  conv_lhs => rw [hstring]
  exact Text.Span.holds_append _ _ _

/-- The token that closes a source stands behind it. -/
theorem standsIn_endOfInput (source : String) :
    (Token.endOfInput source.utf8ByteSize).StandsIn source.toList :=
  ⟨source.toList, [], by simp [endOfInput], (Text.byteLength_toList source).symm⟩

theorem span_start_lt_stop (h : token.lexeme.toList ∈ lexemes token.kind) :
    token.span.start < token.span.stop := by
  have hlexeme : token.lexeme ≠ "" := by
    intro hempty
    rw [hempty] at h
    exact lexemes_ne_nil h rfl
  have hsize : token.lexeme.utf8ByteSize ≠ 0 := by simpa using hlexeme
  show token.position < token.position + token.lexeme.utf8ByteSize
  omega

end Token

namespace Lexicon

/-! ### Gaps -/

/-- `IsGap text rest` says that a text in front of the rest is made of blanks and of comments, and
that each comment goes up to the next line end, or to the end of the rest if there is none. -/
inductive IsGap : List Char → List Char → Prop
  | nil (rest : List Char) : IsGap [] rest
  | blank {character : Char} {text rest : List Char} :
      IsBlank character →
      IsGap text rest →
      IsGap (character :: text) rest
  | comment {body text rest : List Char} :
      (∀ character ∈ body, ¬ IsLineEnd character) →
      (∀ next ∈ (text ++ rest).head?, IsLineEnd next) →
      IsGap text rest →
      IsGap ('#' :: (body ++ text)) rest

/-- A text without blanks and without the mark of a comment is no gap, unless it is empty. -/
theorem IsGap.eq_nil {gap rest : List Char} (h : IsGap gap rest)
    (hplain : ∀ character ∈ gap, ¬ IsBlank character ∧ character ≠ '#') : gap = [] := by
  cases h with
  | nil => rfl
  | blank hblank _ => exact absurd hblank (hplain _ List.mem_cons_self).1
  | comment => exact absurd rfl (hplain _ List.mem_cons_self).2

theorem IsGap.blanks {blanks gap rest : List Char} (h : IsGap gap rest)
    (hblanks : ∀ character ∈ blanks, Token.isBlank character) : IsGap (blanks ++ gap) rest := by
  induction blanks with
  | nil => exact h
  | cons blank blanks ih =>
    obtain ⟨hblank, hothers⟩ := List.forall_mem_cons.mp hblanks
    exact .blank ((Token.isBlank_iff blank).mp hblank) (ih hothers)

theorem exists_isGap_commentAt (text : List Char) :
    ∃ rest, text = Token.commentAt text ++ rest ∧ IsGap (Token.commentAt text) rest := by
  unfold Token.commentAt
  split
  · next body =>
    set inLine : Char → Bool := fun character ↦ !Token.isLineEnd character with hinLine
    refine ⟨body.dropWhile inLine, by rw [List.cons_append, List.takeWhile_append_dropWhile], ?_⟩
    rw [← List.append_nil (body.takeWhile inLine)]
    refine .comment (fun character hmem ↦ ?_) (fun next hnext ↦ ?_) (.nil _)
    · have hinside := List.mem_takeWhile_imp hmem
      simpa [hinLine, ← Token.isLineEnd_iff] using hinside
    · have hline := List.head?_dropWhile_not inLine body
      rw [List.nil_append, Option.mem_def] at hnext
      rw [hnext] at hline
      simpa [hinLine, ← Token.isLineEnd_iff] using hline
  · exact ⟨text, rfl, .nil text⟩

/-- Where the longest gap ends, its last comment has come to the end of its line. -/
theorem isGap_of_longest {gap rest : List Char} (h : Longest gaps (gap ++ rest) gap) :
    IsGap gap rest := by
  have hgap := Token.longest_gaps_iff.mp h
  generalize htext : gap ++ rest = text at hgap
  obtain ⟨more, hmore, hcomment⟩ := exists_isGap_commentAt (text.dropWhile Token.isBlank)
  have hsplit : gap ++ rest = gap ++ more := by
    rw [htext, hgap, Token.gapAt, List.append_assoc, ← hmore, List.takeWhile_append_dropWhile]
  obtain rfl := List.append_cancel_left hsplit
  rw [hgap, Token.gapAt]
  exact hcomment.blanks fun _ hmem ↦ List.mem_takeWhile_imp hmem

/-- Whatever is left of a text when only a gap is left is such a gap up to the end. -/
theorem isGap_of_mem {gap : List Char} (h : gap ∈ gaps) : IsGap gap [] := by
  refine isGap_of_longest ⟨h, List.prefix_append gap [], fun other _ hother ↦ ?_⟩
  simpa using hother.length_le

/-- Whether a span of a text in front of the rest is a gap that none of the tokens reaches into. -/
structure GapAmong (tokens : List Token) (text rest : List Char) (span : Text.Span) : Prop where
  exists_gap : ∃ before gap after, text = before ++ gap ++ after ∧ IsGap gap (after ++ rest) ∧
    span = ⟨Text.byteLength before, Text.byteLength (before ++ gap)⟩
  disjoint : ∀ token ∈ tokens, token.span.stop ≤ span.start ∨ span.stop ≤ token.span.start

section

variable {tokens : List Token} {text rest : List Char} {span : Text.Span}

theorem GapAmong.stop_le (h : GapAmong tokens text rest span) :
    span.stop ≤ Text.byteLength text := by
  obtain ⟨before, gap, after, rfl, -, rfl⟩ := h.exists_gap
  simp

theorem GapAmong.append {more : List Char} (h : GapAmong tokens text (more ++ rest) span) :
    GapAmong tokens (text ++ more) rest span where
  exists_gap := by
    obtain ⟨before, gap, after, rfl, hgap, hspan⟩ := h.exists_gap
    exact ⟨before, gap, after ++ more, by simp, by rwa [List.append_assoc], hspan⟩
  disjoint := h.disjoint

theorem GapAmong.concat (h : GapAmong tokens text rest span) {last : Token}
    (hlast : span.stop ≤ last.span.start) : GapAmong (tokens ++ [last]) text rest span where
  exists_gap := h.exists_gap
  disjoint := List.forall_mem_append.mpr
    ⟨h.disjoint, List.forall_mem_singleton.mpr (.inr hlast)⟩

/-- A gap behind all tokens. -/
theorem gapAmong_of_isGap {gap : List Char} (h : IsGap gap rest)
    (htokens : ∀ token ∈ tokens, token.span.stop ≤ Text.byteLength text) :
    GapAmong tokens (text ++ gap) rest ⟨Text.byteLength text, Text.byteLength (text ++ gap)⟩ where
  exists_gap := ⟨text, gap, [], (List.append_nil _).symm, h, rfl⟩
  disjoint token hmem := .inl (htokens token hmem)

end

/-! ### Maximal munch -/

section

variable {passed rest : List Char} {tokens : List Token}

theorem Munches.standsIn (h : Munches passed tokens rest) :
    ∀ token ∈ tokens, token.StandsIn passed := by
  induction h with
  | start text => exact List.forall_mem_nil _
  | @next passed gap lexeme rest tokens kind _ _ _ _ ih =>
    refine List.forall_mem_append.mpr ⟨fun token hmem ↦ ?_, List.forall_mem_singleton.mpr ?_⟩
    · rw [List.append_assoc]
      exact (ih token hmem).append _
    · exact ⟨passed ++ gap, [], by simp, rfl⟩

/-- The tokens stand one behind the other. -/
theorem Munches.pairwise_span (h : Munches passed tokens rest) :
    tokens.Pairwise fun first second ↦ first.span.stop ≤ second.span.start := by
  induction h with
  | start text => exact List.Pairwise.nil
  | next hbefore _ _ _ ih =>
    refine List.pairwise_append.mpr
      ⟨ih, List.pairwise_singleton _ _, fun token hmem last hlast ↦ ?_⟩
    rw [List.mem_singleton.mp hlast]
    refine (hbefore.standsIn token hmem).span_stop_le.trans ?_
    show _ ≤ Text.byteLength (_ ++ _)
    rw [Text.byteLength_append]
    exact Nat.le_add_right _ _

/-- Every byte that has been passed belongs to a token or to a gap. -/
theorem Munches.covers (h : Munches passed tokens rest) {offset : Nat}
    (hoffset : offset < Text.byteLength passed) :
    (∃ token ∈ tokens, token.span.Covers offset) ∨
      ∃ span : Text.Span, span.Covers offset ∧ GapAmong tokens passed rest span := by
  induction h with
  | start text => exact absurd hoffset (Nat.not_lt_zero offset)
  | @next passed gap lexeme rest tokens kind hbefore hgap _ _ ih =>
    have hstart : Text.byteLength passed ≤ Text.byteLength (passed ++ gap) := by simp
    -- the byte lies before the last gap, in it, or in the lexeme behind it
    by_cases hpassed : offset < Text.byteLength passed
    · rcases ih hpassed with ⟨token, hmem, hcovers⟩ | ⟨span, hcovers, hspan⟩
      · exact .inl ⟨token, List.mem_append_left _ hmem, hcovers⟩
      · refine .inr ⟨span, hcovers, GapAmong.concat ?_ (hspan.stop_le.trans hstart)⟩
        exact hspan.append.append
    · by_cases hlexeme : offset < Text.byteLength (passed ++ gap)
      · refine .inr ⟨⟨Text.byteLength passed, Text.byteLength (passed ++ gap)⟩,
          ⟨Nat.le_of_not_lt hpassed, hlexeme⟩, GapAmong.concat ?_ (Nat.le_refl _)⟩
        exact (gapAmong_of_isGap (isGap_of_longest hgap)
          fun token hmem ↦ (hbefore.standsIn token hmem).span_stop_le).append
      · refine .inl ⟨_, List.mem_append_right _ (List.mem_singleton_self _),
          Nat.le_of_not_lt hlexeme, ?_⟩
        rw [Token.span, ← Text.byteLength_toList, String.toList_ofList, ← Text.byteLength_append]
        exact hoffset

/-- Without blanks and comments nothing is passed but lexemes. -/
theorem Munches.eq_flatMap (h : Munches passed tokens rest)
    (hplain : ∀ character ∈ passed, ¬ IsBlank character ∧ character ≠ '#') :
    passed = tokens.flatMap fun token ↦ token.lexeme.toList := by
  induction h with
  | start text => rfl
  | next _ hgap _ _ ih =>
    rw [List.append_assoc, List.forall_mem_append, List.forall_mem_append] at hplain
    rw [(isGap_of_longest hgap).eq_nil hplain.2.1, List.append_nil, ih hplain.1]
    simp

end

end Lexicon

/-! ### Sources -/

section

variable {source : String} {tokens : List Token}

theorem standsIn_of_tokenize (h : tokenize source = .ok tokens) :
    ∀ token ∈ tokens, token.StandsIn source.toList := by
  obtain ⟨munched, ⟨passed, gap, hsource, hmunches, -⟩, rfl⟩ := tokenize_eq_ok_iff.mp h
  refine List.forall_mem_append.mpr ⟨fun token hmem ↦ ?_, List.forall_mem_singleton.mpr ?_⟩
  · rw [hsource]
    exact (hmunches.standsIn token hmem).append gap
  · exact Token.standsIn_endOfInput source

theorem span_start_lt_stop_of_tokenize (h : tokenize source = .ok tokens) {token : Token}
    (hmem : token ∈ tokens) (htoken : ¬ token.isEndOfInput) :
    token.span.start < token.span.stop := by
  rw [← yielded_of_tokenize h] at hmem
  exact Token.span_start_lt_stop (mem_lexemes_of_mem_yielded hmem htoken)

theorem pairwise_span_of_tokenize (h : tokenize source = .ok tokens) :
    tokens.Pairwise fun first second ↦ first.span.stop ≤ second.span.start := by
  obtain ⟨munched, ⟨passed, gap, hsource, hmunches, -⟩, rfl⟩ := tokenize_eq_ok_iff.mp h
  refine List.pairwise_append.mpr
    ⟨hmunches.pairwise_span, List.pairwise_singleton _ _, fun token hmem closing hclosing ↦ ?_⟩
  rw [List.mem_singleton.mp hclosing]
  refine (hmunches.standsIn token hmem).span_stop_le.trans ?_
  show _ ≤ source.utf8ByteSize
  rw [← Text.byteLength_toList, hsource]
  simp

/-- Every byte of a source belongs to a token or to a gap between the tokens. -/
theorem covers_of_tokenize (h : tokenize source = .ok tokens) {offset : Nat}
    (hoffset : offset < source.utf8ByteSize) :
    (∃ token ∈ tokens, token.span.Covers offset) ∨
      ∃ span : Text.Span, span.Covers offset ∧ GapAmong tokens source.toList [] span := by
  obtain ⟨munched, ⟨passed, gap, hsource, hmunches, hgap⟩, rfl⟩ := tokenize_eq_ok_iff.mp h
  have hsize : source.utf8ByteSize = Text.byteLength (passed ++ gap) := by
    rw [← hsource, Text.byteLength_toList]
  have hpassed : Text.byteLength passed ≤ source.utf8ByteSize := by simp [hsize]
  rw [hsource]
  by_cases hbefore : offset < Text.byteLength passed
  · rcases hmunches.covers hbefore with ⟨token, hmem, hcovers⟩ | ⟨span, hcovers, hspan⟩
    · exact .inl ⟨token, List.mem_append_left _ hmem, hcovers⟩
    · rw [← List.append_nil gap] at hspan
      exact .inr ⟨span, hcovers, hspan.append.concat (hspan.stop_le.trans hpassed)⟩
  · have hend : GapAmong munched (passed ++ gap) [] _ := gapAmong_of_isGap (isGap_of_mem hgap)
      fun token hmem ↦ (hmunches.standsIn token hmem).span_stop_le
    exact .inr ⟨_, ⟨Nat.le_of_not_lt hbefore, hsize ▸ hoffset⟩, hend.concat hsize.ge⟩

theorem eq_join_of_tokenize (h : tokenize source = .ok tokens)
    (hplain : ∀ character ∈ source.toList, ¬ IsBlank character ∧ character ≠ '#') :
    source = String.join (tokens.map Token.lexeme) := by
  obtain ⟨munched, ⟨passed, gap, hsource, hmunches, hgap⟩, rfl⟩ := tokenize_eq_ok_iff.mp h
  rw [hsource, List.forall_mem_append] at hplain
  apply String.toList_injective
  rw [String.toList_join, hsource, (isGap_of_mem hgap).eq_nil hplain.2,
    hmunches.eq_flatMap hplain.1]
  simp [Token.endOfInput, List.flatMap_map]

end

/-- The last token of a source is the one that closes it, without text and behind the last byte.
The others are not empty, all stand where their spans say, one behind the other, and every byte
that none of them covers belongs to a gap between them. So a source without blanks and comments is
its lexemes put together. -/
theorem tokenize_coverage (source : String) (tokens : List Token)
    (h : tokenize source = .ok tokens) :
    (∃ before, tokens = before ++ [.endOfInput source.utf8ByteSize] ∧
      ∀ token ∈ before, ¬ token.isEndOfInput) ∧
    (tokens.Pairwise fun first second ↦ first.span.stop ≤ second.span.start) ∧
    (∀ token ∈ tokens, token.span.Holds source token.lexeme ∧
      (¬ token.isEndOfInput → token.span.start < token.span.stop)) ∧
    (∀ offset < source.utf8ByteSize, (∃ token ∈ tokens, token.span.Covers offset) ∨
      ∃ span : Text.Span, span.Covers offset ∧ GapAmong tokens source.toList [] span) ∧
    ((∀ character ∈ source.toList, ¬ IsBlank character ∧ character ≠ '#') →
      source = String.join (tokens.map Token.lexeme)) := by
  refine ⟨exists_of_tokenize h, pairwise_span_of_tokenize h, fun token hmem ↦ ⟨?_, ?_⟩,
    fun offset ↦ covers_of_tokenize h, eq_join_of_tokenize h⟩
  · exact (standsIn_of_tokenize h token hmem).holds
  · exact span_start_lt_stop_of_tokenize h hmem

/-- A comment with a character of two bytes moves the tokens behind it. -/
theorem tokenize_coverage_comment :
    tokenize "x #é\n=" = .ok [.identifier "x" 0, ⟨.newLine, "\n", 5⟩, .ofOperator .equal 6,
      .endOfInput 7] ∧
    Text.Span.Holds ⟨6, 7⟩ "x #é\n=" "=" := by
  have h : tokenize "x #é\n=" = .ok [.identifier "x" 0, ⟨.newLine, "\n", 5⟩,
      .ofOperator .equal 6, .endOfInput 7] := by cbv
  refine ⟨h, ?_⟩
  exact ((tokenize_coverage _ _ h).2.2.1 (.ofOperator .equal 6) (by simp)).1

end Formula
