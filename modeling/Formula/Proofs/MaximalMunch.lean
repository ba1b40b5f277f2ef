import Mathlib
import Formula.Proofs.Lexicon
import Formula.Proofs.SourceTokens

/-!
# The scanner munches maximally

The scanner cuts a text as `Munches` says. At every place the gap and the lexeme that it takes are
the longest ones of the lexicon (`longest_gaps_iff`, `lexemeAt?_eq_some_iff`), so that its tokens
are those of maximal munch, and its lexical error is the first place at which no lexeme matches
(`tokenize_maximalMunch`).
-/

set_option autoImplicit false
set_option relaxedAutoImplicit false

namespace Formula

open Computability Lexicon

namespace Token

/-! ### Characters -/

theorem isDigit_iff (character : Char) : character.isDigit = true ↔ IsDigit character := by
  simp [Char.isDigit, IsDigit, Char.le_def]

theorem startsName_iff (character : Char) : startsName character = true ↔ IsLetter character := by
  simp [startsName, Char.isAlpha, Char.isUpper, Char.isLower, IsLetter, Char.le_def, or_assoc,
    or_left_comm]

theorem continuesName_iff (character : Char) :
    continuesName character = true ↔ IsLetter character ∨ IsDigit character := by
  rw [← startsName_iff, ← isDigit_iff]
  simp [continuesName, startsName, Char.isAlphanum, or_right_comm]

theorem isBlank_iff (character : Char) : isBlank character = true ↔ IsBlank character := by
  simp [isBlank, IsBlank]

theorem isLineEnd_iff (character : Char) : isLineEnd character = true ↔ IsLineEnd character := by
  simp [isLineEnd, IsLineEnd]

/-! ### Lexemes -/

theorem mem_lexemes_identifier {text : List Char} :
    text ∈ lexemes .identifier ↔ ∃ first rest, text = first :: rest ∧ startsName first ∧
      ∀ character ∈ rest, continuesName character := by
  rw [lexemes, Language.mem_mul]
  constructor
  · rintro ⟨_, ⟨first, hfirst, rfl⟩, rest, hrest, rfl⟩
    refine ⟨first, rest, rfl, (startsName_iff first).mpr hfirst, fun character hmem ↦ ?_⟩
    exact (continuesName_iff character).mpr (mem_kstar_single.mp hrest character hmem)
  · rintro ⟨first, rest, rfl, hfirst, hrest⟩
    refine ⟨[first], ⟨first, (startsName_iff first).mp hfirst, rfl⟩, rest, ?_, rfl⟩
    exact mem_kstar_single.mpr fun character hmem ↦
      (continuesName_iff character).mp (hrest character hmem)

theorem mem_kstar_digits {text : List Char} :
    text ∈ (single IsDigit)∗ ↔ ∀ character ∈ text, character.isDigit := by
  rw [mem_kstar_single]
  exact forall₂_congr fun character _ ↦ (isDigit_iff character).symm

/-- The part of a number behind its digits: nothing, or a point and any number of digits. -/
def IsFraction (text : List Char) : Prop :=
  text = [] ∨ ∃ digits, text = '.' :: digits ∧ ∀ character ∈ digits, character.isDigit

theorem mem_lexemes_number {text : List Char} :
    text ∈ lexemes .number ↔ ∃ first digits fraction, text = first :: (digits ++ fraction) ∧
      first.isDigit ∧ (∀ character ∈ digits, character.isDigit) ∧ IsFraction fraction := by
  have hfraction (fraction : List Char) :
      fraction ∈ (1 + {['.']} * (single IsDigit)∗ : Language Char) ↔ IsFraction fraction := by
    rw [Language.mem_add, Language.mem_one, Language.mem_mul, IsFraction]
    refine or_congr_right ⟨?_, ?_⟩
    · rintro ⟨_, rfl, digits, hdigits, rfl⟩
      exact ⟨digits, rfl, mem_kstar_digits.mp hdigits⟩
    · rintro ⟨digits, rfl, hdigits⟩
      exact ⟨['.'], rfl, digits, mem_kstar_digits.mpr hdigits, rfl⟩
  rw [lexemes, mul_assoc, Language.mem_mul]
  constructor
  · rintro ⟨_, ⟨first, hfirst, rfl⟩, rest, hrest, rfl⟩
    obtain ⟨digits, hdigits, fraction, hmem, rfl⟩ := Language.mem_mul.mp hrest
    exact ⟨first, digits, fraction, rfl, (isDigit_iff first).mpr hfirst,
      mem_kstar_digits.mp hdigits, (hfraction fraction).mp hmem⟩
  · rintro ⟨first, digits, fraction, rfl, hfirst, hdigits, hmem⟩
    refine ⟨[first], ⟨first, (isDigit_iff first).mp hfirst, rfl⟩, digits ++ fraction, ?_, rfl⟩
    exact Language.append_mem_mul (mem_kstar_digits.mpr hdigits) ((hfraction fraction).mpr hmem)

theorem mem_lexemes_newLine {text : List Char} :
    text ∈ lexemes .newLine ↔ ∃ character, isLineEnd character ∧ text = [character] := by
  rw [lexemes, mem_single]
  exact exists_congr fun character ↦ and_congr_left fun _ ↦ (isLineEnd_iff character).symm

/-- The rest of a number is digits and a fraction, and starts the text that it is read from. -/
theorem exists_numberRest (text : List Char) :
    ∃ digits fraction, numberRest text = digits ++ fraction ∧
      (∀ character ∈ digits, character.isDigit) ∧ IsFraction fraction ∧
      numberRest text <+: text := by
  have hdigits : ∀ character ∈ text.takeWhile Char.isDigit, character.isDigit :=
    fun _ hmem ↦ List.mem_takeWhile_imp hmem
  refine ⟨_, _, rfl, hdigits, ?_, ?_⟩
  · split
    · exact .inr ⟨_, rfl, fun _ hmem ↦ List.mem_takeWhile_imp hmem⟩
    · exact .inl rfl
  · rw [numberRest]
    conv_rhs => rw [← List.takeWhile_append_dropWhile (p := Char.isDigit) (l := text)]
    rw [List.prefix_append_right_inj]
    split
    · next hrest =>
      rw [hrest, List.cons_prefix_cons]
      exact ⟨rfl, List.takeWhile_prefix _⟩
    · exact List.nil_prefix

/-- Digits and a fraction are read as a part of the rest of a number. -/
theorem prefix_numberRest {digits fraction : List Char}
    (hdigits : ∀ character ∈ digits, character.isDigit) (hfraction : IsFraction fraction)
    (more : List Char) : digits ++ fraction <+: numberRest (digits ++ fraction ++ more) := by
  have hpoint : Char.isDigit '.' = false := by decide
  rw [List.append_assoc, numberRest, List.takeWhile_append_of_pos hdigits,
    List.dropWhile_append_of_pos hdigits, List.append_assoc, List.prefix_append_right_inj]
  rcases hfraction with rfl | ⟨others, rfl, hothers⟩
  · exact List.nil_prefix
  · rw [List.cons_append, List.takeWhile_cons_of_neg (by simp [hpoint]),
      List.dropWhile_cons_of_neg (by simp [hpoint]), List.nil_append]
    simp only [List.takeWhile_append_of_pos hothers, List.cons_prefix_cons, List.prefix_append,
      and_self]

theorem not_startsName_of_isDigit {character : Char} (h : character.isDigit) :
    ¬ startsName character := by
  rw [isDigit_iff] at h
  rw [startsName_iff]
  rintro (hlower | hupper | rfl)
  · exact absurd (Char.le_trans hlower.1 h.2) (by decide)
  · exact absurd (Char.le_trans hupper.1 h.2) (by decide)
  · exact absurd h.2 (by decide)

/-- Where an operator starts a text, an operator is found. -/
theorem exists_lexemeAt?_operator (operator : Operator) (more : List Char) :
    ∃ found : Operator, lexemeAt? (operator.lexeme.toList ++ more) =
      some (.operator found, found.lexeme.toList) := by
  have hstarts : operator.lexeme.toList.isPrefixOf (operator.lexeme.toList ++ more) :=
    List.isPrefixOf_iff_prefix.mpr (List.prefix_append _ _)
  obtain ⟨found, hfound⟩ : ∃ found, operatorAt? (operator.lexeme.toList ++ more) = some found :=
    Option.isSome_iff_exists.mp (List.find?_isSome.mpr ⟨operator, Operator.mem_all _, hstarts⟩)
  have hlexeme : lexemeAt? (operator.lexeme.toList ++ more) =
      (operatorAt? (operator.lexeme.toList ++ more)).map fun found ↦
        (.operator found, found.lexeme.toList) := by
    cases operator <;> rfl
  exact ⟨found, by rw [hlexeme, hfound, Option.map_some]⟩

/-- A lexeme that is found belongs to its kind and starts the text. -/
theorem mem_lexemes_of_lexemeAt? {text lexeme : List Char} {kind : TokenKind}
    (h : lexemeAt? text = some (kind, lexeme)) : lexeme ∈ lexemes kind ∧ lexeme <+: text := by
  cases text with
  | nil => cases h
  | cons first rest =>
    rw [lexemeAt?] at h
    split_ifs at h with hname hdigit hline
    · obtain ⟨rfl, rfl⟩ := Prod.mk.inj (Option.some.inj h)
      exact ⟨mem_lexemes_identifier.mpr
          ⟨first, _, rfl, hname, fun _ hmem ↦ List.mem_takeWhile_imp hmem⟩,
        List.cons_prefix_cons.mpr ⟨rfl, List.takeWhile_prefix _⟩⟩
    · obtain ⟨rfl, rfl⟩ := Prod.mk.inj (Option.some.inj h)
      obtain ⟨digits, fraction, hrest, hdigits, hfraction, hstarts⟩ := exists_numberRest rest
      rw [hrest] at hstarts ⊢
      exact ⟨mem_lexemes_number.mpr ⟨first, digits, fraction, rfl, hdigit, hdigits, hfraction⟩,
        List.cons_prefix_cons.mpr ⟨rfl, hstarts⟩⟩
    · obtain ⟨rfl, rfl⟩ := Prod.mk.inj (Option.some.inj h)
      exact ⟨mem_lexemes_newLine.mpr ⟨first, hline, rfl⟩,
        List.cons_prefix_cons.mpr ⟨rfl, List.nil_prefix⟩⟩
    · obtain ⟨operator, hfound, hoperator⟩ := Option.map_eq_some_iff.mp h
      obtain ⟨rfl, rfl⟩ := Prod.mk.inj hoperator
      rw [operatorAt?] at hfound
      have hstarts := List.find?_some hfound
      exact ⟨rfl, List.isPrefixOf_iff_prefix.mp hstarts⟩

/-- A lexeme is found in a text that begins with it, or else a longer one is. -/
theorem exists_lexemeAt?_append {lexeme : List Char} {kind : TokenKind} (h : lexeme ∈ lexemes kind)
    (more : List Char) : ∃ foundKind found, lexemeAt? (lexeme ++ more) = some (foundKind, found) ∧
      lexeme.length ≤ found.length := by
  cases kind with
  | identifier =>
    obtain ⟨first, rest, rfl, hfirst, hrest⟩ := mem_lexemes_identifier.mp h
    refine ⟨.identifier, first :: (rest ++ more).takeWhile continuesName, if_pos hfirst, ?_⟩
    rw [List.takeWhile_append_of_pos hrest]
    exact Nat.succ_le_succ (List.prefix_append _ _).length_le
  | number =>
    obtain ⟨first, digits, fraction, rfl, hfirst, hdigits, hfraction⟩ := mem_lexemes_number.mp h
    refine ⟨.number, first :: numberRest (digits ++ fraction ++ more), ?_, ?_⟩
    · rw [List.cons_append, lexemeAt?, if_neg (not_startsName_of_isDigit hfirst), if_pos hfirst]
    · exact Nat.succ_le_succ (prefix_numberRest hdigits hfraction more).length_le
  | operator symbol =>
    obtain rfl := Set.mem_singleton_iff.mp h
    obtain ⟨found, hfound⟩ := exists_lexemeAt?_operator symbol more
    cases symbol with
    | power | lessEqual | greaterEqual | notEqual => exact ⟨_, _, rfl, Nat.le_refl _⟩
    | _ => exact ⟨_, _, hfound, by cases found <;> decide⟩
  | newLine =>
    obtain ⟨character, hline, rfl⟩ := mem_lexemes_newLine.mp h
    rw [isLineEnd_iff] at hline
    rcases hline with rfl | rfl <;> exact ⟨_, _, rfl, Nat.le_refl _⟩
  | endOfInput | invalid => exact h.elim

/-- A lexeme on its own is found as a whole. -/
theorem lexemeAt?_of_mem {lexeme : List Char} {kind : TokenKind} (h : lexeme ∈ lexemes kind) :
    lexemeAt? lexeme = some (kind, lexeme) := by
  cases kind with
  | identifier =>
    obtain ⟨first, rest, rfl, hfirst, hrest⟩ := mem_lexemes_identifier.mp h
    rw [lexemeAt?, if_pos hfirst, List.takeWhile_eq_self_iff.mpr hrest]
  | number =>
    obtain ⟨first, digits, fraction, rfl, hfirst, hdigits, hfraction⟩ := mem_lexemes_number.mp h
    have hwhole : numberRest (digits ++ fraction) = digits ++ fraction := by
      obtain ⟨_, _, -, -, -, hstarts⟩ := exists_numberRest (digits ++ fraction)
      have hread := prefix_numberRest hdigits hfraction []
      rw [List.append_nil] at hread
      exact hstarts.eq_of_length_le hread.length_le
    rw [lexemeAt?, if_neg (not_startsName_of_isDigit hfirst), if_pos hfirst, hwhole]
  | operator symbol =>
    obtain rfl := Set.mem_singleton_iff.mp h
    cases symbol <;> rfl
  | newLine =>
    obtain ⟨character, hline, rfl⟩ := mem_lexemes_newLine.mp h
    rw [isLineEnd_iff] at hline
    rcases hline with rfl | rfl <;> rfl
  | endOfInput | invalid => exact h.elim

theorem lexemes_ne_nil {lexeme : List Char} {kind : TokenKind} (h : lexeme ∈ lexemes kind) :
    lexeme ≠ [] := by
  rintro rfl
  cases lexemeAt?_of_mem h

theorem not_isEndOfInput_of_mem_lexemes {token : Token}
    (h : token.lexeme.toList ∈ lexemes token.kind) : ¬ token.isEndOfInput := by
  intro hend
  rw [isEndOfInput, beq_iff_eq] at hend
  rw [hend] at h
  exact h

/-- The scanner finds the longest lexeme of a text. -/
theorem lexemeAt?_eq_some_iff {text lexeme : List Char} {kind : TokenKind} :
    lexemeAt? text = some (kind, lexeme) ↔
      Longest allLexemes text lexeme ∧ lexeme ∈ lexemes kind := by
  have hlongest {foundKind : TokenKind} {found : List Char}
      (h : lexemeAt? text = some (foundKind, found)) : Longest allLexemes text found := by
    obtain ⟨hmem, hstarts⟩ := mem_lexemes_of_lexemeAt? h
    refine ⟨⟨foundKind, hmem⟩, hstarts, ?_⟩
    rintro other ⟨otherKind, hother⟩ ⟨more, rfl⟩
    obtain ⟨_, _, hfound, hlength⟩ := exists_lexemeAt?_append hother more
    obtain ⟨rfl, rfl⟩ := Prod.mk.inj (Option.some.inj (h.symm.trans hfound))
    exact hlength
  constructor
  · intro h
    exact ⟨hlongest h, (mem_lexemes_of_lexemeAt? h).1⟩
  · rintro ⟨hlexeme, hkind⟩
    obtain ⟨more, rfl⟩ := hlexeme.isPrefix
    obtain ⟨foundKind, found, hfound, -⟩ := exists_lexemeAt?_append hkind more
    obtain rfl := (hlongest hfound).unique hlexeme
    have hsame := (lexemeAt?_of_mem (mem_lexemes_of_lexemeAt? hfound).1).symm.trans
      (lexemeAt?_of_mem hkind)
    obtain rfl := (Prod.mk.inj (Option.some.inj hsame)).1
    exact hfound

theorem lexemeAt?_eq_none_iff {text : List Char} :
    lexemeAt? text = none ↔ ∀ lexeme ∈ allLexemes, ¬ lexeme <+: text := by
  constructor
  · rintro h lexeme ⟨kind, hkind⟩ ⟨more, rfl⟩
    obtain ⟨_, _, hfound, -⟩ := exists_lexemeAt?_append hkind more
    rw [h] at hfound
    cases hfound
  · intro h
    rw [Option.eq_none_iff_forall_ne_some]
    rintro ⟨kind, lexeme⟩ hfound
    obtain ⟨hmem, hstarts⟩ := mem_lexemes_of_lexemeAt? hfound
    exact h lexeme ⟨kind, hmem⟩ hstarts

/-! ### Gaps -/

/-- The comment at the start of a text, if there is one. -/
def commentAt : List Char → List Char
  | '#' :: body => '#' :: body.takeWhile fun character ↦ !isLineEnd character
  | _ => []

/-- The blanks at the start of a text and the comment behind them. -/
def gapAt (text : List Char) : List Char :=
  text.takeWhile isBlank ++ commentAt (text.dropWhile isBlank)

theorem mem_comments {text : List Char} :
    text ∈ comments ↔ ∃ body, text = '#' :: body ∧
      ∀ character ∈ body, (!isLineEnd character) = true := by
  have hbody (body : List Char) : body ∈ (single fun character ↦ ¬ IsLineEnd character)∗ ↔
      ∀ character ∈ body, (!isLineEnd character) = true := by
    simp only [mem_kstar_single, ← isLineEnd_iff, Bool.not_eq_true, Bool.not_eq_true']
  rw [comments, Language.mem_mul]
  constructor
  · rintro ⟨_, rfl, body, hmem, rfl⟩
    exact ⟨body, rfl, (hbody body).mp hmem⟩
  · rintro ⟨body, rfl, hmem⟩
    exact ⟨['#'], rfl, body, (hbody body).mpr hmem, rfl⟩

theorem append_mem_gaps {first second : List Char} (hfirst : first ∈ gaps)
    (hsecond : second ∈ gaps) : first ++ second ∈ gaps :=
  (kstar_mul_kstar (single IsBlank + comments)).le (Language.append_mem_mul hfirst hsecond)

theorem blanks_mem_gaps {blanks : List Char} (h : ∀ character ∈ blanks, isBlank character) :
    blanks ∈ gaps := by
  have hle : single IsBlank ≤ single IsBlank + comments := fun _ hmem ↦ .inl hmem
  refine kstar_mono hle (mem_kstar_single.mpr fun character hmem ↦ ?_)
  exact (isBlank_iff character).mp (h character hmem)

theorem comment_mem_gaps {comment : List Char} (h : comment ∈ comments) : comment ∈ gaps :=
  le_kstar (a := single IsBlank + comments) (.inr h)

theorem not_isLineEnd_of_isBlank {character : Char} (h : isBlank character) :
    (!isLineEnd character) = true := by
  rw [isBlank_iff] at h
  rcases h with rfl | rfl <;> decide

/-- A gap consists of blanks and at most one comment: what comes behind its first comment belongs
to this comment. -/
theorem exists_of_mem_gaps {gap : List Char} (h : gap ∈ gaps) :
    ∃ blanks comment, gap = blanks ++ comment ∧ (∀ character ∈ blanks, isBlank character) ∧
      (comment = [] ∨ comment ∈ comments) := by
  obtain ⟨pieces, rfl, hpieces⟩ := Language.mem_kstar.mp h
  induction pieces with
  | nil => exact ⟨[], [], rfl, List.forall_mem_nil _, .inl rfl⟩
  | cons piece pieces ih =>
    obtain ⟨hpiece, hothers⟩ := List.forall_mem_cons.mp hpieces
    obtain ⟨blanks, comment, hflatten, hblanks, hcomment⟩ :=
      ih hothers (Language.join_mem_kstar hothers)
    rw [List.flatten_cons, hflatten]
    rcases hpiece with ⟨blank, hblank, rfl⟩ | hpiece
    · rw [← isBlank_iff] at hblank
      exact ⟨blank :: blanks, comment, rfl, List.forall_mem_cons.mpr ⟨hblank, hblanks⟩, hcomment⟩
    · obtain ⟨body, rfl, hbody⟩ := mem_comments.mp hpiece
      refine ⟨[], _, rfl, List.forall_mem_nil _, .inr (mem_comments.mpr
        ⟨body ++ (blanks ++ comment), rfl, ?_⟩)⟩
      have hrest : ∀ character ∈ comment, (!isLineEnd character) = true := by
        rcases hcomment with rfl | hcomment
        · exact List.forall_mem_nil _
        · obtain ⟨more, rfl, hmore⟩ := mem_comments.mp hcomment
          exact List.forall_mem_cons.mpr ⟨by decide, hmore⟩
      exact List.forall_mem_append.mpr ⟨hbody, List.forall_mem_append.mpr
        ⟨fun character hmem ↦ not_isLineEnd_of_isBlank (hblanks character hmem), hrest⟩⟩

theorem gapAt_mem_gaps (text : List Char) : gapAt text ∈ gaps := by
  refine append_mem_gaps (blanks_mem_gaps fun _ hmem ↦ List.mem_takeWhile_imp hmem) ?_
  unfold commentAt
  split
  · refine comment_mem_gaps (mem_comments.mpr ⟨_, rfl, ?_⟩)
    intro character hmem
    exact List.mem_takeWhile_imp (p := fun character ↦ !isLineEnd character) hmem
  · exact Language.nil_mem_kstar _

theorem commentAt_isPrefix (text : List Char) : commentAt text <+: text := by
  unfold commentAt
  split
  · exact List.cons_prefix_cons.mpr ⟨rfl, List.takeWhile_prefix _⟩
  · exact List.nil_prefix

theorem gapAt_isPrefix (text : List Char) : gapAt text <+: text := by
  conv_rhs => rw [← List.takeWhile_append_dropWhile (p := isBlank) (l := text)]
  exact (List.prefix_append_right_inj _).mpr (commentAt_isPrefix _)

theorem prefix_gapAt {gap : List Char} (h : gap ∈ gaps) (more : List Char) :
    gap <+: gapAt (gap ++ more) := by
  have hhash : isBlank '#' = false := by decide
  obtain ⟨blanks, comment, rfl, hblanks, hcomment⟩ := exists_of_mem_gaps h
  rw [List.append_assoc, gapAt, List.takeWhile_append_of_pos hblanks,
    List.dropWhile_append_of_pos hblanks, List.append_assoc, List.prefix_append_right_inj]
  rcases hcomment with rfl | hcomment
  · exact List.nil_prefix
  · obtain ⟨body, rfl, hbody⟩ := mem_comments.mp hcomment
    rw [List.cons_append, List.takeWhile_cons_of_neg (by simp [hhash]),
      List.dropWhile_cons_of_neg (by simp [hhash]), List.nil_append, commentAt,
      List.takeWhile_append_of_pos hbody, List.cons_prefix_cons]
    exact ⟨rfl, List.prefix_append _ _⟩

/-- The longest gap at the start of a text. -/
theorem longest_gaps_iff {text gap : List Char} :
    Longest gaps text gap ↔ gap = gapAt text := by
  have hlongest : Longest gaps text (gapAt text) := by
    refine ⟨gapAt_mem_gaps text, gapAt_isPrefix text, ?_⟩
    rintro other hother ⟨more, rfl⟩
    exact (prefix_gapAt hother more).length_le
  exact ⟨fun h ↦ h.unique hlongest, fun h ↦ h ▸ hlongest⟩

/-- Behind the longest gap there is neither a blank nor a comment. -/
theorem not_isBlank_of_longest {gap rest : List Char} {next : Char}
    (h : Longest gaps (gap ++ next :: rest) gap) : ¬ isBlank next ∧ next ≠ '#' := by
  have hlonger (hnext : [next] ∈ gaps) : False := by
    have hlength := h.length_le (gap ++ [next]) (append_mem_gaps h.mem hnext)
      ⟨rest, by rw [List.append_assoc, List.singleton_append]⟩
    rw [List.length_append, List.length_singleton] at hlength
    omega
  constructor
  · intro hblank
    exact hlonger (blanks_mem_gaps (List.forall_mem_singleton.mpr hblank))
  · rintro rfl
    exact hlonger (comment_mem_gaps (mem_comments.mpr ⟨[], rfl, List.forall_mem_nil _⟩))

end Token

namespace TokenStream

/-! ### Scanning -/

theorem scan_blanks {blanks : List Char} (h : ∀ character ∈ blanks, Token.isBlank character)
    (offset : Nat) (text : List Char) :
    scan 0 offset (blanks ++ text) = scan 0 (offset + Text.byteLength blanks) text := by
  induction blanks generalizing offset with
  | nil => rfl
  | cons blank blanks ih =>
    obtain ⟨hblank, hothers⟩ := List.forall_mem_cons.mp h
    rw [List.cons_append, scan, if_pos hblank, ih hothers, Text.byteLength_cons, Nat.add_assoc]

theorem scan_commentAt (text : List Char) :
    ∃ rest, text = Token.commentAt text ++ rest ∧ ∀ offset,
      scan 0 offset text = scan 0 (offset + Text.byteLength (Token.commentAt text)) rest := by
  unfold Token.commentAt
  split
  · next body =>
    have hbody :=
      List.takeWhile_append_dropWhile (p := fun next ↦ !Token.isLineEnd next) (l := body)
    refine ⟨body.dropWhile fun next ↦ !Token.isLineEnd next, ?_, fun offset ↦ ?_⟩
    · rw [List.cons_append, hbody]
    · have hpassed := scan_append (body.takeWhile fun next ↦ !Token.isLineEnd next)
        (offset + '#'.utf8Size) (body.dropWhile fun next ↦ !Token.isLineEnd next)
      rw [hbody] at hpassed
      rw [scan, if_neg (by decide), if_pos rfl, Token.commentLength, hpassed, Text.byteLength_cons,
        Nat.add_assoc]
  · exact ⟨text, rfl, fun _ ↦ rfl⟩

/-- The longest gap at the start of a text is passed over. -/
theorem scan_gap {gap rest : List Char} (h : Longest gaps (gap ++ rest) gap) (offset : Nat) :
    scan 0 offset (gap ++ rest) = scan 0 (offset + Text.byteLength gap) rest := by
  have hgap := Token.longest_gaps_iff.mp h
  generalize htext : gap ++ rest = text at hgap
  have hblanks : ∀ character ∈ text.takeWhile Token.isBlank, Token.isBlank character :=
    fun _ hmem ↦ List.mem_takeWhile_imp hmem
  obtain ⟨more, hmore, hscan⟩ := scan_commentAt (text.dropWhile Token.isBlank)
  have hsplit : gap ++ rest = gap ++ more := by
    rw [htext, hgap, Token.gapAt, List.append_assoc, ← hmore, List.takeWhile_append_dropWhile]
  obtain rfl := List.append_cancel_left hsplit
  conv_lhs => rw [← List.takeWhile_append_dropWhile (p := Token.isBlank) (l := text)]
  rw [scan_blanks hblanks, hscan, hgap, Token.gapAt, Text.byteLength_append, Nat.add_assoc]

/-- Tokens in front of a stream. -/
def prepend (tokens : List Token) (stream : TokenStream) : TokenStream :=
  tokens.foldr token stream

theorem prepend_concat (tokens : List Token) (last : Token) (stream : TokenStream) :
    prepend (tokens ++ [last]) stream = prepend tokens (token last stream) := by
  rw [prepend, List.foldr_append]
  rfl

theorem toTokens_prepend (tokens : List Token) (stream : TokenStream) :
    (prepend tokens stream).toTokens = stream.toTokens.map (tokens ++ ·) := by
  induction tokens with
  | nil =>
    rw [prepend, List.foldr_nil]
    cases stream.toTokens <;> rfl
  | cons first tokens ih =>
    change (prepend tokens stream).toTokens.map (first :: ·) = _
    rw [ih]
    cases stream.toTokens <;> rfl

theorem yielded_prepend (tokens : List Token) (stream : TokenStream) :
    (prepend tokens stream).yielded = tokens ++ stream.yielded := by
  induction tokens with
  | nil => rfl
  | cons first tokens ih =>
    change first :: (prepend tokens stream).yielded = _
    rw [ih, List.cons_append]

/-- Where maximal munch comes to a place, the scanner does with the same tokens. -/
theorem scan_of_munches {passed rest : List Char} {tokens : List Token}
    (h : Munches passed tokens rest) :
    scan 0 0 (passed ++ rest) = prepend tokens (scan 0 (Text.byteLength passed) rest) := by
  induction h with
  | start text => rfl
  | @next passed gap lexeme rest tokens kind _ hgap hlexeme hkind ih =>
    obtain ⟨first, others, rfl⟩ := List.exists_cons_of_ne_nil (Token.lexemes_ne_nil hkind)
    obtain ⟨hblank, hcomment⟩ := Token.not_isBlank_of_longest hgap
    have hfound := Token.lexemeAt?_eq_some_iff.mpr ⟨hlexeme, hkind⟩
    rw [List.append_assoc, List.append_assoc, ih, scan_gap hgap,
      scan_lexeme hblank hcomment hfound, prepend_concat, Text.byteLength_append,
      Text.byteLength_append, Text.byteLength_append]

theorem scan_of_munchesAll {text : List Char} {tokens : List Token} (h : MunchesAll text tokens) :
    scan 0 0 text = prepend tokens (.finish (Text.byteLength text)) := by
  obtain ⟨passed, gap, rfl, hmunches, hgap⟩ := h
  have hlongest : Longest gaps (gap ++ []) gap :=
    ⟨hgap, List.prefix_append _ _, fun other _ hother ↦ by simpa using hother.length_le⟩
  have hscan := scan_gap hlongest (Text.byteLength passed)
  rw [List.append_nil] at hscan
  rw [scan_of_munches hmunches, hscan, scan, Text.byteLength_append]

theorem scan_of_breaksAt {text passed : List Char} {character : Char} {tokens : List Token}
    (h : BreaksAt text passed character tokens) :
    scan 0 0 text = prepend tokens (.invalid ⟨character, Text.byteLength passed⟩) := by
  obtain ⟨before, gap, rest, rfl, rfl, hmunches, hgap, hnone⟩ := h
  obtain ⟨hblank, hcomment⟩ := Token.not_isBlank_of_longest hgap
  have hfound := Token.lexemeAt?_eq_none_iff.mpr hnone
  rw [List.append_assoc, scan_of_munches hmunches, scan_gap hgap, scan, if_neg hblank,
    if_neg hcomment, hfound, Text.byteLength_append]

end TokenStream

/-! ### Sources -/

namespace Lexicon

/-- From every place that it comes to, maximal munch comes to the end of the text or to a place
where no lexeme matches. -/
theorem Munches.munchesAll_or_breaksAt {passed rest : List Char} {tokens : List Token}
    (h : Munches passed tokens rest) :
    (∃ munched, MunchesAll (passed ++ rest) munched) ∨
      ∃ before character munched, BreaksAt (passed ++ rest) before character munched := by
  -- every lexeme makes the rest of the text shorter
  induction hlength : rest.length using Nat.strong_induction_on generalizing passed tokens rest with
  | _ length ih =>
    obtain ⟨more, hmore⟩ := Token.gapAt_isPrefix rest
    have hgap := Token.longest_gaps_iff.mpr (rfl : Token.gapAt rest = _)
    generalize Token.gapAt rest = gap at hmore hgap
    subst hmore
    cases more with
    | nil =>
      rw [List.append_nil] at h ⊢
      exact .inl ⟨tokens, passed, gap, rfl, h, hgap.mem⟩
    | cons next others =>
      cases hfound : Token.lexemeAt? (next :: others) with
      | none =>
        exact .inr ⟨passed ++ gap, next, tokens, passed, gap, others, rfl,
          (List.append_assoc passed gap _).symm, h, hgap, Token.lexemeAt?_eq_none_iff.mp hfound⟩
      | some found =>
        obtain ⟨kind, lexeme⟩ := found
        obtain ⟨hlexeme, hkind⟩ := Token.lexemeAt?_eq_some_iff.mp hfound
        obtain ⟨final, hfinal⟩ := hlexeme.isPrefix
        rw [← hfinal] at h hgap hlexeme hlength ⊢
        have hlonger := List.length_pos_iff.mpr (Token.lexemes_ne_nil hkind)
        have hshorter : final.length < length := by
          rw [← hlength, List.length_append, List.length_append]
          omega
        have hnext := ih final.length hshorter (.next h hgap hlexeme hkind) rfl
        rwa [List.append_assoc, List.append_assoc] at hnext

/-- Every token of maximal munch has a lexeme of its kind. -/
theorem Munches.mem_lexemes {passed rest : List Char} {tokens : List Token}
    (h : Munches passed tokens rest) :
    ∀ token ∈ tokens, token.lexeme.toList ∈ lexemes token.kind := by
  induction h with
  | start text => exact List.forall_mem_nil _
  | next _ _ _ hkind ih =>
    refine List.forall_mem_append.mpr ⟨ih, List.forall_mem_singleton.mpr ?_⟩
    rwa [String.toList_ofList]

/-- Maximal munch does not look beyond the place that it comes to. -/
theorem Munches.of_isPrefix {passed rest shorter : List Char} {tokens : List Token}
    (h : Munches passed tokens rest) (hshorter : shorter <+: rest) :
    Munches passed tokens shorter := by
  induction h generalizing shorter with
  | start text => exact .start shorter
  | @next passed gap lexeme rest tokens kind _ hgap hlexeme hkind ih =>
    have hrest := (List.prefix_append_right_inj lexeme).mpr hshorter
    have htext := (List.prefix_append_right_inj gap).mpr hrest
    exact .next (ih htext) (hgap.of_isPrefix htext (List.prefix_append _ _))
      (hlexeme.of_isPrefix hrest (List.prefix_append _ _)) hkind

/-- In front of the place where no lexeme matches the text is cut into the same tokens. -/
theorem BreaksAt.munchesAll {text passed : List Char} {character : Char} {tokens : List Token}
    (h : BreaksAt text passed character tokens) : MunchesAll passed tokens := by
  obtain ⟨before, gap, rest, rfl, -, hmunches, hgap, -⟩ := h
  exact ⟨before, gap, rfl, hmunches.of_isPrefix (List.prefix_append gap _), hgap.mem⟩

end Lexicon

theorem tokenize_of_munchesAll {source : String} {tokens : List Token}
    (h : MunchesAll source.toList tokens) :
    tokenize source = .ok (tokens ++ [.endOfInput source.utf8ByteSize]) := by
  rw [tokenize, TokenStream.ofSource, TokenStream.scan_of_munchesAll h,
    TokenStream.toTokens_prepend, Text.byteLength_toList]
  rfl

theorem tokenize_of_breaksAt {source : String} {passed : List Char} {character : Char}
    {tokens : List Token} (h : BreaksAt source.toList passed character tokens) :
    tokenize source = .error ⟨character, Text.byteLength passed⟩ := by
  rw [tokenize, TokenStream.ofSource, TokenStream.scan_of_breaksAt h,
    TokenStream.toTokens_prepend]
  rfl

theorem yielded_of_munchesAll {source : String} {tokens : List Token}
    (h : MunchesAll source.toList tokens) :
    (TokenStream.ofSource source).yielded = tokens ++ [.endOfInput source.utf8ByteSize] := by
  rw [TokenStream.ofSource, TokenStream.scan_of_munchesAll h, TokenStream.yielded_prepend,
    Text.byteLength_toList, TokenStream.yielded]

theorem yielded_of_breaksAt {source : String} {passed : List Char} {character : Char}
    {tokens : List Token} (h : BreaksAt source.toList passed character tokens) :
    (TokenStream.ofSource source).yielded = tokens := by
  rw [TokenStream.ofSource, TokenStream.scan_of_breaksAt h, TokenStream.yielded_prepend,
    TokenStream.yielded, List.append_nil]

/-- Every source is munched to its end, or up to a place where no lexeme matches. -/
theorem munchesAll_or_breaksAt (source : String) :
    (∃ tokens, MunchesAll source.toList tokens) ∨
      ∃ passed character tokens, BreaksAt source.toList passed character tokens :=
  (Munches.start source.toList).munchesAll_or_breaksAt

theorem mem_lexemes_of_mem_yielded {source : String} {token : Token}
    (h : token ∈ (TokenStream.ofSource source).yielded) (htoken : ¬ token.isEndOfInput) :
    token.lexeme.toList ∈ lexemes token.kind := by
  rcases munchesAll_or_breaksAt source with ⟨tokens, hall⟩ | ⟨_, _, tokens, hbreaks⟩
  · rw [yielded_of_munchesAll hall, List.mem_append, List.mem_singleton] at h
    obtain ⟨_, _, -, hmunches, -⟩ := hall
    rcases h with hmem | rfl
    · exact hmunches.mem_lexemes token hmem
    · exact absurd rfl htoken
  · rw [yielded_of_breaksAt hbreaks] at h
    obtain ⟨_, _, _, -, -, hmunches, -⟩ := hbreaks
    exact hmunches.mem_lexemes token h

theorem tokenize_eq_ok_iff {source : String} {tokens : List Token} :
    tokenize source = .ok tokens ↔ ∃ munched, MunchesAll source.toList munched ∧
      tokens = munched ++ [.endOfInput source.utf8ByteSize] := by
  constructor
  · intro h
    rcases munchesAll_or_breaksAt source with ⟨munched, hmunched⟩ | ⟨_, _, _, hbreaks⟩
    · rw [tokenize_of_munchesAll hmunched, Except.ok.injEq] at h
      exact ⟨munched, hmunched, h.symm⟩
    · rw [tokenize_of_breaksAt hbreaks] at h
      cases h
  · rintro ⟨munched, hmunched, rfl⟩
    exact tokenize_of_munchesAll hmunched

theorem tokenize_eq_error_iff {source : String} {error : LexError} :
    tokenize source = .error error ↔ ∃ passed munched,
      BreaksAt source.toList passed error.character munched ∧
        error.offset = Text.byteLength passed := by
  constructor
  · intro h
    rcases munchesAll_or_breaksAt source with ⟨_, hmunched⟩ | ⟨passed, _, munched, hbreaks⟩
    · rw [tokenize_of_munchesAll hmunched] at h
      cases h
    · rw [tokenize_of_breaksAt hbreaks, Except.error.injEq] at h
      subst h
      exact ⟨passed, munched, hbreaks, rfl⟩
  · rintro ⟨passed, munched, hbreaks, hoffset⟩
    rw [tokenize_of_breaksAt hbreaks, ← hoffset]

/-- The token that closes a source is the only one of its kind. -/
theorem exists_of_tokenize {source : String} {tokens : List Token}
    (h : tokenize source = .ok tokens) :
    ∃ before, tokens = before ++ [.endOfInput source.utf8ByteSize] ∧
      ∀ token ∈ before, ¬ token.isEndOfInput := by
  obtain ⟨munched, ⟨_, _, -, hmunches, -⟩, rfl⟩ := tokenize_eq_ok_iff.mp h
  exact ⟨munched, rfl, fun token hmem ↦
    Token.not_isEndOfInput_of_mem_lexemes (hmunches.mem_lexemes token hmem)⟩

/-- A source with a lexical error has no closing token. -/
theorem not_isEndOfInput_of_tokenize_error {source : String} {error : LexError}
    (h : tokenize source = .error error) :
    ∀ token ∈ (TokenStream.ofSource source).yielded, ¬ token.isEndOfInput := by
  obtain ⟨passed, munched, hbreaks, -⟩ := tokenize_eq_error_iff.mp h
  rw [yielded_of_breaksAt hbreaks]
  obtain ⟨_, _, _, -, -, hmunches, -⟩ := hbreaks
  exact fun token hmem ↦ Token.not_isEndOfInput_of_mem_lexemes (hmunches.mem_lexemes token hmem)

/-- The source up to its lexical error has the tokens in front of the error. -/
theorem exists_tokenize_of_error {source : String} {error : LexError}
    (h : tokenize source = .error error) : ∃ passed rest,
      source.toList = passed ++ error.character :: rest ∧
        error.offset = Text.byteLength passed ∧
        tokenize (String.ofList passed) =
          .ok ((TokenStream.ofSource source).yielded ++ [.endOfInput error.offset]) := by
  obtain ⟨passed, munched, hbreaks, hoffset⟩ := tokenize_eq_error_iff.mp h
  have hall : MunchesAll (String.ofList passed).toList munched := by
    rw [String.toList_ofList]
    exact hbreaks.munchesAll
  have hyielded := yielded_of_breaksAt hbreaks
  obtain ⟨_, _, rest, -, hsource, -⟩ := hbreaks
  refine ⟨passed, rest, hsource, hoffset, ?_⟩
  rw [tokenize_of_munchesAll hall, hyielded, hoffset, ← Text.byteLength_toList,
    String.toList_ofList]

/-- The tokens of a source are those of maximal munch, followed by the token that closes the
source. There is a lexical error exactly where maximal munch comes to a place at which no lexeme
matches; the tokens in front of it are those of the source up to this place. -/
theorem tokenize_maximalMunch (source : String) :
    (∀ tokens, tokenize source = .ok tokens ↔ ∃ munched, MunchesAll source.toList munched ∧
      tokens = munched ++ [.endOfInput source.utf8ByteSize]) ∧
    (∀ error, tokenize source = .error error ↔ ∃ passed munched,
      BreaksAt source.toList passed error.character munched ∧
        error.offset = Text.byteLength passed) ∧
    ∀ error, tokenize source = .error error → ∃ passed rest,
      source.toList = passed ++ error.character :: rest ∧
        error.offset = Text.byteLength passed ∧
        tokenize (String.ofList passed) =
          .ok ((TokenStream.ofSource source).yielded ++ [.endOfInput error.offset]) :=
  ⟨fun _ ↦ tokenize_eq_ok_iff, fun _ ↦ tokenize_eq_error_iff, fun _ ↦ exists_tokenize_of_error⟩

/-- A mark that starts no lexeme is found behind a comment with a character of two bytes. -/
theorem tokenize_maximalMunch_comment :
    tokenize "x <= 1.#é\n!y" = .error ⟨'!', 11⟩ ∧ ∃ passed rest,
      "x <= 1.#é\n!y".toList = passed ++ '!' :: rest ∧ 11 = Text.byteLength passed ∧
        tokenize (String.ofList passed) =
          .ok ((TokenStream.ofSource "x <= 1.#é\n!y").yielded ++ [.endOfInput 11]) := by
  have herror : tokenize "x <= 1.#é\n!y" = .error ⟨'!', 11⟩ := by cbv
  exact ⟨herror, (tokenize_maximalMunch "x <= 1.#é\n!y").2.2 _ herror⟩

end Formula
