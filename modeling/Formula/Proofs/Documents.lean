import Formula.Processing
import Formula.Proofs.Decoding

/-!
# Reading indented documents back

The indented text of a JSON document tells which document it was (`write_injective`), whatever its
texts hold and however deep it nests. Inside a string, `unescape?` reads one character back from
its escape. Numbers end where no digit follows, and lists and records are blocks of lines between
two brackets, whose indentation says to which block a line belongs.
-/

set_option autoImplicit false
set_option relaxedAutoImplicit false

namespace Formula

namespace Json

open Text

/-! ### Texts -/

/-- The value of a digit in base sixteen. -/
def hexValue (digit : Char) : Nat :=
  (List.range 16).findIdx fun value ↦ Nat.digitChar value == digit

/-- Reads the first character of a string back, unless the string ends here. -/
def unescape? : List Char → Option (Char × List Char)
  | '\\' :: 'n' :: rest => some ('\n', rest)
  | '\\' :: 'r' :: rest => some ('\r', rest)
  | '\\' :: 't' :: rest => some ('\t', rest)
  | '\\' :: 'b' :: rest => some ('\x08', rest)
  | '\\' :: 'f' :: rest => some ('\x0c', rest)
  | '\\' :: 'u' :: _ :: _ :: high :: low :: rest =>
    some (Char.ofNat (16 * hexValue high + hexValue low), rest)
  | '\\' :: character :: rest => some (character, rest)
  | '"' :: _ => none
  | character :: rest => some (character, rest)
  | [] => none

theorem hexValue_digitChar : ∀ value < 16, hexValue (Nat.digitChar value) = value := by
  decide

theorem unescape?_escape (character : Char) (rest : List Char) :
    unescape? (escape character ++ rest) = some (character, rest) := by
  unfold escape
  split_ifs with hquote hbackslash _ _ _ _ _ hcontrol
  any_goals (subst_vars; rfl)
  · have hvalue : 16 * hexValue (Nat.digitChar (character.toNat / 16)) +
        hexValue (Nat.digitChar (character.toNat % 16)) = character.toNat := by
      rw [hexValue_digitChar _ (by omega), hexValue_digitChar _ (by omega)]
      exact Nat.div_add_mod _ _
    simp [unescape?, hvalue]
  · simp [unescape?, hbackslash]

theorem eq_of_escaped {first second firstRest secondRest : List Char}
    (h : first.flatMap escape ++ '"' :: firstRest = second.flatMap escape ++ '"' :: secondRest) :
    first = second ∧ firstRest = secondRest := by
  have hread (character : Char) (text rest : List Char) :
      unescape? ((character :: text).flatMap escape ++ rest) =
        some (character, text.flatMap escape ++ rest) := by
    rw [List.flatMap_cons, List.append_assoc, unescape?_escape]
  induction first generalizing second with
  | nil =>
    cases second with
    | nil => exact ⟨rfl, List.tail_eq_of_cons_eq h⟩
    | cons character second => exact absurd ((congrArg unescape? h).trans (hread _ _ _)) nofun
  | cons character first ih =>
    cases second with
    | nil => exact absurd ((hread _ _ _).symm.trans (congrArg unescape? h)) nofun
    | cons other second =>
      have hboth := congrArg unescape? h
      rw [hread, hread, Option.some_inj, Prod.mk.injEq] at hboth
      obtain ⟨rfl, hrest⟩ := ih hboth.2
      exact ⟨by rw [hboth.1], hrest⟩

/-- A string ends at the first quote that is not escaped, so it can be read back. -/
theorem decodes_writeText (first second : String) :
    Decodes (fun text ↦ (writeText text).toList) id (fun _ ↦ True) first second := by
  intro firstRest secondRest _ _ h
  simp only [writeText, String.toList_ofList, List.cons_append, List.append_assoc,
    List.nil_append, List.cons_inj_right] at h
  obtain ⟨htext, hrest⟩ := eq_of_escaped h
  exact ⟨String.toList_inj.mp htext, hrest⟩

/-! ### Numbers -/

theorem isDigit_of_mem_toDigits {number : Nat} {digit : Char}
    (h : digit ∈ Nat.toDigits 10 number) : digit.isDigit :=
  Nat.isDigit_of_mem_toDigits (by decide) (by decide) h

/-- A number ends where no digit follows, so it can be read back there. -/
theorem decodes_repr (first second : Nat) :
    Decodes (fun number ↦ number.repr.toList) id (StartsWithout Char.isDigit) first second := by
  intro firstRest secondRest hfirst hsecond h
  simp only [Nat.repr_eq_ofList_toDigits, String.toList_ofList] at h
  obtain ⟨hdigits, hrest⟩ := eq_of_startsWithout (fun _ ↦ isDigit_of_mem_toDigits)
    (fun _ ↦ isDigit_of_mem_toDigits) hfirst hsecond h
  obtain rfl := calc
    first = Nat.ofDigitChars 10 (Nat.toDigits 10 first) 0 := Nat.ofDigitChars_ten_toDigits.symm
    _ = Nat.ofDigitChars 10 (Nat.toDigits 10 second) 0 := by rw [hdigits]
    _ = second := Nat.ofDigitChars_ten_toDigits
  exact ⟨rfl, hrest⟩

/-! ### Blocks -/

/-- The start of a line at a nesting level. -/
def lineStart (level : Nat) : List Char :=
  '\n' :: (indentation level).toList

/-- Texts between two brackets, each on a line of its own. -/
def block (opening closing : Char) (level : Nat) : List (List Char) → List Char
  | [] => [opening, closing]
  | texts =>
    opening :: lineStart (level + 1) ++ (',' :: lineStart (level + 1)).intercalate texts ++
      lineStart level ++ [closing]

section

variable {α κ : Type} {write : α → List Char} {key : α → κ} {firsts seconds : List α}

theorem block_cons (opening closing : Char) (level : Nat) (first : α) (others : List α) :
    block opening closing level ((first :: others).map write) =
      opening :: lineStart (level + 1) ++ write first ++
        others.flatMap (',' :: lineStart (level + 1) ++ write ·) ++ lineStart level ++
        [closing] := by
  have h : (',' :: lineStart (level + 1)).intercalate ((first :: others).map write) = _ :=
    intercalate_map_cons first others
  rw [List.map_cons] at h ⊢
  rw [block, h, List.append_assoc _ (write first)]
  exact List.cons_ne_nil _ _

/-- Values of one block can be read back, if each of them can be where no digit follows. -/
theorem eq_of_block {opening closing : Char} {level : Nat} {firstRest secondRest : List Char}
    (hclosing : closing ≠ '\n')
    (hdecodes : ∀ first ∈ firsts, ∀ second ∈ seconds,
      Decodes write key (StartsWithout Char.isDigit) first second)
    (h : block opening closing level (firsts.map write) ++ firstRest =
      block opening closing level (seconds.map write) ++ secondRest) :
    firsts.map key = seconds.map key ∧ firstRest = secondRest := by
  match firsts, seconds with
  | [], [] => exact ⟨rfl, by simpa [block] using h⟩
  | [], second :: seconds => exact absurd h (by simp [block, lineStart, hclosing])
  | first :: firsts, [] => exact absurd h (by simp [block, lineStart, hclosing.symm])
  | first :: firsts, second :: seconds =>
    have hstop (rest : List Char) :
        ¬ ',' :: lineStart (level + 1) <+: lineStart level ++ closing :: rest := by
      rw [lineStart, lineStart, List.cons_append, List.cons_prefix_cons]
      exact fun hprefix ↦ absurd hprefix.1 (by decide)
    have hline (rest : List Char) :
        StartsWithout Char.isDigit (lineStart level ++ closing :: rest) :=
      startsWithout_cons (by decide)
    obtain ⟨hkeys, hrest⟩ := eq_of_joined_cons hdecodes (fun _ ↦ startsWithout_cons (by decide))
      (hline firstRest) (hline secondRest) (hstop firstRest) (hstop secondRest)
      (by simpa [block] using h)
    exact ⟨hkeys, by simpa using hrest⟩

end

/-! ### Documents -/

/-- The text of a field in a record. -/
def writeField (level : Nat) (field : String × Document) : List Char :=
  (writeText field.1).toList ++ [':', ' '] ++ (field.2.writeAt level).toList

theorem writeItems_eq_flatMap (level : Nat) (items : List Document) :
    (Document.writeItems level items).toList =
      items.flatMap fun item ↦ ',' :: lineStart level ++ (item.writeAt level).toList := by
  induction items with
  | nil => simp [Document.writeItems]
  | cons item others ih => simp [Document.writeItems, lineStart, ih]

theorem writeFields_eq_flatMap (level : Nat) (fields : List (String × Document)) :
    (Document.writeFields level fields).toList =
      fields.flatMap fun field ↦ ',' :: lineStart level ++ writeField level field := by
  induction fields with
  | nil => simp [Document.writeFields]
  | cons field others ih => simp [Document.writeFields, writeField, lineStart, ih]

theorem writeAt_list (level : Nat) (items : List Document) :
    ((Document.list items).writeAt level).toList =
      block '[' ']' level (items.map fun item ↦ (item.writeAt (level + 1)).toList) := by
  cases items with
  | nil => simp [Document.writeAt, block]
  | cons first others =>
    rw [block_cons]
    simp [Document.writeAt, lineStart, writeItems_eq_flatMap]

theorem writeAt_record (level : Nat) (fields : List (String × Document)) :
    ((Document.record fields).writeAt level).toList =
      block '\x7b' '\x7d' level (fields.map (writeField (level + 1))) := by
  cases fields with
  | nil => simp [Document.writeAt, block]
  | cons first others =>
    rw [block_cons]
    simp [Document.writeAt, lineStart, writeField, writeFields_eq_flatMap]

/-! ### Reading documents back -/

namespace Document

/-- Induction over documents, with a hypothesis for each item and each value of a field. -/
theorem induction {motive : Document → Prop} (text : ∀ value, motive (.text value))
    (number : ∀ value, motive (.number value)) (truth : ∀ value, motive (.truth value))
    (list : ∀ items, (∀ item ∈ items, motive item) → motive (.list items))
    (record : ∀ fields, (∀ field ∈ fields, motive field.2) → motive (.record fields))
    (document : Document) : motive document := by
  exact @Document.rec motive (fun items ↦ ∀ item ∈ items, motive item)
    (fun fields ↦ ∀ field ∈ fields, motive field.2) (fun field ↦ motive field.2) text number truth
    list record (List.forall_mem_nil _)
    (fun _ _ hitem hothers ↦ List.forall_mem_cons.mpr ⟨hitem, hothers⟩) (List.forall_mem_nil _)
    (fun _ _ hfield hothers ↦ List.forall_mem_cons.mpr ⟨hfield, hothers⟩) (fun _ _ h ↦ h) document

/-- The character that shows of which kind a document is. -/
def mark : Document → Char
  | .text _ => '"'
  | .number _ => '0'
  | .truth _ => 't'
  | .list _ => '['
  | .record _ => '\x7b'

/-- The kind of a document that begins with a character. -/
def markOf (character : Char) : Char :=
  if character.isDigit then '0' else if character = 'f' then 't' else character

theorem markOf_head? (level : Nat) (document : Document) (rest : List Char) :
    ((document.writeAt level).toList ++ rest).head?.map markOf = some document.mark := by
  cases document with
  | text value => simp [writeAt, writeText, mark, markOf]
  | number value =>
    obtain ⟨digit, digits, hdigits⟩ :=
      List.exists_cons_of_ne_nil (Nat.toDigits_ne_nil : Nat.toDigits 10 value ≠ [])
    have hdigit : digit.isDigit := isDigit_of_mem_toDigits (hdigits ▸ List.mem_cons_self)
    simp [writeAt, mark, markOf, Nat.repr_eq_ofList_toDigits, hdigits, hdigit]
  | truth value => cases value <;> simp [writeAt, mark, markOf]
  | list items =>
    rw [writeAt_list]
    cases items <;> simp [block, mark, markOf]
  | record fields =>
    rw [writeAt_record]
    cases fields <;> simp [block, mark, markOf]

theorem mark_eq {level : Nat} {first second : Document} {firstRest secondRest : List Char}
    (h : (first.writeAt level).toList ++ firstRest = (second.writeAt level).toList ++ secondRest) :
    first.mark = second.mark := by
  rw [← Option.some_inj, ← markOf_head? level first firstRest, h, markOf_head?]

theorem decodes_writeField {level : Nat} {first second : String × Document}
    (h : Decodes (fun document ↦ (document.writeAt level).toList) id (StartsWithout Char.isDigit)
      first.2 second.2) :
    Decodes (writeField level) id (StartsWithout Char.isDigit) first second := by
  intro firstRest secondRest hfirst hsecond hfields
  rw [writeField, writeField] at hfields
  simp only [List.append_assoc] at hfields
  obtain ⟨hname, hrest⟩ := decodes_writeText _ _ _ _ trivial trivial hfields
  obtain ⟨hvalue, hrest⟩ := h _ _ hfirst hsecond (List.append_cancel_left hrest)
  exact ⟨Prod.ext hname hvalue, hrest⟩

/-- A document can be read back at every nesting level, if no digit follows it. -/
theorem decodes_writeAt (level : Nat) (first second : Document) :
    Decodes (fun document ↦ (document.writeAt level).toList) id (StartsWithout Char.isDigit)
      first second := by
  induction first using induction generalizing level second with
  | text value =>
    intro firstRest secondRest _ _ h
    cases second with
    | text other =>
      obtain ⟨rfl, hrest⟩ := decodes_writeText value other _ _ trivial trivial h
      exact ⟨rfl, hrest⟩
    | _ => exact absurd (mark_eq h) (by simp [mark])
  | number value =>
    intro firstRest secondRest hfirst hsecond h
    cases second with
    | number other =>
      obtain ⟨rfl, hrest⟩ := decodes_repr value other _ _ hfirst hsecond h
      exact ⟨rfl, hrest⟩
    | _ => exact absurd (mark_eq h) (by simp [mark])
  | truth value =>
    intro firstRest secondRest _ _ h
    cases second with
    | truth other => cases value <;> cases other <;> simp_all [writeAt]
    | _ => exact absurd (mark_eq h) (by simp [mark])
  | list items ih =>
    intro firstRest secondRest _ _ h
    cases second with
    | list others =>
      simp only [writeAt_list] at h
      obtain ⟨hitems, hrest⟩ := eq_of_block (by decide)
        (fun item hitem other _ ↦ ih item hitem (level + 1) other) h
      rw [List.map_id, List.map_id] at hitems
      exact ⟨congrArg list hitems, hrest⟩
    | _ => exact absurd (mark_eq h) (by simp [mark])
  | record fields ih =>
    intro firstRest secondRest _ _ h
    cases second with
    | record others =>
      simp only [writeAt_record] at h
      obtain ⟨hfields, hrest⟩ := eq_of_block (by decide)
        (fun field hfield other _ ↦
          decodes_writeField (ih field hfield (level + 1) other.2)) h
      rw [List.map_id, List.map_id] at hfields
      exact ⟨congrArg record hfields, hrest⟩
    | _ => exact absurd (mark_eq h) (by simp [mark])

/-- Documents with the same indented text are the same. -/
theorem write_injective : Function.Injective write := by
  intro first second h
  exact (decodes_writeAt 0 first second [] [] (startsWithout_nil _) (startsWithout_nil _)
    (congrArg (fun text ↦ text.toList ++ []) h)).1

end Document

end Json

/-! ### Tokens and trees -/

theorem Token.Operator.ofName?_name (operator : Token.Operator) :
    ofName? operator.name = some operator := by
  cases operator <;> rfl

theorem Token.Operator.name_injective : Function.Injective Operator.name := by
  intro first second h
  rw [← Option.some_inj, ← ofName?_name, h, ofName?_name]

theorem TokenKind.document_injective : Function.Injective TokenKind.document := by
  intro first second h
  cases first with
  | operator symbol =>
    cases second <;> simp [document] at h
    exact congrArg _ (Token.Operator.name_injective h)
  | _ => cases second <;> simp_all [document]

theorem Token.document_injective : Function.Injective Token.document := by
  rintro ⟨kind, lexeme, position⟩ ⟨otherKind, otherLexeme, otherPosition⟩ h
  simp only [document, Json.Document.record.injEq, List.cons.injEq, Prod.mk.injEq,
    Json.Document.text.injEq, Json.Document.number.injEq, true_and, and_true] at h
  obtain ⟨hkind, rfl, rfl⟩ := h
  rw [TokenKind.document_injective hkind]

theorem Atom.fields_injective : Function.Injective Atom.fields := by
  rintro ⟨token, isCallTarget⟩ ⟨otherToken, otherIsCallTarget⟩ h
  simp only [fields, List.cons.injEq, Prod.mk.injEq, Json.Document.truth.injEq, true_and,
    and_true] at h
  obtain ⟨htoken, rfl⟩ := h
  rw [Token.document_injective htoken]

namespace Node

mutual

theorem eq_of_document {first second : Node} (h : first.document = second.document) :
    first = second := by
  match first with
  | .atom leaf =>
    cases second <;> simp [document] at h
    exact congrArg _ (Atom.fields_injective h)
  | .apply function arguments =>
    cases second <;> simp [document] at h
    rw [Atom.fields_injective h.1, eq_of_documents h.2]
  | .vector elements =>
    cases second <;> simp [document] at h
    rw [eq_of_documents h]
  | .set elements =>
    cases second <;> simp [document] at h
    rw [eq_of_documents h]
  | .relation left operator right =>
    cases second <;> simp [document] at h
    rw [eq_of_document h.1, Atom.fields_injective h.2.1, eq_of_document h.2.2]
  | .sequence statements =>
    cases second <;> simp [document] at h
    rw [eq_of_documents h]
  | .empty =>
    cases second <;> simp [document] at h
    rfl

theorem eq_of_documents {firsts seconds : List Node} (h : documents firsts = documents seconds) :
    firsts = seconds := by
  match firsts with
  | [] =>
    cases seconds with
    | nil => rfl
    | cons => simp [documents] at h
  | first :: firsts =>
    cases seconds with
    | nil => simp [documents] at h
    | cons second seconds =>
      rw [documents, documents, List.cons.injEq] at h
      rw [eq_of_document h.1, eq_of_documents h.2]

end

end Node

/-- Nothing is lost in the JSON form. Every tree has one, also a tree that no source has, and trees
with the same JSON form are the same, down to the positions of their tokens and to which atoms are
called. This holds of lists of tokens, too. -/
theorem write_json_injective (options : ProcessingOptions) :
    (∀ node : Node, ∃ text, node.write options .json = .ok text) ∧
    Function.Injective (Node.write options .json) ∧
    (∀ tokens, ∃ text, writeTokens .json tokens = .ok text) ∧
    Function.Injective (writeTokens .json) := by
  refine ⟨fun _ ↦ ⟨_, rfl⟩, fun first second h ↦ ?_, fun _ ↦ ⟨_, rfl⟩, fun first second h ↦ ?_⟩
  · exact Node.eq_of_document (Json.Document.write_injective (Except.ok.inj h))
  · have hdocuments := Json.Document.write_injective (Except.ok.inj h)
    exact Token.document_injective.list_map (Json.Document.list.inj hdocuments)

/-- A call target, another position or a quote inside a lexeme can be told apart. -/
theorem write_json_injective_quote :
    (Node.atom (.value ⟨.invalid, "\"", 0⟩)).write {} .json ≠
      (Node.atom (.callTarget ⟨.invalid, "\"", 0⟩)).write {} .json ∧
    writeTokens .json [⟨.invalid, "\", \"", 0⟩] ≠ writeTokens .json [⟨.invalid, "\", \"", 1⟩] := by
  obtain ⟨-, htrees, -, htokens⟩ := write_json_injective {}
  constructor
  · exact htrees.ne (by simp [Atom.value, Atom.callTarget])
  · exact htokens.ne (by decide)

end Formula
