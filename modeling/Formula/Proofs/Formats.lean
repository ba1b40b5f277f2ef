import Formula.Processing
import Formula.Proofs.LazyReading
import Formula.Proofs.Spelling

/-!
# Formats agree on their sources

Which texts are formats, and on which sources a format gives an output. A format is read from its
name, which is cut at its first hyphen (`splitAtHyphen?_eq_some_iff`), and exactly the names of the
listed formats are read (`ofName_eq_ok_iff`). Whether a form suits a stage is asked twice, when a
format is read and when a result is written; both times the answer is whether the format is listed,
so what keeps a listed format from giving an output is the source alone (`exists_process_iff`). A
source with a tree has tokens, and so a source that is written in one format of trees is written in
every format (`process_formats`).
-/

set_option autoImplicit false
set_option relaxedAutoImplicit false

namespace Formula

/-! ### Names -/

/-- Looking a name up among items of which each is found under its own name. -/
theorem find?_name_eq_some_iff {α : Type} {items : List α} {name : α → String}
    (hname : ∀ item, items.find? (fun other ↦ name other == name item) = some item)
    {text : String} {item : α} :
    items.find? (fun other ↦ name other == text) = some item ↔ name item = text := by
  constructor
  · intro h
    simpa using List.find?_some h
  · rintro rfl
    exact hname item

theorem Stage.ofName?_eq_some_iff {name : String} {stage : Stage} :
    ofName? name = some stage ↔ stage.name = name :=
  find?_name_eq_some_iff fun stage ↦ by cases stage <;> rfl

theorem Form.ofName?_eq_some_iff {name : String} {form : Form} :
    ofName? name = some form ↔ form.name = name :=
  find?_name_eq_some_iff fun form ↦ by cases form <;> rfl

namespace OutputFormat

theorem splitAtHyphen?_eq_some_iff {text first second : String} :
    splitAtHyphen? text = some (first, second) ↔
      '-' ∉ first.toList ∧ text = first ++ "-" ++ second := by
  have hlexeme : ("-" : String).toList = ['-'] := rfl
  constructor
  · intro h
    rw [splitAtHyphen?] at h
    split at h
    · cases h
    · next hyphen rest hrest =>
      obtain ⟨rfl, rfl⟩ := Prod.mk.inj (Option.some.inj h)
      have hhyphen : hyphen = '-' := by
        simpa [hrest] using List.head?_dropWhile_not (· != '-') text.toList
      refine ⟨fun hmem ↦ ?_, String.toList_injective ?_⟩
      · rw [String.toList_ofList] at hmem
        exact absurd (List.mem_takeWhile_imp hmem) (by decide)
      · have hsplit := List.takeWhile_append_dropWhile (p := (· != '-')) (l := text.toList)
        rw [hrest, hhyphen] at hsplit
        simp only [String.toList_append, String.toList_ofList, hlexeme, List.append_assoc,
          List.singleton_append]
        exact hsplit.symm
  · rintro ⟨hfirst, rfl⟩
    have hall : ∀ character ∈ first.toList, (character != '-') = true := by
      rintro character hmem
      exact bne_iff_ne.mpr (ne_of_mem_of_not_mem hmem hfirst)
    simp only [splitAtHyphen?, String.toList_append, hlexeme, List.append_assoc,
      List.singleton_append]
    rw [Token.takeWhile_append_cons rfl, Token.dropWhile_append_cons rfl,
      List.takeWhile_eq_self_iff.mpr hall, List.dropWhile_eq_nil_iff.mpr hall]
    simp

/-- A format is listed if its form suits its stage. -/
theorem mem_all_iff {format : OutputFormat} :
    format ∈ all ↔ ∀ only ∈ format.form.onlyStage?, only = format.stage := by
  obtain ⟨stage, form⟩ := format
  cases stage <;> cases form <;> decide

/-- The names that are read are those of the listed formats. -/
theorem ofName_eq_ok_iff {name : String} {format : OutputFormat} :
    ofName name = .ok format ↔ format ∈ all ∧ format.name = name := by
  constructor
  · intro h
    rw [ofName] at h
    split at h
    · next stageName formName hsplit =>
      obtain ⟨-, rfl⟩ := splitAtHyphen?_eq_some_iff.mp hsplit
      split at h
      · next stage hstage =>
        split at h
        · next form hform =>
          rw [← Stage.ofName?_eq_some_iff.mp hstage, ← Form.ofName?_eq_some_iff.mp hform]
          split at h
          · next only honly =>
            split at h
            · next hequal =>
              cases h
              exact ⟨mem_all_iff.mpr (by simpa [honly] using hequal), rfl⟩
            · cases h
          · next hnone =>
            cases h
            exact ⟨mem_all_iff.mpr (by simp [hnone]), rfl⟩
        · cases h
      · cases h
    · cases h
  · rintro ⟨hmem, rfl⟩
    have hsplit : splitAtHyphen? format.name = some (format.stage.name, format.form.name) :=
      splitAtHyphen?_eq_some_iff.mpr ⟨by cases format.stage <;> decide, rfl⟩
    have hstage : Stage.ofName? format.stage.name = some format.stage :=
      Stage.ofName?_eq_some_iff.mpr rfl
    have hform : Form.ofName? format.form.name = some format.form :=
      Form.ofName?_eq_some_iff.mpr rfl
    simp only [ofName, hsplit, hstage, hform]
    split
    · next only honly => exact if_pos (mem_all_iff.mp hmem only honly)
    · rfl

end OutputFormat

/-! ### Outputs -/

/-- How reading a source ends, as far as a stage asks for. -/
def Stage.reading : Stage → String → Except SyntaxError Unit
  | tokens, source => ((tokenize source).mapError .lexical).map fun _ ↦ ()
  | tree, source => (parse source).map fun _ ↦ ()

section

variable {source : String} {format : OutputFormat} {form : Form} {options : ProcessingOptions}
  {error : SyntaxError}

theorem Stage.reading_tokens_eq_ok_iff :
    tokens.reading source = .ok () ↔ ∃ found, tokenize source = .ok found := by
  rw [reading]
  cases tokenize source <;> simp [Except.map, Except.mapError]

theorem Stage.reading_tree_eq_ok_iff :
    tree.reading source = .ok () ↔ ∃ node, parse source = .ok node := by
  rw [reading]
  cases parse source <;> simp [Except.map]

theorem Stage.reading_tokens_eq_error_iff :
    tokens.reading source = .error error ↔
      ∃ failure, tokenize source = .error failure ∧ error = .lexical failure := by
  rw [reading]
  cases tokenize source <;> simp [Except.map, Except.mapError, eq_comm]

theorem Stage.reading_tree_eq_error_iff :
    tree.reading source = .error error ↔ parse source = .error error := by
  rw [reading]
  cases parse source <;> simp [Except.map]

/-- A source with a tree can be read as far as any stage asks for. -/
theorem Stage.reading_of_reading_tree (h : tree.reading source = .ok ()) (stage : Stage) :
    stage.reading source = .ok () := by
  cases stage with
  | tree => exact h
  | tokens =>
    obtain ⟨node, hparse⟩ := reading_tree_eq_ok_iff.mp h
    match htokens : tokenize source with
    | .ok found => exact reading_tokens_eq_ok_iff.mpr ⟨found, htokens⟩
    | .error failure => exact absurd hparse (Parse.parseWithin_ne_ok htokens node)

theorem exists_writeTokens_iff {tokens : List Token} :
    (∃ output, writeTokens form tokens = .ok output) ↔ ⟨.tokens, form⟩ ∈ OutputFormat.all := by
  cases form <;> simp [writeTokens, OutputFormat.mem_all_iff, Form.onlyStage?]

theorem Node.exists_write_iff {node : Node} :
    (∃ output, node.write options form = .ok output) ↔ ⟨.tree, form⟩ ∈ OutputFormat.all := by
  cases form <;> simp [write, OutputFormat.mem_all_iff, Form.onlyStage?]

/-- The errors of a source come first, whatever the format. -/
theorem process_of_reading (h : format.stage.reading source = .error error) :
    process source format options = .error (.malformedSource error) := by
  obtain ⟨stage, form⟩ := format
  cases stage with
  | tokens =>
    obtain ⟨failure, htokens, rfl⟩ := Stage.reading_tokens_eq_error_iff.mp h
    simp only [process, htokens]
    rfl
  | tree =>
    simp only [process, Stage.reading_tree_eq_error_iff.mp h]
    rfl

/-- A format gives an output if it is listed and the source can be read as far as it asks for. -/
theorem exists_process_iff :
    (∃ output, process source format options = .ok output) ↔
      format ∈ OutputFormat.all ∧ format.stage.reading source = .ok () := by
  match hreading : format.stage.reading source with
  | .error error => simp [process_of_reading hreading]
  | .ok () =>
    rw [and_iff_left rfl]
    obtain ⟨stage, form⟩ := format
    cases stage with
    | tokens =>
      obtain ⟨found, htokens⟩ := Stage.reading_tokens_eq_ok_iff.mp hreading
      simp only [process, htokens]
      exact exists_writeTokens_iff
    | tree =>
      obtain ⟨node, hparse⟩ := Stage.reading_tree_eq_ok_iff.mp hreading
      simp only [process, hparse]
      exact Node.exists_write_iff

end

/-- The texts that are read as formats are the names of the listed ones, and each is read as the
format of this name. Then only the source decides whether there is an output: there is one if the
source can be read as far as the stage asks for, and else its error is reported. So a source that
is written in one format of trees is written in every listed format. A format that is not listed
never gives an output. -/
theorem process_formats :
    (∀ name, (∃ format, OutputFormat.ofName name = .ok format) ↔
      name ∈ OutputFormat.all.map OutputFormat.name) ∧
    (∀ name format, OutputFormat.ofName name = .ok format → format.name = name ∧
      ∀ source options,
        ((∃ output, process source format options = .ok output) ↔
          format.stage.reading source = .ok ()) ∧
        ∀ error, format.stage.reading source = .error error →
          process source format options = .error (.malformedSource error)) ∧
    (∀ source first options output, first.stage = .tree →
      process source first options = .ok output →
      ∀ second ∈ OutputFormat.all, ∀ others, ∃ more, process source second others = .ok more) ∧
    ∀ format, format ∉ OutputFormat.all →
      ∀ source options output, process source format options ≠ .ok output := by
  refine ⟨fun name ↦ ?_, fun name format hname ↦ ?_, ?_, ?_⟩
  · simp [OutputFormat.ofName_eq_ok_iff]
  · obtain ⟨hlisted, hequal⟩ := OutputFormat.ofName_eq_ok_iff.mp hname
    refine ⟨hequal, fun source options ↦ ⟨?_, fun error ↦ process_of_reading⟩⟩
    rw [exists_process_iff, and_iff_right hlisted]
  · intro source first options output hstage houtput second hlisted others
    obtain ⟨-, hreading⟩ := exists_process_iff.mp ⟨output, houtput⟩
    rw [hstage] at hreading
    exact exists_process_iff.mpr ⟨hlisted, Stage.reading_of_reading_tree hreading _⟩
  · intro format hlisted source options output houtput
    exact hlisted (exists_process_iff.mp ⟨output, houtput⟩).1

/-- A source that is written as an outline is also written as tokens, which have no outline. -/
theorem process_formats_outline :
    OutputFormat.ofName "ast-treeviz" = .ok ⟨.tree, .outline⟩ ∧
    (∃ output, process "x = 1" ⟨.tree, .outline⟩ {} = .ok output) ∧
    (∃ output, process "x = 1" ⟨.tokens, .json⟩ {} = .ok output) ∧
    process "x = 1" ⟨.tokens, .outline⟩ {} ≠ .ok "" := by
  obtain ⟨-, hnamed, htrees, hunlisted⟩ := process_formats
  have hname : OutputFormat.ofName "ast-treeviz" = .ok ⟨.tree, .outline⟩ := by cbv
  have hparse : ∃ node, parse "x = 1" = .ok node := ⟨_, by cbv⟩
  obtain ⟨output, houtput⟩ := ((hnamed _ _ hname).2 "x = 1" {}).1.mpr
    (Stage.reading_tree_eq_ok_iff.mpr hparse)
  exact ⟨hname, ⟨output, houtput⟩, htrees _ _ _ output rfl houtput ⟨.tokens, .json⟩ (by decide) {},
    hunlisted ⟨.tokens, .outline⟩ (by decide) _ _ _⟩

end Formula
