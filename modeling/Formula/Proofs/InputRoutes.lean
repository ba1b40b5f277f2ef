import Formula.Command.Run

/-!
# The ways to a source

A run takes its source from a file, from the standard input or from an option. Words that only
choose a format and settings leave these ways open (`ChoosesOnly.addWords_withInput`), so whatever
stands around the input, the arguments that are read differ in nothing but the input
(`read_of_input`). The settings do not depend on a file that they do not look for
(`settings_eq`), and apart from the name of the source a run sees nothing of where it came from
(`Supplies.observed_run`). So a file and the standard input lead to the same exit code and the same
output, and so does an option that has the source in its own word. A source in a word of its own
does so as well, unless it looks like an option: then the run is misuse (`observed_run_routes`).
-/

set_option autoImplicit false
set_option relaxedAutoImplicit false

namespace Formula

/-! ### Files -/

namespace Files

/-- Whether a path leads to a plain file that contains a text. -/
structure Holds (files : Files) (path text : String) : Prop where
  isDirectory_eq : files.isDirectory path = false
  isBehindFile_eq : files.isBehindFile path = false
  bytes_eq : files.bytes? path = some text.toUTF8

/-- Whether two views of a file system agree on all files other than the one at a path. -/
def AgreeApartFrom (path : String) (files others : Files) : Prop :=
  ∀ other, nameOf other ≠ nameOf path → files.bytes? other = others.bytes? other

variable {files others : Files} {path text config : String}

theorem Holds.read_eq (h : files.Holds path text) : files.read path = .ok text := by
  simp only [read, h.isDirectory_eq, h.isBehindFile_eq, Bool.false_eq_true, if_false, h.bytes_eq]
  exact decode_toUTF8 text

/-- A file that is not looked for changes nothing in a file of settings. -/
theorem AgreeApartFrom.settings?_eq (h : AgreeApartFrom path files others)
    (hlooked : ∀ looked ∈ settingsNames config, nameOf looked ≠ nameOf path) :
    files.settings? config = others.settings? config := by
  rw [settings?, settings?]
  generalize settingsNames config = names at hlooked ⊢
  induction names with
  | nil => rfl
  | cons looked rest ih =>
    obtain ⟨hfirst, hrest⟩ := List.forall_mem_cons.mp hlooked
    rw [List.findSome?_cons, List.findSome?_cons, h looked hfirst, ih hrest]

end Files

namespace Command

/-! ### Reading arguments -/

namespace Arguments

/-- The chosen format and settings of some arguments, with an input. -/
def withInput (arguments : Arguments) (path expression : Option String) : Arguments :=
  { path, expression, format := arguments.format, config := arguments.config }

/-- The words of an option with its value, other than the one with a source: the value stands in the
word of the option or in the next one. -/
inductive IsChoice : List String → Prop
  | assigned {word value : String} {name : ValueOption} :
      classify word = .assigned name value →
      name ≠ .expression →
      IsChoice [word]
  | awaiting {word value : String} {name : ValueOption} :
      classify word = .awaiting name →
      name ≠ .expression →
      IsChoice [word, value]

/-- Words that only choose a format and settings. -/
inductive ChoosesOnly : List String → Prop
  | nil : ChoosesOnly []
  | cons {choice words : List String} :
      IsChoice choice →
      ChoosesOnly words →
      ChoosesOnly (choice ++ words)

/-- Whether a word starts with a hyphen and goes on behind it. -/
def LooksLikeOption (text : String) : Prop :=
  text.toList.head? = some '-' ∧ text.toList ≠ ['-']

instance (text : String) : Decidable (LooksLikeOption text) :=
  inferInstanceAs (Decidable (_ ∧ _))

section

variable {arguments : Arguments} {word value text : String}
  {choice words before after : List String} {name : ValueOption}
  {path expression : Option String} {stop : Stop}

theorem looksLikeOption_iff :
    LooksLikeOption text ↔ ∃ letter rest, text.toList = '-' :: letter :: rest := by
  rw [LooksLikeOption]
  match text.toList with
  | [] => simp
  | [first] => simp
  | first :: letter :: rest => simp

theorem classify_of_not_looksLikeOption (h : ¬ LooksLikeOption text) :
    classify text = .plain text := by
  rw [looksLikeOption_iff] at h
  rw [classify]
  split
  case h_4 => rfl
  all_goals
    next htext => exact absurd ⟨_, _, htext⟩ h

theorem longWord_ne_plain (rest : List Char) (other : String) : longWord rest ≠ .plain other := by
  simp only [longWord]
  split <;> exact nofun

theorem shortWord_ne_plain (letter : Char) (rest : List Char) (other : String) :
    shortWord letter rest ≠ .plain other := by
  unfold shortWord
  split <;> exact nofun

theorem classify_ne_plain (h : LooksLikeOption text) (other : String) :
    classify text ≠ .plain other := by
  obtain ⟨letter, rest, htext⟩ := looksLikeOption_iff.mp h
  rw [classify, htext]
  split
  · exact nofun
  · exact longWord_ne_plain _ other
  · exact shortWord_ne_plain _ _ other
  · next hplain => exact absurd rfl (hplain letter rest)

theorem classify_of_head (h : text.toList.head? ≠ some '-') : classify text = .plain text :=
  classify_of_not_looksLikeOption fun hoption ↦ h hoption.1

/-! ### Single words -/

theorem addWords_assigned (h : classify word = .assigned name value) :
    addWords arguments (word :: words) =
      (arguments.addValue name value).bind fun next ↦ next.addWords words := by
  rw [addWords, h]
  rfl

theorem addWords_plain (h : classify word = .plain text) :
    addWords arguments (word :: words) =
      (arguments.addPath text).bind fun next ↦ next.addWords words := by
  rw [addWords, h]
  rfl

theorem addWords_awaiting (h : classify word = .awaiting name)
    (hvalue : classify value = .plain text) :
    addWords arguments (word :: value :: words) =
      (arguments.addValue name text).bind fun next ↦ next.addWords words := by
  rw [addWords, h]
  simp only [hvalue]
  rfl

/-- The value of an option may not look like an option. -/
theorem addWords_awaiting_error (h : classify word = .awaiting name)
    (hvalue : LooksLikeOption value) :
    addWords arguments (word :: value :: words) = .error .misuse := by
  rw [addWords, h]
  dsimp only
  split
  · next text htext => exact absurd htext (classify_ne_plain hvalue text)
  · rfl

/-- What an option other than the one with a source adds does not depend on the input. -/
theorem addValue_withInput (hname : name ≠ .expression) (path expression : Option String) :
    (arguments.withInput path expression).addValue name value =
      (arguments.addValue name value).map (·.withInput path expression) := by
  cases name with
  | expression => exact absurd rfl hname
  | format =>
    rw [addValue, addValue, withInput]
    cases once arguments.format value <;> rfl
  | config =>
    rw [addValue, addValue, withInput]
    cases once arguments.config value <;> rfl

theorem addValue_eq_map (arguments : Arguments) (name : ValueOption) (value : String) :
    ∃ old update, arguments.addValue name value = (once old value).map update := by
  cases name <;> exact ⟨_, _, rfl⟩

theorem eq_misuse_of_addValue (h : arguments.addValue name value = .error stop) :
    stop = .misuse := by
  obtain ⟨old, update, hadd⟩ := arguments.addValue_eq_map name value
  rw [hadd] at h
  cases old <;> cases h
  rfl

/-! ### Choices -/

/-- What a choice does to the arguments that have been read, whatever stands behind it: it does not
look at the input, and it fails as misuse only. -/
structure IsStep (choice : List String) (step : Arguments → Except Stop Arguments) : Prop where
  addWords_eq : ∀ arguments words, addWords arguments (choice ++ words) =
    (step arguments).bind fun next ↦ next.addWords words
  withInput_eq : ∀ arguments path expression, step (withInput arguments path expression) =
    (step arguments).map (·.withInput path expression)
  eq_misuse : ∀ arguments stop, step arguments = .error stop → stop = .misuse

theorem isStep_addValue (hname : name ≠ .expression)
    (h : ∀ arguments words, addWords arguments (choice ++ words) =
      (arguments.addValue name value).bind fun next ↦ next.addWords words) :
    IsStep choice fun arguments ↦ arguments.addValue name value where
  addWords_eq := h
  withInput_eq _ := addValue_withInput hname
  eq_misuse _ _ := eq_misuse_of_addValue

theorem IsChoice.exists_isStep (h : IsChoice choice) : ∃ step, IsStep choice step := by
  cases h with
  | assigned hword hname => exact ⟨_, isStep_addValue hname fun _ _ ↦ addWords_assigned hword⟩
  | @awaiting word value name hword hname =>
    by_cases hvalue : LooksLikeOption value
    · exact ⟨fun _ ↦ .error .misuse, fun _ _ ↦ addWords_awaiting_error hword hvalue,
        fun _ _ _ ↦ rfl, fun _ _ hstop ↦ (Except.error.inj hstop).symm⟩
    · exact ⟨_, isStep_addValue hname fun _ _ ↦
        addWords_awaiting hword (classify_of_not_looksLikeOption hvalue)⟩

theorem ChoosesOnly.addWords_append (h : ChoosesOnly words) (arguments : Arguments)
    (more : List String) :
    addWords arguments (words ++ more) =
      (addWords arguments words).bind fun next ↦ next.addWords more := by
  induction h generalizing arguments with
  | nil => rfl
  | cons hchoice _ ih =>
    obtain ⟨step, hstep⟩ := hchoice.exists_isStep
    rw [List.append_assoc, hstep.addWords_eq, hstep.addWords_eq]
    cases step arguments with
    | error stop => rfl
    | ok next => exact ih next

/-- Choosing a format and settings does not depend on the input, and leaves it as it is. -/
theorem ChoosesOnly.addWords_withInput (h : ChoosesOnly words) (arguments : Arguments)
    (path expression : Option String) :
    addWords (arguments.withInput path expression) words =
      (addWords arguments words).map (·.withInput path expression) := by
  induction h generalizing arguments with
  | nil => rfl
  | cons hchoice _ ih =>
    obtain ⟨step, hstep⟩ := hchoice.exists_isStep
    rw [hstep.addWords_eq, hstep.addWords_eq, hstep.withInput_eq]
    cases step arguments with
    | error stop => rfl
    | ok next => exact ih next

theorem ChoosesOnly.eq_misuse (h : ChoosesOnly words)
    (herror : addWords arguments words = .error stop) : stop = .misuse := by
  induction h generalizing arguments with
  | nil => cases herror
  | cons hchoice _ ih =>
    obtain ⟨step, hstep⟩ := hchoice.exists_isStep
    rw [hstep.addWords_eq] at herror
    match hnext : step arguments with
    | .error failed =>
      rw [hnext] at herror
      cases herror
      exact hstep.eq_misuse _ _ hnext
    | .ok next =>
      rw [hnext] at herror
      exact ih herror

/-! ### Words around an input -/

/-- Words that only choose, around words that only give an input. -/
theorem read_of_input (input : List String) (path expression : Option String)
    (hbefore : ChoosesOnly before) (hafter : ChoosesOnly after)
    (hinput : ∀ (arguments : Arguments) (words : List String),
      addWords (arguments.withInput none none) (input ++ words) =
        addWords (arguments.withInput path expression) words)
    (hcomplete : path.isSome ≠ expression.isSome) :
    read (before ++ (input ++ after)) =
      (addWords {} (before ++ after)).map (·.withInput path expression) := by
  have hempty : ({} : Arguments) = withInput {} none none := rfl
  have hisComplete (arguments : Arguments) : (arguments.withInput path expression).isComplete := by
    cases path <;> cases expression <;> first | rfl | exact absurd rfl hcomplete
  -- The words in front are read without an input, and those behind it with one.
  rw [read, hbefore.addWords_append, hbefore.addWords_append, hempty, hbefore.addWords_withInput]
  cases addWords {} before with
  | error stop => rfl
  | ok next =>
    simp only [Except.map, Except.bind, hinput, hafter.addWords_withInput]
    cases addWords next after with
    | error stop => rfl
    | ok chosen => exact if_pos (hisComplete chosen)

/-- A word that gives the path. -/
theorem addWords_path (hword : classify word = .plain word) :
    addWords (arguments.withInput none none) (word :: words) =
      addWords (arguments.withInput (some word) none) words := by
  rw [addWords_plain hword]
  rfl

/-- A word that has the source with its option. -/
theorem addWords_expression_assigned (hword : classify word = .assigned .expression text) :
    addWords (arguments.withInput none none) (word :: words) =
      addWords (arguments.withInput none (some text)) words := by
  rw [addWords_assigned hword]
  rfl

/-- An option and the source in the word after it. -/
theorem addWords_expression_awaiting (hword : classify word = .awaiting .expression)
    (hvalue : classify value = .plain text) :
    addWords (arguments.withInput none none) (word :: value :: words) =
      addWords (arguments.withInput none (some text)) words := by
  rw [addWords_awaiting hword hvalue]
  rfl

/-- A source that looks like an option may not stand in a word of its own. -/
theorem read_expression_error (hbefore : ChoosesOnly before)
    (hword : classify word = .awaiting name) (hvalue : LooksLikeOption value) :
    read (before ++ word :: value :: after) = .error .misuse := by
  rw [read, hbefore.addWords_append]
  cases hread : addWords {} before with
  | error stop =>
    rw [hbefore.eq_misuse hread]
    rfl
  | ok next =>
    simp only [Except.bind, addWords_awaiting_error hword hvalue]
    rfl

end

end Arguments

/-! ### Runs -/

open Arguments

/-- What can be seen of a run from outside, other than its diagnostics: the exit code and the
output. -/
def observed : Except Failure String → Nat × String
  | .ok output => (0, output)
  | .error failure => (failure.exitCode, "")

variable {world other : World} {words : List String} {source : String}

theorem settings_eq {files others : Files} {path : String} {input otherInput : ByteArray}
    {config : Option String} (h : Files.AgreeApartFrom path files others)
    (hconfig : ∀ file ∈ config, ∀ looked ∈ settingsNames file,
      Files.nameOf looked ≠ Files.nameOf path) :
    World.settings ⟨files, input⟩ config = World.settings ⟨others, otherInput⟩ config := by
  cases config with
  | none => rfl
  | some file =>
    have hsettings := h.settings?_eq (hconfig file rfl)
    have hentries :
        FileLayer.entries files ⟨file, true⟩ = FileLayer.entries others ⟨file, true⟩ := by
      rw [FileLayer.entries, FileLayer.entries, hsettings]
    simp only [World.settings, Loader.build, Loader.merged, Loader.withFile, List.nil_append,
      List.foldlM_cons, List.foldlM_nil, FileLayer.overlay, hentries]

/-- Two runs with the same source, the same format and the same settings differ in their diagnostics
at most, as only these show the name of the source. -/
theorem observed_execute {first second : Arguments} {name otherName : String}
    (hsource : world.source first = .ok (name, source))
    (hother : other.source second = .ok (otherName, source))
    (hsettings : world.settings first.config = other.settings second.config)
    (hformat : first.format = second.format)
    (hlists : first.listsFormats = second.listsFormats) :
    observed (execute world first) = observed (execute other second) := by
  simp only [execute, hsource, hother, hsettings, hformat, hlists]
  cases second.listsFormats with
  | true => rfl
  | false =>
    cases other.settings second.config with
    | error failure => rfl
    | ok settings =>
      simp only [bind, Except.bind]
      cases (OutputFormat.ofName (second.format.getD settings.defaultFormat)).mapError
          Failure.format with
      | error failure => rfl
      | ok format =>
        dsimp only
        cases process source format settings.options with
        | ok output => rfl
        | error error => cases error <;> rfl

/-- Whether some words give a source to a run, next to words that only choose its format and
settings. -/
def Supplies (world : World) (words choices : List String) (source : String) : Prop :=
  ∃ path expression name,
    read words = (addWords {} choices).map (·.withInput path expression) ∧
      ∀ arguments : Arguments,
        world.source (arguments.withInput path expression) = .ok (name, source)

/-- A run sees nothing of the way on which its source was given. -/
theorem Supplies.observed_run {choices otherWords : List String}
    (h : Supplies world words choices source) (hother : Supplies other otherWords choices source)
    (hsettings : ∀ arguments, addWords {} choices = .ok arguments →
      world.settings arguments.config = other.settings arguments.config) :
    observed (run world words) = observed (run other otherWords) := by
  obtain ⟨path, expression, name, hread, hsource⟩ := h
  obtain ⟨otherPath, otherExpression, otherName, hotherRead, hotherSource⟩ := hother
  rw [run, run, hread, hotherRead]
  cases hchosen : addWords {} choices with
  | error stop => cases stop <;> rfl
  | ok arguments =>
    exact observed_execute (hsource arguments) (hotherSource arguments)
      (hsettings arguments hchosen) rfl rfl

section

variable {files : Files} {input : ByteArray} {path word text : String} {before after : List String}

theorem source_path (hpath : path ≠ inputPath) (h : files.Holds path text)
    (arguments : Arguments) :
    World.source ⟨files, input⟩ (arguments.withInput (some path) none) = .ok (path, text) := by
  simp only [World.source, withInput, Option.getD_some, hpath, if_false, h.read_eq]

theorem source_inputPath (arguments : Arguments) :
    World.source ⟨files, text.toUTF8⟩ (arguments.withInput (some inputPath) none) =
      .ok ("<stdin>", text) := by
  simp only [World.source, withInput, Option.getD_some, if_true, decode_toUTF8]

variable (hbefore : ChoosesOnly before) (hafter : ChoosesOnly after)

include hbefore hafter

theorem supplies_path (hpath : path.toList.head? ≠ some '-') (h : files.Holds path text) :
    Supplies ⟨files, input⟩ (before ++ path :: after) (before ++ after) text := by
  have hnot : path ≠ inputPath := by
    rintro rfl
    exact hpath rfl
  refine ⟨some path, none, path, ?_, source_path hnot h⟩
  exact read_of_input [path] (some path) none hbefore hafter
    (fun _ _ ↦ addWords_path (classify_of_head hpath)) nofun

theorem supplies_inputPath :
    Supplies ⟨files, text.toUTF8⟩ (before ++ inputPath :: after) (before ++ after) text := by
  refine ⟨some inputPath, none, "<stdin>", ?_, source_inputPath⟩
  exact read_of_input [inputPath] (some inputPath) none hbefore hafter
    (fun _ _ ↦ addWords_path rfl) nofun

theorem supplies_assigned (hword : classify word = .assigned .expression text) :
    Supplies world (before ++ word :: after) (before ++ after) text := by
  refine ⟨none, some text, "<expr>", ?_, fun _ ↦ rfl⟩
  exact read_of_input [word] none (some text) hbefore hafter
    (fun _ _ ↦ addWords_expression_assigned hword) nofun

theorem supplies_awaiting (hword : classify word = .awaiting .expression)
    (htext : ¬ LooksLikeOption text) :
    Supplies world (before ++ word :: text :: after) (before ++ after) text := by
  refine ⟨none, some text, "<expr>", ?_, fun _ ↦ rfl⟩
  exact read_of_input [word, text] none (some text) hbefore hafter (fun _ _ ↦
    addWords_expression_awaiting hword (classify_of_not_looksLikeOption htext)) nofun

end

/-- The words that have a source in themselves, with the option in front of it. -/
theorem classify_append_of_mem {option text : String} (h : option ∈ ["-e=", "--expr="]) :
    classify (option ++ text) = .assigned .expression text := by
  simp only [List.mem_cons, List.not_mem_nil, or_false] at h
  rcases h with rfl | rfl
  · have hletters : ("-e=" ++ text).toList = '-' :: 'e' :: '=' :: text.toList := by simp
    rw [classify, hletters]
    simp [shortWord, Switch.ofShort?]
  · have hletters : ("--expr=" ++ text).toList =
        '-' :: '-' :: 'e' :: 'x' :: 'p' :: 'r' :: '=' :: text.toList := by simp
    rw [classify, hletters]
    simp [longWord, Switch.ofLong?]

/-- A source from a file that is not looked for as settings, from the standard input and from an
option in the same word: the exit code and the output are the same. From an option in the word
before it they are so too, unless the source looks like an option: such a run is misuse. -/
theorem observed_run_routes {files elsewhere : Files} {input : ByteArray} {path text : String}
    {before after : List String} (hpath : path.toList.head? ≠ some '-')
    (hholds : files.Holds path text) (hagree : Files.AgreeApartFrom path files elsewhere)
    (hbefore : ChoosesOnly before) (hafter : ChoosesOnly after)
    (hconfig : ∀ arguments, addWords {} (before ++ after) = .ok arguments →
      ∀ config ∈ arguments.config, ∀ looked ∈ settingsNames config,
        Files.nameOf looked ≠ Files.nameOf path) :
    let outcome := observed (run ⟨elsewhere, text.toUTF8⟩ (before ++ inputPath :: after))
    observed (run ⟨files, input⟩ (before ++ path :: after)) = outcome ∧
      (∀ option ∈ ["-e=", "--expr="],
        observed (run ⟨elsewhere, input⟩ (before ++ (option ++ text) :: after)) = outcome) ∧
      ∀ option ∈ ["-e", "--expr"],
        observed (run ⟨elsewhere, input⟩ (before ++ option :: text :: after)) =
          if LooksLikeOption text then (2, "") else outcome := by
  have hstandard : Supplies ⟨elsewhere, text.toUTF8⟩ (before ++ inputPath :: after)
      (before ++ after) text := supplies_inputPath hbefore hafter
  refine ⟨?_, fun option hoption ↦ ?_, fun option hoption ↦ ?_⟩
  · exact (supplies_path hbefore hafter hpath hholds).observed_run hstandard
      fun arguments hchosen ↦ settings_eq hagree (hconfig arguments hchosen)
  · exact (supplies_assigned hbefore hafter (classify_append_of_mem hoption)).observed_run
      hstandard fun _ _ ↦ rfl
  · have hword : classify option = .awaiting .expression := by
      simp only [List.mem_cons, List.not_mem_nil, or_false] at hoption
      rcases hoption with rfl | rfl <;> rfl
    split
    · next htext =>
      rw [run, read_expression_error hbefore hword htext]
      rfl
    · next htext =>
      exact (supplies_awaiting hbefore hafter hword htext).observed_run hstandard fun _ _ ↦ rfl

/-- A text that starts with a sign, in a file next to one with settings and on the other ways. -/
theorem observed_run_routes_config :
    let files : Files := ⟨[("sums.txt", "-x = 1".toUTF8), ("usual", "".toUTF8)], []⟩
    let elsewhere : Files := ⟨[("usual", "".toUTF8)], []⟩
    let outcome := observed (run ⟨elsewhere, "-x = 1".toUTF8⟩ ["-c", "usual", "-", "-fast-tree"])
    observed (run ⟨files, .empty⟩ ["-c", "usual", "sums.txt", "-fast-tree"]) = outcome ∧
      observed (run ⟨elsewhere, .empty⟩ ["-c", "usual", "--expr=-x = 1", "-fast-tree"]) = outcome ∧
      observed (run ⟨elsewhere, .empty⟩ ["-c", "usual", "-e", "-x = 1", "-fast-tree"]) =
        (2, "") := by
  intro files elsewhere outcome
  have hholds : files.Holds "sums.txt" "-x = 1" := ⟨by decide, by decide, by decide⟩
  have hagree : Files.AgreeApartFrom "sums.txt" files elsewhere := by
    intro other hother
    have hname : (Files.nameOf other == "sums.txt") = false := beq_eq_false_iff_ne.mpr hother
    simp only [Files.bytes?, files, elsewhere, List.lookup_cons, hname]
  have hbefore : ChoosesOnly ["-c", "usual"] :=
    .cons (@IsChoice.awaiting "-c" "usual" .config rfl nofun) .nil
  have hafter : ChoosesOnly ["-fast-tree"] :=
    .cons (@IsChoice.assigned "-fast-tree" "ast-tree" .format rfl nofun) .nil
  obtain ⟨hfile, hassigned, hawaiting⟩ := @observed_run_routes files elsewhere .empty "sums.txt"
    "-x = 1" ["-c", "usual"] ["-fast-tree"] (by decide) hholds hagree hbefore hafter (by
      rintro arguments ⟨⟩ config ⟨⟩
      decide)
  exact ⟨hfile, hassigned "--expr=" (by decide), hawaiting "-e" (by decide)⟩

/-- A statement that starts with a sign is misuse in a word of its own, though it is a proper source
in a file and on the standard input. -/
theorem observed_run_sign :
    let text := "-x = 1"
    let outcome := (0, "Func(\"=\")(Func(\"-\").eval(atom(\"x\")), atom(\"1\"))\n")
    observed (run ⟨⟨[("sums.txt", text.toUTF8)], []⟩, .empty⟩ ["sums.txt"]) = outcome ∧
      observed (run ⟨{}, text.toUTF8⟩ ["-"]) = outcome ∧
      observed (run ⟨{}, .empty⟩ ["-e", text]) = (2, "") := by
  decide +kernel

end Command

end Formula
