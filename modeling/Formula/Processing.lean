import Formula.Files
import Formula.Parser.Program
import Formula.Token.Document
import Formula.Token.Spacing
import Formula.Tree.CallForm
import Formula.Tree.Document
import Formula.Tree.Outline

/-!
Output formats. A format is written as a stage and a form with a hyphen between them: the stage
says how far a source is read, and the form how the result is written.

    token-simple    the listed tokens, one on a line
    token-json      the tokens as a JSON document
    ast-tree        the structural form
    ast-json        the tree as a JSON document
    ast-treeviz     the outline
    ast-render      the call form
-/

set_option autoImplicit false
set_option relaxedAutoImplicit false

namespace Formula

/-! ### Formats -/

/-- How far a source is read. -/
inductive Stage where
  | tokens
  | tree
  deriving DecidableEq, Repr, Inhabited

namespace Stage

/-- The name of a stage in a format. -/
def name : Stage → String
  | tokens => "token"
  | tree => "ast"

/-- The stage with a given name. -/
def ofName? (name : String) : Option Stage :=
  [tokens, tree].find? fun stage ↦ stage.name == name

end Stage

/-- How a result is written. -/
inductive Form where
  | listing
  | json
  | structural
  | outline
  | callForm
  deriving DecidableEq, Repr, Inhabited

namespace Form

/-- The name of a form in a format. -/
def name : Form → String
  | listing => "simple"
  | json => "json"
  | structural => "tree"
  | outline => "treeviz"
  | callForm => "render"

/-- The form with a given name. -/
def ofName? (name : String) : Option Form :=
  [listing, json, structural, outline, callForm].find? fun form ↦ form.name == name

/-- The only stage whose result can be written in a form, unless every stage has it. -/
def onlyStage? : Form → Option Stage
  | listing => some .tokens
  | json => none
  | structural | outline | callForm => some .tree

end Form

/-- A stage and a form. -/
structure OutputFormat where
  stage : Stage
  form : Form
  deriving DecidableEq, Repr, Inhabited

/-! ### Failures -/

/-- The reasons for which a source is not written in a format. -/
inductive ProcessingError where
  /-- A format without a hyphen. -/
  | malformedFormat (format : String)
  | unknownStage (name : String)
  | unknownForm (name : String)
  /-- A format whose form belongs to another stage. -/
  | mismatchedFormat (form : Form) (only : Stage)
  /-- A result that cannot be written in a form of another stage. -/
  | unsuitedForm (form : Form) (only : Stage)
  | unreadable (error : ReadError)
  | malformedSource (error : SyntaxError)
  deriving DecidableEq, Repr, Inhabited

/-- The sentence that reports a failure. -/
def ProcessingError.message : ProcessingError → String
  | malformedFormat format => "Invalid format: " ++ format
  | unknownStage name => "Invalid stage: " ++ name
  | unknownForm name => "Invalid format type: " ++ name
  | mismatchedFormat form only =>
    "Invalid format type: Format '" ++ form.name ++ "' only works with " ++ only.name ++ " stage"
  | unsuitedForm form only =>
    "Invalid format type: " ++ form.name ++ " format only works with " ++ only.name ++ " stage"
  | unreadable error => "IO error: " ++ error.message
  | malformedSource error => error.message

namespace OutputFormat

/-! ### Names of formats -/

/-- The name of a format. -/
def name (format : OutputFormat) : String :=
  format.stage.name ++ "-" ++ format.form.name

/-- All formats, in the order in which they are listed. -/
def all : List OutputFormat :=
  [⟨.tokens, .listing⟩, ⟨.tokens, .json⟩, ⟨.tree, .structural⟩, ⟨.tree, .json⟩, ⟨.tree, .outline⟩,
    ⟨.tree, .callForm⟩]

/-- Cuts a text at its first hyphen. -/
def splitAtHyphen? (text : String) : Option (String × String) :=
  let characters := text.toList
  match characters.dropWhile (· != '-') with
  | [] => none
  | _ :: rest => some (String.ofList (characters.takeWhile (· != '-')), String.ofList rest)

/-- The format with a given name. The stage is looked at first, then the form, then whether they
go together. -/
def ofName (name : String) : Except ProcessingError OutputFormat := do
  let some (stageName, formName) := splitAtHyphen? name | throw (.malformedFormat name)
  let some stage := Stage.ofName? stageName | throw (.unknownStage stageName)
  let some form := Form.ofName? formName | throw (.unknownForm formName)
  match form.onlyStage? with
  | some only => if only = stage then return ⟨stage, form⟩ else throw (.mismatchedFormat form only)
  | none => return ⟨stage, form⟩

end OutputFormat

/-! ### Processing -/

/-- What can be chosen about the forms. -/
structure ProcessingOptions where
  naming : Naming := {}
  labelWidth : Nat := Node.defaultLabelWidth
  deriving DecidableEq, Repr, Inhabited

/-- Tokens in a form. -/
def writeTokens (form : Form) (tokens : List Token) : Except ProcessingError String :=
  match form with
  | .listing => .ok (String.join (tokens.map fun token ↦ token.display ++ "\n"))
  | .json => .ok (Json.Document.list (tokens.map Token.document)).write
  | form => .error (.unsuitedForm form .tree)

/-- A tree in a form. -/
def Node.write (options : ProcessingOptions) (form : Form) (node : Node) :
    Except ProcessingError String :=
  match form with
  | .structural => .ok node.display
  | .json => .ok node.document.write
  | .outline => .ok (node.outline options.labelWidth)
  | .callForm => .ok (node.render options.naming)
  | .listing => .error (.unsuitedForm .listing .tokens)

/-- Reads a source as far as a format asks for and writes the result. The source is read first, so
its errors come before those of a form that does not suit the stage. -/
def process (source : String) (format : OutputFormat) (options : ProcessingOptions) :
    Except ProcessingError String := do
  match format.stage with
  | .tokens =>
    match tokenize source with
    | .ok tokens => writeTokens format.form tokens
    | .error error => throw (.malformedSource (.lexical error))
  | .tree =>
    match parse source with
    | .ok node => node.write options format.form
    | .error error => throw (.malformedSource error)

/-- Reads a file and writes its text in a format. -/
def processFile (files : Files) (path : String) (format : OutputFormat)
    (options : ProcessingOptions) : Except ProcessingError String :=
  match files.read path with
  | .ok source => process source format options
  | .error error => .error (.unreadable error)

/-- The call form of a source, with the usual names. -/
def interpret (source : String) : Except SyntaxError String :=
  (parse source).map (Node.render {})

end Formula
