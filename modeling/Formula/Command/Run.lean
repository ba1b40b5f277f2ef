import Formula.Command.Arguments
import Formula.Diagnostic
import Formula.Settings.Loader

/-!
Running the command. A run reads its settings, its source and its format, in this order of
failures, and then writes the source in the format.
-/

set_option autoImplicit false
set_option relaxedAutoImplicit false

namespace Formula.Command

/-! ### Fixed texts -/

/-- The answer to a request for the version. -/
def versionText : String :=
  "mathexpr 0.1.0\n"

/-- The answer to a request for help. -/
def helpText : String :=
  "A tool for inspecting and normalizing math expressions\n" ++
  "\n" ++
  "Usage: mathexpr [OPTIONS] [path]\n" ++
  "\n" ++
  "Arguments:\n" ++
  "  [path]  Path to the source file, or '-' to read stdin\n" ++
  "\n" ++
  "Options:\n" ++
  "  -e, --expr <expr>      Source text to process instead of a file\n" ++
  "  -f, --format <format>  Output format (default: inspect.default_format from the config)\n" ++
  "  -c, --config <config>  TOML file layered over the built-in defaults\n" ++
  "      --list-formats     List available output formats\n" ++
  "  -h, --help             Print help\n" ++
  "  -V, --version          Print version\n"

/-- The names of all formats, one on a line. -/
def formatLines : String :=
  String.join (OutputFormat.all.map fun format ↦ "  " ++ format.name ++ "\n")

/-! ### Runs -/

/-- The reasons for which a run fails. -/
inductive Failure where
  | misuse
  | settings (error : SettingsError)
  | input (path : String) (error : ReadError)
  | format (error : ProcessingError)
  | source (diagnostic : Diagnostic)
  | processing (error : ProcessingError)
  deriving Repr, Inhabited

/-- The exit code of a failed run. -/
def Failure.exitCode : Failure → Nat
  | misuse => 2
  | _ => 1

/-- What a failed run says. Misuse is answered by the usage, and a syntax error by a diagnostic,
which a program may draw as it likes. -/
def Failure.message : Failure → String
  | misuse => "Usage: mathexpr [OPTIONS] [path]\n"
  | settings error => "Configuration error: " ++ error.message ++ "\n"
  | input path error => "Error reading " ++ path ++ ": " ++ error.message ++ "\n"
  | format error => "Error: " ++ error.message ++ "\n\nAvailable formats:\n" ++ formatLines
  | source diagnostic => diagnostic.name ++ ": " ++ diagnostic.message ++ "\n"
  | processing error => "Error: " ++ error.message ++ "\n"

/-- What the command can read: the files of its directory and the standard input. -/
structure World where
  files : Files
  input : ByteArray
  deriving Inhabited

/-- The path that stands for the standard input. -/
def inputPath : String := "-"

/-- The settings of a run. -/
def World.settings (world : World) (config : Option String) : Except Failure Settings :=
  let loader : Loader := match config with
    | some path => Loader.withFile {} path
    | none => {}
  (loader.build world.files).mapError .settings

/-- The source of a run, with its name. -/
def World.source (world : World) (arguments : Arguments) : Except Failure (String × String) :=
  match arguments.expression with
  | some expression => .ok ("<expr>", expression)
  | none =>
    let path := arguments.path.getD inputPath
    let text := if path = inputPath then decode world.input else world.files.read path
    match text with
    | .ok source => .ok (if path = inputPath then "<stdin>" else path, source)
    | .error error => .error (.input path error)

/-- An output as it is printed: it ends in a line feed unless it is empty. -/
def terminated (output : String) : String :=
  if output.isEmpty || output.toList.getLast? == some '\n' then output else output ++ "\n"

/-- What a run with proper arguments prints. -/
def execute (world : World) (arguments : Arguments) : Except Failure String := do
  if arguments.listsFormats then return "Available formats:\n\n" ++ formatLines
  let settings ← world.settings arguments.config
  let (name, source) ← world.source arguments
  let formatName := arguments.format.getD settings.defaultFormat
  let format ← (OutputFormat.ofName formatName).mapError .format
  match process source format settings.options with
  | .ok output => return terminated output
  | .error (.malformedSource error) => throw (.source (.ofError error (some name) source))
  | .error error => throw (.processing error)

/-- What a run prints. -/
def run (world : World) (words : List String) : Except Failure String :=
  match Arguments.read words with
  | .ok arguments => execute world arguments
  | .error .help => .ok helpText
  | .error .version => .ok versionText
  | .error .misuse => .error .misuse

end Formula.Command
