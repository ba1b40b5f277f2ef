/-!
The arguments of the command. They are read from left to right; a request for help or for the
version is answered as soon as it is met, and the first misuse ends the reading.
-/

set_option autoImplicit false
set_option relaxedAutoImplicit false

namespace Formula.Command

/-! ### Options -/

/-- An option that takes a value. -/
inductive ValueOption where
  | expression
  | format
  | config
  deriving DecidableEq, Repr, Inhabited

/-- An option that takes no value. -/
inductive Flag where
  | listFormats
  | help
  | version
  deriving DecidableEq, Repr, Inhabited

/-- An option of either sort. -/
inductive Switch where
  | value (name : ValueOption)
  | flag (name : Flag)
  deriving DecidableEq, Repr, Inhabited

/-- The option with a long name. -/
def Switch.ofLong? : String → Option Switch
  | "expr" => some (.value .expression)
  | "format" => some (.value .format)
  | "config" => some (.value .config)
  | "list-formats" => some (.flag .listFormats)
  | "help" => some (.flag .help)
  | "version" => some (.flag .version)
  | _ => none

/-- The option with a short name. -/
def Switch.ofShort? : Char → Option Switch
  | 'e' => some (.value .expression)
  | 'f' => some (.value .format)
  | 'c' => some (.value .config)
  | 'h' => some (.flag .help)
  | 'V' => some (.flag .version)
  | _ => none

/-! ### Arguments -/

/-- What has been read from the arguments. -/
structure Arguments where
  path : Option String := none
  expression : Option String := none
  format : Option String := none
  config : Option String := none
  listsFormats : Bool := false
  deriving DecidableEq, Repr, Inhabited

/-- The ways in which reading the arguments ends early. -/
inductive Stop where
  | misuse
  | help
  | version
  deriving DecidableEq, Repr, Inhabited

namespace Arguments

/-- Takes a value for something that can be given once. -/
def once (old : Option String) (value : String) : Except Stop (Option String) :=
  match old with
  | none => .ok (some value)
  | some _ => .error .misuse

/-- Takes a path. -/
def addPath (arguments : Arguments) (path : String) : Except Stop Arguments := do
  return { arguments with path := ← once arguments.path path }

/-- Takes an option with its value. -/
def addValue (arguments : Arguments) (name : ValueOption) (value : String) :
    Except Stop Arguments := do
  match name with
  | .expression => return { arguments with expression := ← once arguments.expression value }
  | .format => return { arguments with format := ← once arguments.format value }
  | .config => return { arguments with config := ← once arguments.config value }

/-- Takes an option without a value. -/
def addFlag (arguments : Arguments) : Flag → Except Stop Arguments
  | .help => .error .help
  | .version => .error .version
  | .listFormats =>
    if arguments.listsFormats then .error .misuse else .ok { arguments with listsFormats := true }

/-! ### Words -/

/-- What a word on the command line is. -/
inductive Word where
  /-- Two hyphens: no options follow. -/
  | divider
  /-- A flag. -/
  | flag (name : Flag)
  /-- An option that has its value in the same word. -/
  | assigned (name : ValueOption) (value : String)
  /-- An option whose value is the next word. -/
  | awaiting (name : ValueOption)
  /-- Something that looks like an option, but is none. -/
  | unknown
  /-- A word that does not start with a hyphen, or is a lone one. -/
  | plain (text : String)
  deriving DecidableEq, Repr, Inhabited

/-- A word after its two hyphens; an equals sign divides an option from its value. -/
def longWord (text : List Char) : Word :=
  let name := String.ofList (text.takeWhile (· != '='))
  match Switch.ofLong? name, text.dropWhile (· != '=') with
  | some (.value option), _ :: value => .assigned option (String.ofList value)
  | some (.value option), [] => .awaiting option
  | some (.flag flag), [] => .flag flag
  | _, _ => .unknown

/-- A word after its single hyphen. What follows the letter of an option is its value, without one
equals sign in front. -/
def shortWord (letter : Char) (rest : List Char) : Word :=
  match Switch.ofShort? letter, rest with
  | some (.value option), [] => .awaiting option
  | some (.value option), '=' :: value => .assigned option (String.ofList value)
  | some (.value option), value => .assigned option (String.ofList value)
  | some (.flag flag), _ => .flag flag
  | none, _ => .unknown

/-- What a word is, where options are looked for. -/
def classify (text : String) : Word :=
  match text.toList with
  | ['-', '-'] => .divider
  | '-' :: '-' :: rest => longWord rest
  | '-' :: letter :: rest => shortWord letter rest
  | _ => .plain text

/-! ### Reading -/

/-- Takes words of which none is an option. -/
def addPaths (arguments : Arguments) (words : List String) : Except Stop Arguments :=
  words.foldlM addPath arguments

/-- Takes words among which there are options. The value of an option may not look like an option
itself. -/
def addWords (arguments : Arguments) : List String → Except Stop Arguments
  | [] => .ok arguments
  | word :: words => do
    match classify word with
    | .divider => arguments.addPaths words
    | .flag name => addWords (← arguments.addFlag name) words
    | .assigned name value => addWords (← arguments.addValue name value) words
    | .unknown => throw .misuse
    | .plain text => addWords (← arguments.addPath text) words
    | .awaiting name =>
      match words with
      | [] => throw .misuse
      | value :: others =>
        match classify value with
        | .plain text => addWords (← arguments.addValue name text) others
        | _ => throw .misuse

/-- Whether the arguments go together: there is a path or an expression, but not both, or else the
formats are asked for. -/
def isComplete (arguments : Arguments) : Bool :=
  match arguments.path, arguments.expression with
  | some _, some _ => false
  | some _, none => true
  | none, some _ => true
  | none, none => arguments.listsFormats

/-- The arguments in a list of words. -/
def read (words : List String) : Except Stop Arguments := do
  let arguments ← addWords {} words
  if arguments.isComplete then return arguments else throw .misuse

end Arguments

end Formula.Command
