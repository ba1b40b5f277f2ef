import Formula.Keyed
import Formula.Text.Lowercase
import Formula.Toml.Value

/-!
Settings as they are written, before anyone asks what they mean: texts, numbers, truth values,
lists and tables. A setting remembers the file that it came from. The names in a table are in lower
case.
-/

set_option autoImplicit false
set_option relaxedAutoImplicit false

namespace Formula

/-- A setting that holds no others. -/
inductive Scalar where
  | nothing
  | truth (value : Bool)
  | integer (value : Int)
  | float (value : Number.Binary64)
  | text (value : String)
  deriving DecidableEq, Repr, Inhabited

/-- A setting with the name of the file that it came from. -/
inductive Setting where
  | scalar (origin : Option String) (value : Scalar)
  | list (origin : Option String) (items : List Setting)
  | table (origin : Option String) (entries : List (String × Setting))
  deriving Inhabited

namespace Setting

/-- The setting that says nothing. -/
def nothing : Setting :=
  .scalar none .nothing

/-- The file that a setting came from. -/
def origin? : Setting → Option String
  | .scalar origin _ => origin
  | .list origin _ => origin
  | .table origin _ => origin

/-- The entries of a table; everything else has none. -/
def entries : Setting → List (String × Setting)
  | .table _ entries => entries
  | _ => []

/-- The items of a list; everything else has none. -/
def items : Setting → List Setting
  | .list _ items => items
  | _ => []

/-! ### Documents -/

mutual

/-- A value of a document as a setting from a file. -/
def ofToml (origin : Option String) : Toml.Value → Setting
  | .text value => .scalar origin (.text value)
  | .integer value => .scalar origin (.integer value)
  | .float value => .scalar origin (.float value)
  | .truth value => .scalar origin (.truth value)
  | .moment value => .scalar origin (.text value.text)
  | .list items => .list origin (ofTomlItems origin items)
  | .table entries => .table origin (ofTomlEntries origin entries)

/-- The items of an array as settings. -/
def ofTomlItems (origin : Option String) : List Toml.Value → List Setting
  | [] => []
  | item :: others => ofToml origin item :: ofTomlItems origin others

/-- The entries of a table as settings. -/
def ofTomlEntries (origin : Option String) : List (String × Toml.Value) → List (String × Setting)
  | [] => []
  | (key, value) :: others => (key, ofToml origin value) :: ofTomlEntries origin others

end

/-! ### Layering -/

/-- Replaces what a table has under a name. What is no table gives way to a new one. -/
def put (setting : Setting) (name : String) (value : Setting) : Setting :=
  match setting with
  | .table origin entries => .table origin (Keyed.put (Text.lowercase name) value entries)
  | _ => .table none [(Text.lowercase name, value)]

/-- What a table has under a name. -/
def get? (setting : Setting) (name : String) : Option Setting :=
  setting.entries.lookup (Text.lowercase name)

mutual

/-- Lays a setting over what a table has under a name. Tables are merged entry by entry, all else
replaces what was there. -/
def overlay : Setting → String → Setting → Setting
  | .table _ incoming, name, current =>
    current.put name (overlayAll incoming ((current.get? name).getD (.table none [])))
  | .list origin items, name, current => current.put name (.list origin items)
  | .scalar origin value, name, current => current.put name (.scalar origin value)

/-- Lays entries over a setting, one after the other. -/
def overlayAll : List (String × Setting) → Setting → Setting
  | [], current => current
  | (name, value) :: others, current => overlayAll others (overlay value name current)

end

end Setting

end Formula
