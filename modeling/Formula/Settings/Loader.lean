import Formula.Settings.Meaning
import Formula.Toml.Document

/-!
Putting settings together in layers: the usual settings, then files in the order in which they were
added, then single settings that override them all.
-/

set_option autoImplicit false
set_option relaxedAutoImplicit false

namespace Formula

/-! ### The usual settings -/

/-- A table of texts without an origin. -/
def Setting.ofTexts (entries : List (String × String)) : Setting :=
  .table none (entries.map fun (name, text) ↦ (name, .scalar none (.text text)))

/-- The settings below all layers. -/
def Setting.usual : Setting :=
  .table none
    [("render", .ofTexts
      [("function_wrapper", "Func"), ("atom_wrapper", "atom"), ("apply_method", "eval"),
        ("vector_name", "vector"), ("set_name", "set"), ("operator_style", "lexeme")]),
    ("inspect", .table none
      [("default_format", .scalar none (.text "ast-render")),
        ("treeviz_label_width", .scalar none (.integer 30))])]

/-! ### Files -/

/-- The names under which a file of settings is looked for: its own, then its own with an ending. -/
def settingsNames (path : String) : List String :=
  if (Files.pathParts path).isEmpty then [] else [path, Files.nameOf path ++ ".toml"]

/-- The name and the bytes of a file of settings. -/
def Files.settings? (files : Files) (path : String) : Option (String × ByteArray) :=
  (settingsNames path).findSome? fun name ↦
    (files.bytes? name).map fun bytes ↦ (Files.nameOf name, bytes)

/-- Lays an entry of a file over the settings. Its name is a path if it can be read as one. -/
def Setting.overlayEntry (setting : Setting) (name : String) (value : Setting) : Setting :=
  match Path.ofText name with
  | .ok path => Setting.overlayAt path value setting
  | .error _ => Setting.overlayAt (.ofName name) value setting

/-- A file of settings, which may have to be there. -/
structure FileLayer where
  path : String
  isRequired : Bool
  deriving DecidableEq, Repr, Inhabited

/-- The entries of a file of settings. An optional file that cannot be read has none. -/
def FileLayer.entries (files : Files) (layer : FileLayer) :
    Except SettingsError (List (String × Setting)) :=
  match files.settings? layer.path with
  | none => if layer.isRequired then .error (.fileNotFound layer.path) else .ok []
  | some (name, bytes) =>
    match decode bytes with
    | .error _ => if layer.isRequired then .error .fileNotText else .ok []
    | .ok text =>
      match Toml.read text with
      | some entries => .ok (Setting.ofTomlEntries (some name) entries)
      | none => .error .malformedFile

/-- Lays a file over the settings. -/
def FileLayer.overlay (files : Files) (setting : Setting) (layer : FileLayer) :
    Except SettingsError Setting := do
  let entries ← layer.entries files
  return entries.foldl (fun setting (name, value) ↦ setting.overlayEntry name value) setting

/-! ### Loaders -/

/-- The layers over the usual settings. -/
structure Loader where
  layers : List FileLayer := []
  overrides : List (Path × Setting) := []
  deriving Inhabited

namespace Loader

/-- Adds a file that has to be there. -/
def withFile (loader : Loader) (path : String) : Loader :=
  { loader with layers := loader.layers ++ [⟨path, true⟩] }

/-- Adds a file that may be missing. -/
def withOptionalFile (loader : Loader) (path : String) : Loader :=
  { loader with layers := loader.layers ++ [⟨path, false⟩] }

/-- Adds a setting that overrides all files, and one that was added under the same path before. -/
def withOverride (loader : Loader) (name : String) (value : Setting) :
    Except SettingsError Loader :=
  match Path.ofText name with
  | .ok path =>
    let others := loader.overrides.filter fun override ↦ override.1 != path
    .ok { loader with overrides := others ++ [(path, value)] }
  | .error fault => .error (.malformedPath fault)

/-- All layers on top of each other. -/
def merged (files : Files) (loader : Loader) : Except SettingsError Setting := do
  let setting ← loader.layers.foldlM (FileLayer.overlay files) Setting.usual
  return loader.overrides.foldl (fun setting (path, value) ↦ Setting.overlayAt path value setting)
    setting

/-- What the settings of all layers mean. -/
def build (files : Files) (loader : Loader) : Except SettingsError Settings := do
  (← loader.merged files).meaning

end Loader

end Formula
