import Formula.Number.Shortest
import Formula.Processing
import Formula.Settings.Error
import Formula.Text.Quoted

/-!
What settings mean. A setting is taken for a text, a number or a style wherever that makes sense:
numbers and truth values have texts, and some texts stand for numbers. Records are tables whose
names are the fields, or lists of the fields in their order.
-/

set_option autoImplicit false
set_option relaxedAutoImplicit false

namespace Formula

/-- Everything that can be set. -/
structure Settings where
  naming : Naming := {}
  defaultFormat : String := "ast-render"
  labelWidth : Nat := Node.defaultLabelWidth
  deriving DecidableEq, Repr, Inhabited

/-- What the settings choose about the output formats. -/
def Settings.options (settings : Settings) : ProcessingOptions :=
  ⟨settings.naming, settings.labelWidth⟩

/-- A setting and the name under which it was found. -/
structure NamedSetting where
  name : String
  setting : Setting
  deriving Inhabited

namespace NamedSetting

/-! ### Scalars -/

/-- The error for a setting that is not what is expected. -/
def wrongType (named : NamedSetting) (found expected : String) : SettingsError :=
  .wrongType found expected named.name named.setting.origin?

/-- A setting as a text. -/
def asText (named : NamedSetting) : Except SettingsError String :=
  match named.setting with
  | .scalar _ (.text value) => .ok value
  | .scalar _ (.truth value) => .ok (toString value)
  | .scalar _ (.integer value) => .ok (toString value)
  | .scalar _ (.float value) => .ok value.toText
  | .scalar _ .nothing => .error (named.wrongType "unit value" "a string")
  | .list _ _ => .error (named.wrongType "sequence" "a string")
  | .table _ _ => .error (named.wrongType "map" "a string")

/-- The number that a text stands for: a truth value in words, or decimal digits of a number of 64
bits, with an optional sign. -/
def numberOfText? (text : String) : Option Nat :=
  let lower := Text.lowercase text
  if lower = "true" || lower = "on" || lower = "yes" then some 1
  else if lower = "false" || lower = "off" || lower = "no" then some 0
  else
    let digits := match text.toList with
      | '+' :: rest => rest
      | characters => characters
    let number := Number.ofDigits 10 digits
    if !digits.isEmpty && digits.all Char.isDigit && number ≤ Number.Binary64.maxWord then
      some number
    else none

/-- A setting as a number of 64 bits. -/
def asNumber (named : NamedSetting) : Except SettingsError Nat :=
  match named.setting with
  | .scalar _ (.integer value) =>
    if 0 ≤ value then .ok value.toNat
    else .error (named.wrongType ("64-bit integer `" ++ toString value ++ "`")
      "an unsigned 64 bit or less integer")
  | .scalar _ (.float value) => .ok value.toWord
  | .scalar _ (.truth value) => .ok (if value then 1 else 0)
  | .scalar _ (.text value) =>
    match numberOfText? value with
    | some number => .ok number
    | none => .error (named.wrongType ("string " ++ Text.quoted value) "an integer")
  | .scalar _ .nothing => .error (named.wrongType "unit value" "an integer")
  | .list _ _ => .error (named.wrongType "sequence" "an integer")
  | .table _ _ => .error (named.wrongType "map" "an integer")

/-- The style with a given name, in any case. -/
def styleOfText (text : String) : Except SettingsError OperatorStyle :=
  let lower := Text.lowercase text
  if lower = "lexeme" then .ok .lexeme
  else if lower = "name" then .ok .name
  else .error (.unknownStyle text)

/-- A setting as a style: its name, or a table whose only entry has it as a name. -/
def asStyle (named : NamedSetting) : Except SettingsError OperatorStyle :=
  match named.setting with
  | .scalar _ (.text value) => styleOfText value
  | .table _ [(name, _)] => styleOfText name
  | _ => .error .notStyle

/-! ### Records -/

/-- The text of a number in an error about a record; a whole float keeps a point. -/
def floatText (value : Number.Binary64) : String :=
  match value with
  | .finite _ _ _ => if value.toText.toList.contains '.' then value.toText else value.toText ++ ".0"
  | _ => value.toText

/-- The words for a scalar where a record is expected. -/
def describeScalar : Scalar → String
  | .nothing => "unit value"
  | .truth value => "boolean `" ++ toString value ++ "`"
  | .integer value => "integer `" ++ toString value ++ "`"
  | .float value => "floating point `" ++ floatText value ++ "`"
  | .text value => "string " ++ Text.quoted value

/-- The fields of a record as they are written, and the error for one that is not. -/
structure Fields where
  present : List (String × NamedSetting)
  missing : String → SettingsError

/-- The settings of a list under the names of a record's fields, in order. -/
def itemFields (name : String) (position : Nat) : List String → List Setting →
    List (String × NamedSetting)
  | field :: fields, item :: items =>
    (field, ⟨name ++ "[" ++ toString position ++ "]", item⟩) ::
      itemFields name (position + 1) fields items
  | _, _ => []

/-- The settings of a table under the names of a record's fields. -/
def entryFields (name : String) (entries : List (String × Setting)) (fields : List String) :
    List (String × NamedSetting) :=
  fields.filterMap fun field ↦
    (entries.lookup field).map fun setting ↦ (field, ⟨name ++ "." ++ field, setting⟩)

/-- The fields of a record. -/
def asRecord (named : NamedSetting) (record : String) (fields : List String) :
    Except SettingsError Fields :=
  match named.setting with
  | .table _ entries => .ok ⟨entryFields named.name entries fields, .missingField⟩
  | .list _ items =>
    .ok ⟨itemFields named.name 0 fields items,
      fun _ ↦ .tooFewItems items.length record fields.length⟩
  | .scalar _ value => .error (.notRecord (describeScalar value) record)

/-- What a field means, if it is there. -/
def Fields.read? {α : Type} (fields : Fields) (name : String)
    (meaning : NamedSetting → Except SettingsError α) : Except SettingsError (Option α) :=
  match fields.present.lookup name with
  | some named => (meaning named).map some
  | none => .ok none

/-- What a field means, which has to be there. -/
def Fields.require {α : Type} (fields : Fields) (name : String) :
    Option α → Except SettingsError α
  | some value => .ok value
  | none => .error (fields.missing name)

/-- A setting as the names of the call form. The fields that are there are looked at before those
that are not. -/
def asNaming (named : NamedSetting) : Except SettingsError Naming := do
  let fields ← named.asRecord "RenderConfig"
    ["function_wrapper", "atom_wrapper", "apply_method", "vector_name", "set_name",
      "operator_style"]
  let functionWrapper? ← fields.read? "function_wrapper" asText
  let atomWrapper? ← fields.read? "atom_wrapper" asText
  let applyMethod? ← fields.read? "apply_method" asText
  let vectorName? ← fields.read? "vector_name" asText
  let setName? ← fields.read? "set_name" asText
  let operatorStyle? ← fields.read? "operator_style" asStyle
  return {
    functionWrapper := ← fields.require "function_wrapper" functionWrapper?
    atomWrapper := ← fields.require "atom_wrapper" atomWrapper?
    applyMethod := ← fields.require "apply_method" applyMethod?
    vectorName := ← fields.require "vector_name" vectorName?
    setName := ← fields.require "set_name" setName?
    operatorStyle := ← fields.require "operator_style" operatorStyle? }

/-- A setting as the usual format and the width of labels. -/
def asInspection (named : NamedSetting) : Except SettingsError (String × Nat) := do
  let fields ← named.asRecord "InspectConfig" ["default_format", "treeviz_label_width"]
  let defaultFormat? ← fields.read? "default_format" asText
  let labelWidth? ← fields.read? "treeviz_label_width" asNumber
  return (← fields.require "default_format" defaultFormat?,
    ← fields.require "treeviz_label_width" labelWidth?)

end NamedSetting

/-- What a table of settings means. -/
def Setting.meaning (setting : Setting) : Except SettingsError Settings := do
  let read? {α : Type} (name : String) (meaning : NamedSetting → Except SettingsError α) :
      Except SettingsError (Option α) :=
    match setting.entries.lookup name with
    | some found => (meaning ⟨name, found⟩).map some
    | none => .ok none
  let naming? ← read? "render" NamedSetting.asNaming
  let inspection? ← read? "inspect" NamedSetting.asInspection
  match naming?, inspection? with
  | some naming, some (defaultFormat, labelWidth) => return { naming, defaultFormat, labelWidth }
  | none, _ => throw (.missingField "render")
  | _, none => throw (.missingField "inspect")

end Formula
