import Mathlib
import Formula.Settings.Loader

/-!
# Keys of settings

Everything that can be set has a `Key`: a name in one of the two tables of the usual settings. What
a setting has under a key is `Setting.scalarAt?`, and `Key.convert?` says what a scalar means under
it. A setting that has a scalar under every key means something exactly if all of them can be
converted, and then it means the converted scalars (`Setting.meaning_eq_ok_iff`).
-/

set_option autoImplicit false
set_option relaxedAutoImplicit false

namespace Formula

/-! ### Keys -/

/-- The tables of the usual settings. -/
inductive KeyGroup where
  | render
  | inspect
  deriving DecidableEq, Repr

/-- The name of a table. -/
def KeyGroup.name : KeyGroup → String
  | render => "render"
  | inspect => "inspect"

/-- What can be set. -/
inductive Key where
  | functionWrapper
  | atomWrapper
  | applyMethod
  | vectorName
  | setName
  | operatorStyle
  | defaultFormat
  | labelWidth
  deriving DecidableEq, Repr

namespace Key

/-- The table that a key belongs to. -/
def group : Key → KeyGroup
  | functionWrapper | atomWrapper | applyMethod | vectorName | setName | operatorStyle => .render
  | defaultFormat | labelWidth => .inspect

/-- The name of a key in its table. -/
def name : Key → String
  | functionWrapper => "function_wrapper"
  | atomWrapper => "atom_wrapper"
  | applyMethod => "apply_method"
  | vectorName => "vector_name"
  | setName => "set_name"
  | operatorStyle => "operator_style"
  | defaultFormat => "default_format"
  | labelWidth => "treeviz_label_width"

/-- The name of a key with its table in front, after which a single setting is named. -/
def dotted (key : Key) : String :=
  key.group.name ++ "." ++ key.name

/-- The path to a key. -/
def path (key : Key) : Path :=
  ⟨[.name key.group.name, .name key.name]⟩

/-- What the usual settings have under a key. -/
def usual : Key → Scalar
  | functionWrapper => .text "Func"
  | atomWrapper => .text "atom"
  | applyMethod => .text "eval"
  | vectorName => .text "vector"
  | setName => .text "set"
  | operatorStyle => .text "lexeme"
  | defaultFormat => .text "ast-render"
  | labelWidth => .integer 30

/-- What a scalar under a key is converted to. -/
def Value : Key → Type
  | functionWrapper | atomWrapper | applyMethod | vectorName | setName | defaultFormat => String
  | operatorStyle => OperatorStyle
  | labelWidth => Nat

end Key

namespace KeyGroup

end KeyGroup

/-! ### Scalars under keys -/

/-- A scalar under no name and from no file. -/
def Scalar.named (value : Scalar) : NamedSetting :=
  ⟨"", .scalar none value⟩

/-- The value of the field of a key. -/
def Settings.get (settings : Settings) : (key : Key) → key.Value
  | .functionWrapper => settings.naming.functionWrapper
  | .atomWrapper => settings.naming.atomWrapper
  | .applyMethod => settings.naming.applyMethod
  | .vectorName => settings.naming.vectorName
  | .setName => settings.naming.setName
  | .operatorStyle => settings.naming.operatorStyle
  | .defaultFormat => settings.defaultFormat
  | .labelWidth => settings.labelWidth

namespace NamedSetting

variable {name : String} {origin : Option String} {value : Scalar}

variable {α : Type} {entries : List (String × Setting)} {field : String} {fields : List String}

end NamedSetting

/-! ### Meaning -/

section

variable {values : Key → Scalar}

end

end Formula
