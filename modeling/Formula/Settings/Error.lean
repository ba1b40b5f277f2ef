import Formula.Settings.Path

/-!
The reasons for which settings cannot be used.
-/

set_option autoImplicit false
set_option relaxedAutoImplicit false

namespace Formula

/-- Anything that keeps settings from being put together or understood. -/
inductive SettingsError where
  /-- The name of a setting that is no path. -/
  | malformedPath (fault : Path.Fault)
  /-- A setting that cannot be taken for what is expected under its name. -/
  | wrongType (found expected name : String) (origin : Option String)
  | fileNotFound (path : String)
  | fileNotText
  | malformedFile
  /-- Neither a table nor a list where a record is expected. -/
  | notRecord (found record : String)
  | tooFewItems (count : Nat) (record : String) (size : Nat)
  | missingField (name : String)
  | unknownStyle (text : String)
  /-- Neither a text nor a table with one entry where a style is expected. -/
  | notStyle
  deriving DecidableEq, Repr, Inhabited

/-- The sentence that reports an error. The report of a malformed file goes on with the place of
the fault, which is not described here. -/
def SettingsError.message : SettingsError → String
  | malformedPath fault => fault.message
  | wrongType found expected name origin =>
    "invalid type: " ++ found ++ ", expected " ++ expected ++ " for key `" ++ name ++ "`" ++
      (match origin with
        | some file => " in " ++ file
        | none => "")
  | fileNotFound path => "configuration file \"" ++ path ++ "\" not found"
  | fileNotText => "stream did not contain valid UTF-8"
  | malformedFile => "TOML parse error"
  | notRecord found record => "invalid type: " ++ found ++ ", expected struct " ++ record
  | tooFewItems count record size =>
    "invalid length " ++ toString count ++ ", expected struct " ++ record ++ " with " ++
      toString size ++ " elements"
  | missingField name => "missing field `" ++ name ++ "`"
  | unknownStyle text => "enum OperatorStyle does not have variant constructor " ++ text
  | notStyle =>
    "value of enum OperatorStyle should be represented by either string or table with exactly " ++
      "one key"

end Formula
