import Formula.Command.Run

/-!
The command itself: it gathers what a run may read, lets it run and prints the result.
-/

set_option autoImplicit false
set_option relaxedAutoImplicit false

open Formula Command

/-- Adds the file at a path, if there is one, to what a run can see. -/
def addFile (files : Files) (path : String) : IO Files := do
  try
    let bytes ← IO.FS.readBinFile path
    return { files with plain := files.plain ++ [(Files.nameOf path, bytes)] }
  catch
    | .inappropriateType _ 21 _ =>
      return { files with directories := Files.nameOf path :: files.directories }
    | _ => return files

/-- Reads a stream up to its end. -/
partial def readAll (stream : IO.FS.Stream) (bytes : ByteArray) : IO ByteArray := do
  let next ← stream.read 65536
  if next.isEmpty then return bytes else readAll stream (bytes ++ next)

/-- What a run with the given arguments may read. -/
def gather (arguments : Arguments) : IO World := do
  let configs := arguments.config.elim [] settingsNames
  let isPiped := arguments.path.all (· == inputPath) && arguments.expression.isNone
  let sources := if isPiped then [] else arguments.path.toList
  let files ← (configs ++ sources).foldlM addFile {}
  let input ← if isPiped then readAll (← IO.getStdin) .empty else pure .empty
  return ⟨files, input⟩

/-- Runs the command with the arguments of the program. -/
def main (words : List String) : IO UInt32 := do
  let world ← match Arguments.read words with
    | .ok arguments => if arguments.listsFormats then pure ⟨{}, .empty⟩ else gather arguments
    | .error _ => pure ⟨{}, .empty⟩
  match run world words with
  | .ok output =>
    IO.print output
    return 0
  | .error failure =>
    IO.eprint failure.message
    return failure.exitCode.toUInt32
