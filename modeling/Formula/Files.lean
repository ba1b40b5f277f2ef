/-!
A view of a file system: some plain files and directories by their paths, and reading a text.
-/

set_option autoImplicit false
set_option relaxedAutoImplicit false

namespace Formula

/-! ### Failures -/

/-- The reasons for which a text cannot be read. -/
inductive ReadError where
  | notFound
  /-- A part of the path in front of its end is a plain file. -/
  | notDirectory
  | isDirectory
  | notText
  deriving DecidableEq, Repr, Inhabited

/-- The words for a failure to read. -/
def ReadError.message : ReadError → String
  | notFound => "No such file or directory (os error 2)"
  | notDirectory => "Not a directory (os error 20)"
  | isDirectory => "Is a directory (os error 21)"
  | notText => "stream did not contain valid UTF-8"

/-- The text of some bytes, if they are the UTF-8 form of one. -/
def decode (bytes : ByteArray) : Except ReadError String :=
  match String.fromUTF8? bytes with
  | some text => .ok text
  | none => .error .notText

theorem decode_toUTF8 (text : String) : decode text.toUTF8 = .ok text := by
  have hvalid : text.toUTF8.IsValidUTF8 := text.isValidUTF8
  rw [decode, String.fromUTF8?, dif_pos hvalid]
  rfl

/-! ### Paths -/

/-- The plain files and the directories that can be seen, by their names. A name is a path without
parts that stay in place. The directory from which paths start has no name and is always there. -/
structure Files where
  plain : List (String × ByteArray) := []
  directories : List String := []
  deriving Inhabited

namespace Files

/-- The parts of a path, without those that stay in place. -/
def pathParts (path : String) : List String :=
  ((path.toList.splitOn '/').map String.ofList).filter fun part ↦ part != "" && part != "."

/-- Whether a path starts at the root of the file system. -/
def startsAtRoot (path : String) : Bool :=
  path.toList.head? == some '/'

/-- Whether a path asks for a directory by its last character. -/
def asksForDirectory (path : String) : Bool :=
  path.toList.getLast? == some '/'

/-- The name of the file that a path leads to. -/
def nameOf (path : String) : String :=
  (if startsAtRoot path then "/" else "") ++ "/".intercalate (pathParts path)

/-- Whether a path leads to a directory. -/
def isDirectory (files : Files) (path : String) : Bool :=
  path != "" && ((pathParts path).isEmpty || files.directories.contains (nameOf path))

/-- Whether a path goes on behind a plain file. -/
def isBehindFile (files : Files) (path : String) : Bool :=
  let route := nameOf path ++ (if asksForDirectory path then "/" else "")
  files.plain.any fun file ↦ (file.1 ++ "/").toList.isPrefixOf route.toList

/-- The bytes of the plain file at a path. -/
def bytes? (files : Files) (path : String) : Option ByteArray :=
  if asksForDirectory path then none else files.plain.lookup (nameOf path)

/-- The text of the file at a path. -/
def read (files : Files) (path : String) : Except ReadError String :=
  if files.isDirectory path then .error .isDirectory
  else if files.isBehindFile path then .error .notDirectory
  else
    match files.bytes? path with
    | some bytes => decode bytes
    | none => .error .notFound

end Files

end Formula
