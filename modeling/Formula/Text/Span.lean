/-!
Stretches of a text, measured in bytes of its UTF-8 form. Offsets are counted from zero and a span
holds the bytes from its start up to, and without, its stop.
-/

set_option autoImplicit false
set_option relaxedAutoImplicit false

namespace Formula.Text

/-- The number of bytes of a list of characters. -/
def byteLength : List Char → Nat
  | [] => 0
  | character :: characters => character.utf8Size + byteLength characters

@[simp] theorem byteLength_nil : byteLength [] = 0 := rfl

@[simp] theorem byteLength_cons (character : Char) (characters : List Char) :
    byteLength (character :: characters) = character.utf8Size + byteLength characters := rfl

@[simp] theorem byteLength_append (first second : List Char) :
    byteLength (first ++ second) = byteLength first + byteLength second := by
  induction first with
  | nil => simp
  | cons character first ih => simp [ih, Nat.add_assoc]

/-- A stretch of bytes. -/
structure Span where
  start : Nat
  stop : Nat
  deriving DecidableEq, Repr, Inhabited

/-- The number of bytes in a span. -/
def Span.length (span : Span) : Nat :=
  span.stop - span.start

end Formula.Text
