/-!
Lists of keys with what belongs to them. Each key stands in a list once, and the order is that in
which the keys came. A key is looked up by `List.lookup`; the lemmas say what a list answers after
a key has been given something.
-/

set_option autoImplicit false
set_option relaxedAutoImplicit false

namespace Formula.Keyed

variable {α : Type}

/-- Gives a key something else, in its old place, or adds the key at the end. -/
def put (key : String) (value : α) : List (String × α) → List (String × α)
  | [] => [(key, value)]
  | (other, old) :: rest =>
    if other = key then (key, value) :: rest else (other, old) :: put key value rest

/-- Takes a key out of a list. -/
def erase (key : String) (entries : List (String × α)) : List (String × α) :=
  entries.filter fun entry ↦ entry.1 != key

theorem lookup_erase_self (key : String) (entries : List (String × α)) :
    (erase key entries).lookup key = none := by
  induction entries with
  | nil => rfl
  | cons entry rest inductionHypothesis =>
    obtain ⟨other, old⟩ := entry
    by_cases same : other = key
    · simpa [erase, same] using inductionHypothesis
    · have differs : (key == other) = false := beq_false_of_ne (Ne.symm same)
      simpa [erase, same, List.lookup_cons, differs] using inductionHypothesis

end Formula.Keyed
