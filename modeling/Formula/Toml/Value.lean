import Formula.Keyed
import Formula.Number.Binary64
import Formula.Toml.Moment

/-!
TOML values, and the tables from which a document is put together. While a document is read, each
of its tables remembers how it came to be, because that decides how it may still be extended.
-/

set_option autoImplicit false
set_option relaxedAutoImplicit false

namespace Formula.Toml

/-- A value of a document. -/
inductive Value where
  | text (value : String)
  | integer (value : Int)
  | float (value : Number.Binary64)
  | truth (value : Bool)
  | moment (value : Moment)
  | list (items : List Value)
  | table (entries : List (String × Value))
  deriving Inhabited

/-- How a table came to be: by a header of its own, on the way to the table of another header, or
on the way to the last part of a dotted key. -/
inductive Mark where
  | header
  | implied
  | dotted
  deriving DecidableEq, Repr, Inhabited

/-- What a key stands for while a document is read. -/
inductive Entry where
  | value (content : Value)
  | table (mark : Mark) (entries : List (String × Entry))
  /-- The tables of an array of tables, the last one first. -/
  | tables (current : List (String × Entry)) (earlier : List (List (String × Entry)))
  deriving Inhabited

namespace Value

/-! ### Moments in tables -/

/-- The key under which a table holds the text of a moment. -/
def momentKey : String :=
  "$__toml_private_datetime"

mutual

/-- The value in which every table whose first key is reserved for moments has become the moment
that its text holds, whatever else such a table has. There is none if a text holds no moment. -/
def withMoments? : Value → Option Value
  | .list items => (listWithMoments? items).map .list
  | .table [] => some (.table [])
  | .table ((key, first) :: others) =>
    if key = momentKey then
      match first with
      | .text written => (Moment.ofText? written).map .moment
      | _ => none
    else do
      return .table ((key, ← withMoments? first) :: (← entriesWithMoments? others))
  | other => some other

/-- The items of a list with their moments. -/
def listWithMoments? : List Value → Option (List Value)
  | [] => some []
  | item :: others => do
    return (← withMoments? item) :: (← listWithMoments? others)

/-- The entries of a table with their moments. -/
def entriesWithMoments? : List (String × Value) → Option (List (String × Value))
  | [] => some []
  | (key, value) :: others => do
    return (key, ← withMoments? value) :: (← entriesWithMoments? others)

end

end Value

namespace Entry

/-! ### Values -/

mutual

/-- The value that an entry has in the end. -/
def toValue : Entry → Value
  | .value content => content
  | .table _ entries => .table (toValues entries)
  | .tables current earlier => .list (toTables earlier [.table (toValues current)])

/-- The values that entries have in the end. -/
def toValues : List (String × Entry) → List (String × Value)
  | [] => []
  | (key, entry) :: others => (key, entry.toValue) :: toValues others

/-- The tables of an array of tables in front of the later ones. -/
def toTables : List (List (String × Entry)) → List Value → List Value
  | [], later => later
  | entries :: others, later => toTables others (.table (toValues entries) :: later)

end

/-! ### Extension -/

/-- Sets a value in the table to which a dotted key leads. Tables on the way come to be dotted;
those of a header cannot be entered, and the last one must be dotted. -/
def insert (last : String) (value : Value) :
    List String → List (String × Entry) → Option (List (String × Entry))
  | [], entries =>
    match entries.lookup last with
    | none => some (Keyed.put last (.value value) entries)
    | some _ => none
  | key :: path, entries => do
    let changed : Entry ←
      match entries.lookup key with
      | none => (insert last value path []).map (.table .dotted)
      | some (.table .dotted inner) => (insert last value path inner).map (.table .dotted)
      | some (.table .implied inner) =>
        if path.isEmpty then none else (insert last value path inner).map (.table .implied)
      | some (.tables inner earlier) =>
        if path.isEmpty then none else (insert last value path inner).map (.tables · earlier)
      | some (.table .header _) | some (.value _) => none
    return Keyed.put key changed entries

/-- Changes the entries of the table to which the keys of headers lead. Tables on the way come to
be implied, and an array of tables stands for its last table. -/
def alter (change : List (String × Entry) → Option (List (String × Entry))) :
    List String → List (String × Entry) → Option (List (String × Entry))
  | [], entries => change entries
  | key :: path, entries => do
    let changed : Entry ←
      match entries.lookup key with
      | none => (alter change path []).map (.table .implied)
      | some (.table mark inner) => (alter change path inner).map (.table mark)
      | some (.tables inner earlier) => (alter change path inner).map (.tables · earlier)
      | some (.value _) => none
    return Keyed.put key changed entries

/-- Opens the table of a header. Only a table that was implied so far can be opened later, and then
it stands after the entries that came before its header. -/
def openTable (key : String) (entries : List (String × Entry)) :
    Option (List (String × Entry)) :=
  match entries.lookup key with
  | none => some (Keyed.put key (.table .header []) entries)
  | some (.table .implied inner) =>
    some (Keyed.put key (.table .header inner) (Keyed.erase key entries))
  | some _ => none

/-- Opens a new table at the end of an array of tables. -/
def openNext (key : String) (entries : List (String × Entry)) : Option (List (String × Entry)) :=
  match entries.lookup key with
  | none => some (Keyed.put key (.tables [] []) entries)
  | some (.tables current earlier) =>
    some (Keyed.put key (.tables [] (current :: earlier)) entries)
  | some _ => none

end Entry

end Formula.Toml
