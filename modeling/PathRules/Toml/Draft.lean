import PathRules.Toml.Value

/-!
# Tables under construction

While a document is read, a table remembers what brought it about, since that decides what may
still be added to it. A value under a key is final. A table that a header names cannot be named
again; one that is only on the way of a header can be named once; one that a dotted key makes is
closed to headers, and open to dotted keys.
-/

namespace PathRules.Toml

/-- What brought a table about. -/
inductive Origin where
  /-- A header names it. -/
  | header
  /-- It is on the way to a table that a header names. -/
  | implied
  /-- A dotted key leads through it. -/
  | dotted
  deriving DecidableEq, Repr

/-- What stands under a key while a document is read. -/
inductive Draft where
  | value (value : Value)
  | table (origin : Origin) (entries : List (Text × Draft))
  /-- An array of tables, the latest first. -/
  | rows (tables : List (List (Text × Draft)))

namespace Draft

/-- The entries of a table, the latest first. -/
abbrev Entries := List (Text × Draft)

/-- The entries with another draft under a key that is there. -/
def replace (entries : Entries) (key : Text) (draft : Draft) : Entries :=
  entries.map fun entry => if entry.1 = key then (key, draft) else entry

/-- Changes the table that the keys lead to. Missing tables are made, and of an array of tables the
latest one is meant. A dotted key does not lead through a table that a header names. -/
def change (dotted : Bool) (f : Origin → Entries → Option Entries) :
    List Text → Origin → Entries → Option Entries
  | [], origin, entries => f origin entries
  | key :: keys, _, entries =>
    match entries.lookup key with
    | none => do
      let origin := if dotted then .dotted else .implied
      let inner ← change dotted f keys origin []
      pure ((key, .table origin inner) :: entries)
    | some (.table origin inner) =>
      if dotted && origin == .header then none
      else do
        let inner ← change dotted f keys origin inner
        pure (replace entries key (.table origin inner))
    | some (.rows (latest :: earlier)) => do
      let latest ← change dotted f keys .header latest
      pure (replace entries key (.rows (latest :: earlier)))
    | some (.rows []) => none
    | some (.value _) => none

/-- Sets a value in the table at hand. A dotted key sets it in a table that dotted keys made. -/
def assign (path : List Text) (key : Text) (value : Value) (origin : Origin) (entries : Entries) :
    Option Entries :=
  change true (fun origin entries =>
    if (origin == .dotted) == path.isEmpty then none
    else match entries.lookup key with
      | some _ => none
      | none => some ((key, .value value) :: entries)) path origin entries

/-- Opens the table of a header `[path.key]`. It comes last in the table that holds it. -/
def openTable (path : List Text) (key : Text) (entries : Entries) : Option Entries :=
  change false (fun _ entries =>
    match entries.lookup key with
    | none => some ((key, .table .header []) :: entries)
    | some (.table .implied inner) =>
      some ((key, .table .header inner) :: entries.filter (·.1 ≠ key))
    | some _ => none) path .header entries

/-- Opens one more table of the array of a header `[[path.key]]`. -/
def openRow (path : List Text) (key : Text) (entries : Entries) : Option Entries :=
  change false (fun _ entries =>
    match entries.lookup key with
    | none => some ((key, .rows [[]]) :: entries)
    | some (.rows tables) => some (replace entries key (.rows ([] :: tables)))
    | some _ => none) path .header entries

def assignBelow (header path : List Text) (key : Text) (value : Value) (entries : Entries) :
    Option Entries :=
  change false (assign path key value) header .header entries

/-! ### Finished values -/

mutual

def toValue : Draft → Value
  | .value final => final
  | .table _ entries => .table (toTableBefore [] entries)
  | .rows tables => .array (toTablesBefore [] tables)

/-- The finished entries, the earliest first, and then those of a table. -/
def toTableBefore (later : Table) : List (Text × Draft) → Table
  | [] => later
  | (key, draft) :: earlier => toTableBefore ((key, toValue draft) :: later) earlier

/-- The finished tables, the earliest first, and then other values. -/
def toTablesBefore (later : List Value) : List (List (Text × Draft)) → List Value
  | [] => later
  | entries :: earlier => toTablesBefore (.table (toTableBefore [] entries) :: later) earlier

end

/-- The finished table, in the order in which its entries came. -/
def toTable (entries : Entries) : Table := toTableBefore [] entries

end Draft
end PathRules.Toml
