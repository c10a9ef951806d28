import PathRules.Toml.Number
import PathRules.Toml.Value

/-!
# Settled values

A table whose first key is the date key stands for the date that the string under the key
writes. A value is settled when all such tables are replaced by their dates and the other tables
are in the order of their keys; a value in which one of them writes no date cannot be settled.
-/

namespace PathRules.Toml

/-- The key that makes a table stand for a date, if it is the first one. -/
def dateKey : Text := Text.of "$__toml_private_datetime"

namespace Table

def standsForDate (table : Table) : Bool := table.head?.any (·.1 == dateKey)

/-- The date that a table stands for. If it is to be exact, nothing may follow the date. -/
def date? (exact : Bool) : Table → Option Value
  | (_, .string text) :: rest =>
    if exact && !rest.isEmpty then none else (datetime? text).map .datetime
  | _ => none

end Table

namespace Value

mutual

def settle (exact : Bool) : Value → Option Value
  | .array items => (settleItems exact items).map .array
  | .table entries =>
    if Table.standsForDate entries then Table.date? exact entries
    else (settleEntries exact entries).map fun table => .table (Table.sort table)
  | final => some final

def settleItems (exact : Bool) : List Value → Option (List Value)
  | [] => some []
  | item :: rest => do
    let item ← settle exact item
    pure (item :: (← settleItems exact rest))

/-- The entries with their values settled, in the same order. -/
def settleEntries (exact : Bool) : List (Text × Value) → Option Table
  | [] => some []
  | (key, value) :: rest => do
    let value ← settle exact value
    pure ((key, value) :: (← settleEntries exact rest))

end

end Value
end PathRules.Toml
