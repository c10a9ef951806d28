import PathRules.Text

/-!
# TOML values

A table lists each key once, in the order of the document while it is read and in the order of
the keys once it is settled. Floats and dates are kept by their parts: nothing here computes with
them.
-/

namespace PathRules.Toml

/-! ### Floats -/

/-- A float in digits: its sign, its digits, and the power of ten that they are taken times. -/
structure Decimal where
  negative : Bool
  digits : Text
  exponent : Int
  deriving DecidableEq, Repr

inductive FloatValue where
  | decimal (value : Decimal)
  | infinity (negative : Bool)
  | notANumber (negative : Bool)
  deriving DecidableEq, Repr

/-! ### Dates and times -/

structure Date where
  year : Nat
  month : Nat
  day : Nat
  deriving DecidableEq, Repr

/-- A time of the day, with the digits of the fraction of its second. -/
structure Time where
  hour : Nat
  minute : Nat
  second : Nat
  fraction : Text
  deriving DecidableEq, Repr

inductive Offset where
  /-- Universal time itself. -/
  | universal
  | ahead (hour minute : Nat)
  | behind (hour minute : Nat)
  deriving DecidableEq, Repr

/-- A date, a time, or both, and then perhaps with their distance from universal time. -/
inductive Datetime where
  | date (date : Date)
  | time (time : Time)
  | both (date : Date) (time : Time) (offset : Option Offset)
  deriving DecidableEq, Repr

/-! ### Values -/

inductive Value where
  | string (text : Text)
  | integer (value : Int)
  | float (value : FloatValue)
  | boolean (value : Bool)
  | datetime (value : Datetime)
  | array (items : List Value)
  | table (entries : List (Text × Value))

abbrev Table := List (Text × Value)

namespace Table

def sort (table : Table) : Table := table.mergeSort fun a b => Text.le a.1 b.1

def get? (table : Table) (key : Text) : Option Value := table.lookup key

end Table

/-! ### Comparing values -/

namespace Value

mutual

def same : Value → Value → Bool
  | .string a, .string b => a == b
  | .integer a, .integer b => a == b
  | .float a, .float b => a == b
  | .boolean a, .boolean b => a == b
  | .datetime a, .datetime b => a == b
  | .array a, .array b => sameItems a b
  | .table a, .table b => sameEntries a b
  | _, _ => false

def sameItems : List Value → List Value → Bool
  | [], [] => true
  | a :: as, b :: bs => same a b && sameItems as bs
  | _, _ => false

def sameEntries : List (Text × Value) → List (Text × Value) → Bool
  | [], [] => true
  | (key, a) :: as, (other, b) :: bs => key == other && same a b && sameEntries as bs
  | _, _ => false

end

mutual

theorem same_iff : ∀ a b : Value, same a b = true ↔ a = b
  | .string a, b | .integer a, b | .float a, b | .boolean a, b | .datetime a, b => by
    cases b <;> simp [same]
  | .array a, b => by cases b <;> simp [same, sameItems_iff]
  | .table a, b => by cases b <;> simp [same, sameEntries_iff]

theorem sameItems_iff : ∀ as bs : List Value, sameItems as bs = true ↔ as = bs
  | [], bs => by cases bs <;> simp [sameItems]
  | a :: as, bs => by cases bs <;> simp [sameItems, same_iff a, sameItems_iff as]

theorem sameEntries_iff : ∀ as bs : List (Text × Value), sameEntries as bs = true ↔ as = bs
  | [], bs => by cases bs <;> simp [sameEntries]
  | (key, a) :: as, bs => by
    cases bs <;> simp [sameEntries, Prod.ext_iff, same_iff a, sameEntries_iff as]

end

instance : DecidableEq Value := fun a b => decidable_of_iff _ (same_iff a b)

end Value
end PathRules.Toml
