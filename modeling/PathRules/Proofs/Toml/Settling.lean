import PathRules.Proofs.Text.ByteOrder
import PathRules.Proofs.Toml.Keys
import PathRules.Toml.Settled
import Mathlib.Data.List.Forall2

/-!
# Keys of settled tables

A settled table has the keys of the written one, in byte order (`ascending_settle`). No key is
listed twice, so the order has no part in what is found under a key (`get?_sort`).
-/

namespace PathRules.Toml

namespace Table

variable {table : Table}

theorem keys_sort (table : Table) : (sort table).keys = table.keys.mergeSort Text.le :=
  List.map_mergeSort fun _ _ _ _ => rfl

theorem ascending_sort (once : table.keys.Nodup) : Text.Ascending (sort table).keys := by
  rw [keys_sort]
  exact Text.pairwise_bytes_mergeSort once

theorem get?_sort (once : table.keys.Nodup) (key : Text) : (sort table).get? key = table.get? key :=
  (lookup_perm once (List.mergeSort_perm table _).symm key).symm

theorem sort_of_sorted (sorted : table.Pairwise fun a b => Text.le a.1 b.1 = true) :
    sort table = table := List.mergeSort_of_pairwise sorted

/-- A table stands for nothing but a date. -/
theorem date?_eq_some {exact : Bool} {value : Value} (dated : date? exact table = some value) :
    ∃ date, value = .datetime date := by
  unfold date? at dated
  split at dated
  · split at dated
    · cases dated
    · obtain ⟨date, _, rfl⟩ := Option.map_eq_some_iff.mp dated
      exact ⟨date, rfl⟩
  · cases dated

end Table

/-! ### Entries -/

/-- An entry as it is written, and as it is settled. The key may decide whether a date is exact. -/
def Settles (exact : Text → Bool) (entry final : Text × Value) : Prop :=
  final.1 = entry.1 ∧ entry.2.settle (exact entry.1) = some final.2

theorem mapM_eq_some_iff {α β : Type} {f : α → Option β} {items : List α} {values : List β} :
    items.mapM f = some values ↔
      List.Forall₂ (fun item value => f item = some value) items values := by
  induction items generalizing values with
  | nil => simp [eq_comm]
  | cons item items ih =>
    rw [List.mapM_cons, List.forall₂_cons_left_iff]
    simp only [Option.bind_eq_bind, Option.bind_eq_some_iff, Option.pure_def, Option.some.injEq, ih]
    constructor
    · rintro ⟨value, first, values, others, rfl⟩
      exact ⟨value, values, first, others, rfl⟩
    · rintro ⟨value, values, first, others, rfl⟩
      exact ⟨value, first, values, others, rfl⟩

section Settles

variable {exact : Text → Bool} {entries finals : Table}

theorem keys_of_settles (each : List.Forall₂ (Settles exact) entries finals) :
    finals.keys = entries.keys := by
  induction each with
  | nil => rfl
  | cons first _ ih => exact congrArg₂ List.cons first.1 ih

theorem get?_of_settles (each : List.Forall₂ (Settles exact) entries finals) (key : Text) :
    Option.Rel (fun value final => value.settle (exact key) = some final)
      (entries.get? key) (finals.get? key) := by
  unfold Table.get?
  induction each with
  | nil => exact .none
  | @cons entry final entries finals first _ ih =>
    obtain ⟨_, value⟩ := entry
    obtain ⟨other, settled⟩ := final
    obtain ⟨rfl, done⟩ := first
    by_cases same : key = other
    · subst same
      rw [List.lookup_cons_self, List.lookup_cons_self]
      exact .some done
    · rw [List.lookup_cons, List.lookup_cons, beq_eq_false_iff_ne.mpr same]
      exact ih

end Settles

namespace Value

variable {exact : Bool} {value : Value}

theorem forall₂_settleEntries {entries finals : Table}
    (settled : settleEntries exact entries = some finals) :
    List.Forall₂ (Settles fun _ => exact) entries finals := by
  induction entries generalizing finals with
  | nil =>
    cases settled
    exact .nil
  | cons entry entries ih =>
    obtain ⟨key, value⟩ := entry
    rw [settleEntries] at settled
    obtain ⟨final, first, settled⟩ := Option.bind_eq_some_iff.mp settled
    obtain ⟨rest, others, same⟩ := Option.bind_eq_some_iff.mp settled
    cases same
    exact .cons ⟨rfl, first⟩ (ih others)

theorem settle_table {entries : Table} {final : Value}
    (settled : settle exact (.table entries) = some final) :
    (∃ date, final = .datetime date) ∨
      ∃ finals, settleEntries exact entries = some finals ∧ final = .table (Table.sort finals) := by
  rw [settle] at settled
  split at settled
  · exact .inl (Table.date?_eq_some settled)
  · obtain ⟨finals, each, rfl⟩ := Option.map_eq_some_iff.mp settled
    exact .inr ⟨finals, each, rfl⟩

theorem settle_array {items : List Value} {final : Value}
    (settled : settle exact (.array items) = some final) : ∃ finals, final = .array finals := by
  rw [settle] at settled
  obtain ⟨finals, _, rfl⟩ := Option.map_eq_some_iff.mp settled
  exact ⟨finals, rfl⟩

/-- A value that settles to a table is a table, and its entries are settled and put in order. -/
theorem settle_eq_table {table : Table} (settled : value.settle exact = some (.table table)) :
    ∃ entries finals, value = .table entries ∧
      List.Forall₂ (Settles fun _ => exact) entries finals ∧ table = Table.sort finals := by
  cases value with
  | table entries =>
    rcases settle_table settled with ⟨_, same⟩ | ⟨finals, each, same⟩
    · cases same
    · cases same
      exact ⟨entries, finals, rfl, forall₂_settleEntries each, rfl⟩
  | array items =>
    obtain ⟨_, same⟩ := settle_array settled
    cases same
  | _ => simp [settle] at settled

theorem settle_table_of_sorted {entries finals : Table}
    (undated : Table.standsForDate entries = false)
    (each : settleEntries exact entries = some finals)
    (sorted : finals.Pairwise fun a b => Text.le a.1 b.1 = true) :
    settle exact (.table entries) = some (.table finals) := by
  rw [settle, undated, if_neg Bool.false_ne_true, each, Option.map_some,
    Table.sort_of_sorted sorted]

theorem ascending_settle {table : Table} (settled : value.settle exact = some (.table table))
    (distinct : value.Distinct) :
    Text.Ascending table.keys := by
  obtain ⟨entries, finals, rfl, each, rfl⟩ := settle_eq_table settled
  refine Table.ascending_sort ?_
  rw [keys_of_settles each]
  exact distinct.keys

theorem settle_eq_integer_iff {number : Int} :
    value.settle exact = some (.integer number) ↔ value = .integer number := by
  constructor
  · intro settled
    cases value with
    | table entries =>
      rcases settle_table settled with ⟨_, same⟩ | ⟨_, _, same⟩ <;> cases same
    | array items =>
      obtain ⟨_, same⟩ := settle_array settled
      cases same
    | integer other => simpa [settle] using settled
    | _ => simp [settle] at settled
  · rintro rfl
    simp [settle]

end Value
end PathRules.Toml
