import PathRules.Text
import Mathlib.Data.List.Nodup

/-!
# Entries under names

Entries that are listed with a key each, such as a text, and looked up by it. If no key is listed
twice, the order of the entries has no part in what is found (`lookup_perm`).
-/

namespace PathRules

variable {κ α : Type} [BEq κ] [LawfulBEq κ]

theorem not_mem_keys {entries : List (κ × α)} {key : κ}
    (absent : entries.lookup key = none) : key ∉ entries.map Prod.fst := by
  intro member
  obtain ⟨entry, listed, rfl⟩ := List.mem_map.mp member
  have other := List.lookup_eq_none_iff.mp absent entry listed
  simp at other

theorem mem_of_lookup {entries : List (κ × α)} {key : κ} {value : α}
    (found : entries.lookup key = some value) : (key, value) ∈ entries := by
  obtain ⟨before, after, rfl, _⟩ := List.lookup_eq_some_iff.mp found
  simp

theorem lookup_eq_some_iff_mem {entries : List (κ × α)}
    (once : (entries.map Prod.fst).Nodup) {key : κ} {value : α} :
    entries.lookup key = some value ↔ (key, value) ∈ entries := by
  refine ⟨mem_of_lookup, fun member => ?_⟩
  induction entries with
  | nil => cases member
  | cons entry entries ih =>
    obtain ⟨other, kept⟩ := entry
    obtain ⟨new, once⟩ := List.nodup_cons.mp once
    rcases List.mem_cons.mp member with same | later
    · cases same
      exact List.lookup_cons_self
    · have different : (key == other) = false := by
        rw [beq_eq_false_iff_ne]
        rintro rfl
        exact new (List.mem_map.mpr ⟨(key, value), later, rfl⟩)
      rw [List.lookup_cons, different]
      exact ih once later

theorem lookup_perm {entries others : List (κ × α)}
    (once : (entries.map Prod.fst).Nodup) (same : entries.Perm others) (key : κ) :
    entries.lookup key = others.lookup key := by
  have once_others := (same.map Prod.fst).nodup_iff.mp once
  ext value
  rw [lookup_eq_some_iff_mem once, lookup_eq_some_iff_mem once_others, same.mem_iff]

theorem mem_keys_iff {entries : List (κ × α)} {key : κ} :
    key ∈ entries.map Prod.fst ↔ ∃ value, entries.lookup key = some value := by
  constructor
  · intro member
    cases found : entries.lookup key with
    | some value => exact ⟨value, rfl⟩
    | none => exact absurd member (not_mem_keys found)
  · rintro ⟨value, found⟩
    exact List.mem_map.mpr ⟨_, mem_of_lookup found, rfl⟩

end PathRules
