import PathRules.Proofs.Config.Settings
import PathRules.Proofs.Toml.Settling
import Mathlib.Data.List.TakeWhile

/-!
# Reading a rules table

The entries of a rules table are read in the order of their keys. What comes before the first wrong
entry gives the warnings (`readRules_append`), and the wrong entry gives the error.
`readLocation_gives` says so of whatever is under `rules`, and `RulesGive.result_of_same` that
unknown keys have no part in the result.
-/

namespace PathRules.Config

/-! ### Rules tables -/

/-- The keys of a rules table that mean something. -/
def rulesKeys : List Text := [Text.of "dir", Text.of "extension"]

/-- An entry of a rules table is wrong, and what is wrong with it. -/
inductive Offends : Text → Toml.Value → ConfigProblem → Prop where
  | notString {key : Text} {value : Toml.Value} :
      key ∈ rulesKeys → (∀ text, value ≠ .string text) → Offends key value (.notString key)
  | onlyDots {text : Text} :
      (∀ c ∈ text, c = '.') → Offends (Text.of "extension") (.string text) .emptyExtension

theorem Offends.known {key : Text} {value : Toml.Value} {problem : ConfigProblem}
    (offends : Offends key value problem) : key ∈ rulesKeys := by
  cases offends with
  | notString known _ => exact known
  | onlyDots _ => exact List.mem_cons_of_mem _ List.mem_cons_self

theorem Offends.unique {key : Text} {value : Toml.Value} {problem other : ConfigProblem}
    (offends : Offends key value problem) (also : Offends key value other) : problem = other := by
  cases offends with
  | notString _ wrong =>
    cases also with
    | notString _ _ => rfl
    | onlyDots _ => exact absurd rfl (wrong _)
  | onlyDots _ =>
    cases also with
    | notString _ wrong => exact absurd rfl (wrong _)
    | onlyDots _ => rfl

/-- No entry is wrong. -/
def Sound (entries : Toml.Table) : Prop :=
  ∀ entry ∈ entries, ∀ problem, ¬ Offends entry.1 entry.2 problem

theorem stripDots_eq_nil_iff {text : Text} :
    RulesLocation.stripDots text = [] ↔ ∀ c ∈ text, c = '.' := by
  simp [RulesLocation.stripDots, List.dropWhile_eq_nil_iff]

section Entries

variable {key : Text} {value : Toml.Value}

theorem readRules_cons_of_unknown (unknown : key ∉ rulesKeys) (value : Toml.Value)
    (start : RulesLocation) (rest : Toml.Table) :
    readRules start ((key, value) :: rest) =
      ⟨(Text.of "rules." ++ key) :: (readRules start rest).unknownKeys,
        (readRules start rest).result⟩ := by
  have notDir : key ≠ Text.of "dir" := fun same => unknown (same ▸ List.mem_cons_self)
  have notExtension : key ≠ Text.of "extension" :=
    fun same => unknown (same ▸ List.mem_cons_of_mem _ List.mem_cons_self)
  conv_lhs => unfold readRules
  rw [if_neg notDir, if_neg notExtension]

theorem readRules_cons_of_offends {problem : ConfigProblem} (offends : Offends key value problem)
    (start : RulesLocation) (rest : Toml.Table) :
    readRules start ((key, value) :: rest) = ⟨[], .error problem⟩ := by
  unfold readRules
  cases offends with
  | notString known wrong =>
    rcases List.mem_pair.mp known with rfl | rfl
    · rw [if_pos rfl]
      cases value with
      | string text => exact absurd rfl (wrong text)
      | _ => rfl
    · rw [if_neg dir_ne_extension.symm, if_pos rfl]
      cases value with
      | string text => exact absurd rfl (wrong text)
      | _ => rfl
  | onlyDots dots =>
    rw [if_neg dir_ne_extension.symm, if_pos rfl]
    dsimp only
    rw [RulesLocation.normalizeExtension_eq_none.mpr (stripDots_eq_nil_iff.mpr dots)]

/-- An entry that is known and not wrong sets something, and the others are read as before. -/
theorem readRules_cons_of_known (known : key ∈ rulesKeys)
    (sound : ∀ problem, ¬ Offends key value problem) (start : RulesLocation) :
    ∃ next, ∀ rest, readRules start ((key, value) :: rest) = readRules next rest := by
  cases value with
  | string text =>
    rcases List.mem_pair.mp known with rfl | rfl
    · refine ⟨{ start with dir := text }, fun rest => ?_⟩
      conv_lhs => unfold readRules
      rw [if_pos rfl]
    · have named : RulesLocation.stripDots text ≠ [] :=
        fun dots => sound _ (.onlyDots (stripDots_eq_nil_iff.mp dots))
      refine ⟨{ start with extension := RulesLocation.stripDots text }, fun rest => ?_⟩
      conv_lhs => unfold readRules
      rw [if_neg dir_ne_extension.symm, if_pos rfl]
      dsimp only
      rw [RulesLocation.normalizeExtension_eq_some.mpr ⟨rfl, named⟩]
  | _ =>
    refine absurd (.notString known fun text same => ?_) (sound _)
    cases same

end Entries

/-- Reading goes through entries with nothing wrong, and comes upon the unknown keys among them. -/
theorem readRules_append {before : Toml.Table} (sound : Sound before) (start : RulesLocation) :
    ∃ next, ∀ after, readRules start (before ++ after) =
      ⟨(before.keys.filter (· ∉ rulesKeys)).map (Text.of "rules." ++ ·) ++
        (readRules next after).unknownKeys, (readRules next after).result⟩ := by
  -- A known entry moves the start for the others, an unknown one only adds its key.
  induction before generalizing start with
  | nil => exact ⟨start, fun after => rfl⟩
  | cons entry before ih =>
    obtain ⟨key, value⟩ := entry
    obtain ⟨here, others⟩ := List.forall_mem_cons.mp sound
    have keys : Toml.Table.keys ((key, value) :: before) = key :: Toml.Table.keys before := rfl
    by_cases known : key ∈ rulesKeys
    · obtain ⟨moved, step⟩ := readRules_cons_of_known known here start
      obtain ⟨next, run⟩ := ih others moved
      refine ⟨next, fun after => ?_⟩
      rw [List.cons_append, step, run, keys, List.filter_cons_of_neg (by simpa using known)]
    · obtain ⟨next, run⟩ := ih others start
      refine ⟨next, fun after => ?_⟩
      rw [List.cons_append, readRules_cons_of_unknown known, run, keys,
        List.filter_cons_of_pos (by simpa using known)]
      rfl

theorem exists_first_failing {α : Type} {P : α → Prop} {entries : List α}
    (wrong : ¬ ∀ entry ∈ entries, P entry) :
    ∃ before first after, entries = before ++ first :: after ∧
      (∀ entry ∈ before, P entry) ∧ ¬ P first := by
  induction entries with
  | nil => simp at wrong
  | cons entry entries ih =>
    by_cases holds : P entry
    · have later : ¬ ∀ other ∈ entries, P other :=
        fun others => wrong (List.forall_mem_cons.mpr ⟨holds, others⟩)
      obtain ⟨before, first, after, rfl, passed, fails⟩ := ih later
      exact ⟨entry :: before, first, after, rfl, List.forall_mem_cons.mpr ⟨holds, passed⟩, fails⟩
    · exact ⟨[], entry, entries, rfl, by simp, holds⟩

theorem exists_first_offending {entries : Toml.Table} (wrong : ¬ Sound entries) :
    ∃ before key value problem after, entries = before ++ (key, value) :: after ∧
      Offends key value problem ∧ Sound before := by
  obtain ⟨before, entry, after, same, sound, first⟩ := exists_first_failing wrong
  obtain ⟨problem, offends⟩ := Classical.not_forall_not.mp first
  exact ⟨before, entry.1, entry.2, problem, after, same, offends, sound⟩

/-! ### What a rules table gives -/

/-- The texts with a property, each once, in the order of their bytes. -/
structure Lists (texts : List Text) (property : Text → Prop) : Prop where
  ascending : Text.Ascending texts
  mem_iff : ∀ text, text ∈ texts ↔ property text

theorem Lists.filter {keys : List Text} (ascending : Text.Ascending keys) (p : Text → Bool) :
    Lists (keys.filter p) fun key => key ∈ keys ∧ p key = true :=
  ⟨ascending.sublist List.filter_sublist, fun _ => List.mem_filter⟩

/-- What is under `rules`, and what reading it gives. The wrong entry of the least key decides, and
only unknown keys below this one are come upon. -/
inductive RulesGive : Option Toml.Value → Reading RulesLocation → Prop where
  | absent : RulesGive none ⟨[], .ok .standard⟩
  | notTable {value : Toml.Value} :
      (∀ rules, value ≠ .table rules) → RulesGive (some value) ⟨[], .error .rulesNotTable⟩
  | sound {rules : Toml.Table} {unknown : List Text} {dir extension : Option Text} :
      Sound rules →
      Lists unknown (fun key => key ∈ rules.keys ∧ key ∉ rulesKeys) →
      rules.get? (Text.of "dir") = dir.map .string →
      rules.get? (Text.of "extension") = extension.map .string →
      RulesGive (some (.table rules)) ⟨unknown.map (Text.of "rules." ++ ·),
        .ok ⟨dir.getD RulesLocation.standard.dir,
          (extension.map RulesLocation.stripDots).getD RulesLocation.standard.extension⟩⟩
  | offending {rules : Toml.Table} {unknown : List Text} {key : Text} {value : Toml.Value}
      {problem : ConfigProblem} :
      rules.get? key = some value → Offends key value problem →
      (∀ other value problem, rules.get? other = some value → Offends other value problem →
        ¬ Text.bytes other < Text.bytes key) →
      Lists unknown (fun other =>
        other ∈ rules.keys ∧ other ∉ rulesKeys ∧ Text.bytes other < Text.bytes key) →
      RulesGive (some (.table rules)) ⟨unknown.map (Text.of "rules." ++ ·), .error problem⟩

section Gives

variable {rules : Toml.Table}

theorem lastUnder_eq_get? (once : rules.keys.Nodup) (key : Text) :
    lastUnder rules key = rules.get? key :=
  (lookup_perm once (List.reverse_perm rules).symm key).symm

theorem readRules_of_sound (ascending : Text.Ascending rules.keys) (sound : Sound rules) :
    RulesGive (some (.table rules)) (readRules .standard rules) := by
  obtain ⟨next, run⟩ := readRules_append sound .standard
  have whole := run []
  rw [List.append_nil, readRules, List.append_nil] at whole
  obtain ⟨dir, extension, ⟨dir_entry, ⟨written, extension_entry, rfl⟩, _⟩, rfl⟩ :=
    readRules_ok (congrArg Reading.result whole)
  rw [lastUnder_eq_get? ascending.nodup] at dir_entry extension_entry
  rw [whole]
  refine .sound sound ?_ dir_entry extension_entry
  simpa using Lists.filter ascending (· ∉ rulesKeys)

theorem readRules_of_offending {before after : Toml.Table} {key : Text} {value : Toml.Value}
    {problem : ConfigProblem} (same : rules = before ++ (key, value) :: after)
    (ascending : Text.Ascending rules.keys) (offends : Offends key value problem)
    (sound : Sound before) : RulesGive (some (.table rules)) (readRules .standard rules) := by
  have keys : rules.keys = Toml.Table.keys before ++ key :: Toml.Table.keys after := by
    rw [same, Toml.Table.keys, List.map_append, List.map_cons]
    rfl
  -- The keys ascend, so what stands before the wrong entry is what has a lower key.
  have lower := Text.Ascending.mem_before (keys ▸ ascending)
  have entry_iff {other : Text} {value : Toml.Value} :
      rules.get? other = some value ↔ (other, value) ∈ rules :=
    lookup_eq_some_iff_mem ascending.nodup
  obtain ⟨next, run⟩ := readRules_append sound .standard
  have whole := run ((key, value) :: after)
  rw [← same, readRules_cons_of_offends offends, List.append_nil] at whole
  rw [whole]
  refine .offending (entry_iff.mpr (by simp [same])) offends ?_ ?_
  · intro other value problem found wrong less
    have listed : other ∈ rules.keys := List.mem_map.mpr ⟨_, entry_iff.mp found, rfl⟩
    obtain ⟨entry, earlier, rfl⟩ := List.mem_map.mp ((lower other).mpr ⟨keys ▸ listed, less⟩)
    have also : rules.get? entry.1 = some entry.2 :=
      entry_iff.mpr (same ▸ List.mem_append_left _ earlier)
    obtain rfl := Option.some.inj (found.symm.trans also)
    exact sound entry earlier problem wrong
  · have filtered := Lists.filter (List.pairwise_append.mp (keys ▸ ascending)).1 (· ∉ rulesKeys)
    refine ⟨filtered.ascending, fun other => ?_⟩
    rw [filtered.mem_iff, lower, keys, decide_eq_true_iff, and_assoc]
    exact and_congr_right fun _ => and_comm

end Gives

theorem readLocation_gives {value : Option Toml.Value}
    (ascending : ∀ rules : Toml.Table, value = some (.table rules) → Text.Ascending rules.keys) :
    RulesGive value (readLocation value) := by
  unfold readLocation
  split
  · exact .absent
  · next rules =>
    by_cases sound : Sound rules
    · exact readRules_of_sound (ascending rules rfl) sound
    · obtain ⟨before, key, value, problem, after, same, offends, sound⟩ :=
        exists_first_offending sound
      exact readRules_of_offending same (ascending rules rfl) offends sound
  · next value notTable => exact .notTable fun rules same => notTable rules same

/-! ### Tables that differ in unknown keys -/

/-- The same is under `rules`, unknown keys of a table there apart. -/
inductive SameRules : Option Toml.Value → Option Toml.Value → Prop where
  | same (value : Option Toml.Value) : SameRules value value
  | tables {rules others : Toml.Table} :
      (∀ key ∈ rulesKeys, rules.get? key = others.get? key) →
      SameRules (some (.table rules)) (some (.table others))

namespace RulesGive

variable {reading other : Reading RulesLocation}

theorem result_of_agree {rules others : Toml.Table}
    (gives : RulesGive (some (.table rules)) reading)
    (also : RulesGive (some (.table others)) other)
    (agree : ∀ key ∈ rulesKeys, rules.get? key = others.get? key) :
    reading.result = other.result := by
  cases gives with
  | notTable notTable => exact absurd rfl (notTable rules)
  | @sound _ _ dir extension sound _ dir_entry extension_entry =>
    cases also with
    | notTable notTable => exact absurd rfl (notTable others)
    | @sound _ _ dirOthers extensionOthers _ _ dir_others extension_others =>
      have sameDir : dir.map Toml.Value.string = dirOthers.map .string := by
        rw [← dir_entry, ← dir_others]
        exact agree _ List.mem_cons_self
      have sameExtension : extension.map Toml.Value.string = extensionOthers.map .string := by
        rw [← extension_entry, ← extension_others]
        exact agree _ (List.mem_cons_of_mem _ List.mem_cons_self)
      have injective : Function.Injective Toml.Value.string := fun _ _ => Toml.Value.string.inj
      rw [Option.map_injective injective sameDir, Option.map_injective injective sameExtension]
    | @offending _ _ key _ problem found offends _ _ =>
      rw [← agree key offends.known] at found
      exact absurd offends (sound _ (mem_of_lookup found) problem)
  | @offending _ _ key value problem found offends least _ =>
    have foundOthers := (agree key offends.known).symm.trans found
    cases also with
    | notTable notTable => exact absurd rfl (notTable others)
    | sound sound _ _ _ => exact absurd offends (sound _ (mem_of_lookup foundOthers) problem)
    | @offending _ _ key' value' problem' found' offends' least' _ =>
      -- Both keys are wrong in both tables, so neither is below the other.
      have notBelow :=
        least key' value' problem' ((agree key' offends'.known).trans found') offends'
      have notAbove := least' key value problem foundOthers offends
      rw [Text.bytes_lt_iff] at notBelow notAbove
      obtain rfl : key = key' := le_antisymm (not_lt.mp notBelow) (not_lt.mp notAbove)
      obtain rfl := Option.some.inj (foundOthers.symm.trans found')
      rw [offends.unique offends']

theorem result_of_same {value value' : Option Toml.Value} (gives : RulesGive value reading)
    (also : RulesGive value' other) (same : SameRules value value') :
    reading.result = other.result := by
  cases same with
  | tables agree => exact result_of_agree gives also agree
  | same =>
    by_cases isTable : ∃ rules, value = some (.table rules)
    · obtain ⟨rules, rfl⟩ := isTable
      exact result_of_agree gives also fun _ _ => rfl
    cases gives with
    | absent =>
      cases also
      rfl
    | notTable _ =>
      cases also with
      | notTable _ => rfl
      | sound _ _ _ _ => exact absurd ⟨_, rfl⟩ isTable
      | offending _ _ _ _ => exact absurd ⟨_, rfl⟩ isTable
    | sound _ _ _ _ => exact absurd ⟨_, rfl⟩ isTable
    | offending _ _ _ _ => exact absurd ⟨_, rfl⟩ isTable

end RulesGive
end PathRules.Config
