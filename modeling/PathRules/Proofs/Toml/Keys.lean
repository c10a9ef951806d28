import PathRules.Proofs.Outcomes
import PathRules.Proofs.Text.Keyed
import PathRules.Toml.Document

/-!
# Keys of a document

A document lists each key of a table once, at any depth. What is added to a draft keeps this
(`change_keeps`), and so `parse_distinct` says it of the finished table.
-/

namespace PathRules.Toml

def Table.keys (table : Table) : List Text := table.map Prod.fst

/-- Each table in the value lists each key once. -/
inductive Value.Distinct : Value → Prop where
  | string (text : Text) : Distinct (.string text)
  | integer (value : Int) : Distinct (.integer value)
  | float (value : FloatValue) : Distinct (.float value)
  | boolean (value : Bool) : Distinct (.boolean value)
  | datetime (value : Datetime) : Distinct (.datetime value)
  | array {items : List Value} : (∀ item ∈ items, Distinct item) → Distinct (.array items)
  | table {entries : List (Text × Value)} : (Table.keys entries).Nodup →
      (∀ entry ∈ entries, Distinct entry.2) → Distinct (.table entries)

theorem Value.Distinct.keys {table : Table} (distinct : Value.Distinct (.table table)) :
    table.keys.Nodup := by
  cases distinct with
  | table keys _ => exact keys

theorem Value.Distinct.of_get? {table : Table} {key : Text} {value : Value}
    (distinct : Value.Distinct (.table table)) (found : table.get? key = some value) :
    value.Distinct := by
  cases distinct with
  | table _ values => exact values _ (mem_of_lookup found)

/-! ### Drafts -/

namespace Draft

/-- Each table in the draft lists each key once. -/
inductive Distinct : Draft → Prop where
  | value {final : Value} : final.Distinct → Distinct (.value final)
  | table {origin : Origin} {entries : List (Text × Draft)} : (entries.map Prod.fst).Nodup →
      (∀ entry ∈ entries, Distinct entry.2) → Distinct (.table origin entries)
  | rows {tables : List (List (Text × Draft))} :
      (∀ entries ∈ tables, (entries.map Prod.fst).Nodup) →
      (∀ entries ∈ tables, ∀ entry ∈ entries, Distinct entry.2) → Distinct (.rows tables)

structure DistinctEntries (entries : Entries) : Prop where
  keys : (entries.map Prod.fst).Nodup
  drafts : ∀ entry ∈ entries, entry.2.Distinct

theorem distinct_table_iff {origin : Origin} {entries : Entries} :
    Distinct (.table origin entries) ↔ DistinctEntries entries := by
  constructor
  · rintro (_ | ⟨keys, drafts⟩)
    exact ⟨keys, drafts⟩
  · rintro ⟨keys, drafts⟩
    exact .table keys drafts

theorem distinct_rows_iff {tables : List Entries} :
    Distinct (.rows tables) ↔ ∀ entries ∈ tables, DistinctEntries entries := by
  constructor
  · rintro (_ | _ | ⟨keys, drafts⟩)
    exact fun entries member => ⟨keys entries member, drafts entries member⟩
  · intro distinct
    exact .rows (fun entries member => (distinct entries member).keys)
      fun entries member => (distinct entries member).drafts

namespace DistinctEntries

variable {entries : Entries} {key : Text} {draft : Draft}

theorem nil : DistinctEntries [] := ⟨List.nodup_nil, by simp⟩

theorem cons (distinct : DistinctEntries entries) (new : key ∉ entries.map Prod.fst)
    (added : draft.Distinct) : DistinctEntries ((key, draft) :: entries) :=
  ⟨List.nodup_cons.mpr ⟨new, distinct.keys⟩, List.forall_mem_cons.mpr ⟨added, distinct.drafts⟩⟩

theorem of_lookup (distinct : DistinctEntries entries) (found : entries.lookup key = some draft) :
    draft.Distinct := distinct.drafts _ (mem_of_lookup found)

theorem replace (distinct : DistinctEntries entries) (key : Text) (changed : draft.Distinct) :
    DistinctEntries (replace entries key draft) := by
  constructor
  · have same : (Draft.replace entries key draft).map Prod.fst = entries.map Prod.fst := by
      unfold Draft.replace
      rw [List.map_map]
      apply List.map_congr_left
      intro entry _
      by_cases here : entry.1 = key <;> simp [here]
    rw [same]
    exact distinct.keys
  · intro entry member
    obtain ⟨old, listed, rfl⟩ := List.mem_map.mp member
    split
    · exact changed
    · exact distinct.drafts old listed

theorem without (distinct : DistinctEntries entries) (key : Text) :
    key ∉ (entries.filter (·.1 ≠ key)).map Prod.fst ∧
      DistinctEntries (entries.filter (·.1 ≠ key)) := by
  refine ⟨by simp, ?_, fun entry member => distinct.drafts entry (List.mem_filter.mp member).1⟩
  exact distinct.keys.sublist (List.filter_sublist.map _)

end DistinctEntries

/-- Entries that list each key once do so after the change. -/
def Keeps (f : Origin → Entries → Option Entries) : Prop :=
  ∀ origin entries next, f origin entries = some next →
    DistinctEntries entries → DistinctEntries next

theorem change_keeps {f : Origin → Entries → Option Entries} (keeps : Keeps f) (dotted : Bool)
    (path : List Text) : Keeps (change dotted f path) := by
  induction path with
  | nil => exact keeps
  | cons key path ih =>
    intro origin entries next changed distinct
    unfold change at changed
    split at changed
    -- No table is there, and one is made.
    · next absent =>
      obtain ⟨inner, made, same⟩ := Option.bind_eq_some_iff.mp changed
      obtain rfl := Option.some.inj same
      have below := ih _ _ _ made .nil
      exact distinct.cons (not_mem_keys absent) (distinct_table_iff.mpr below)
    · next found =>
      split at changed
      · cases changed
      · obtain ⟨inner, made, same⟩ := Option.bind_eq_some_iff.mp changed
        obtain rfl := Option.some.inj same
        have below := ih _ _ _ made (distinct_table_iff.mp (distinct.of_lookup found))
        exact distinct.replace key (distinct_table_iff.mpr below)
    -- Of an array of tables only the latest one changes.
    · next latest earlier found =>
      obtain ⟨inner, made, same⟩ := Option.bind_eq_some_iff.mp changed
      obtain rfl := Option.some.inj same
      obtain ⟨last, others⟩ :=
        List.forall_mem_cons.mp (distinct_rows_iff.mp (distinct.of_lookup found))
      have below := ih _ _ _ made last
      exact distinct.replace key
        (distinct_rows_iff.mpr (List.forall_mem_cons.mpr ⟨below, others⟩))
    · cases changed
    · cases changed

theorem assign_keeps (path : List Text) (key : Text) {value : Value} (final : value.Distinct) :
    Keeps (assign path key value) := by
  apply change_keeps
  intro origin entries next set distinct
  dsimp only at set
  split at set
  · cases set
  split at set
  · cases set
  · next absent =>
    obtain rfl := Option.some.inj set
    exact distinct.cons (not_mem_keys absent) (.value final)

theorem assignBelow_keeps (header path : List Text) (key : Text) {value : Value}
    (final : value.Distinct) {entries next : Entries}
    (set : assignBelow header path key value entries = some next)
    (distinct : DistinctEntries entries) : DistinctEntries next :=
  change_keeps (assign_keeps path key final) false header _ _ _ set distinct

theorem openTable_keeps {path : List Text} {key : Text} {entries next : Entries}
    (opened : openTable path key entries = some next) (distinct : DistinctEntries entries) :
    DistinctEntries next := by
  refine change_keeps ?_ false path _ _ _ opened distinct
  intro origin entries next opened distinct
  dsimp only at opened
  split at opened
  · next absent =>
    obtain rfl := Option.some.inj opened
    exact distinct.cons (not_mem_keys absent) (distinct_table_iff.mpr .nil)
  · next inner found =>
    obtain rfl := Option.some.inj opened
    obtain ⟨new, rest⟩ := distinct.without key
    exact rest.cons new (distinct_table_iff.mpr (distinct_table_iff.mp (distinct.of_lookup found)))
  · cases opened

theorem openRow_keeps {path : List Text} {key : Text} {entries next : Entries}
    (opened : openRow path key entries = some next) (distinct : DistinctEntries entries) :
    DistinctEntries next := by
  refine change_keeps ?_ false path _ _ _ opened distinct
  intro origin entries next opened distinct
  dsimp only at opened
  split at opened
  · next absent =>
    obtain rfl := Option.some.inj opened
    exact distinct.cons (not_mem_keys absent)
      (distinct_rows_iff.mpr (List.forall_mem_singleton.mpr .nil))
  · next tables found =>
    obtain rfl := Option.some.inj opened
    have earlier := distinct_rows_iff.mp (distinct.of_lookup found)
    exact distinct.replace key
      (distinct_rows_iff.mpr (List.forall_mem_cons.mpr ⟨.nil, earlier⟩))
  · cases opened

/-! ### Finished values -/

theorem toTableBefore_eq (later : Table) (entries : Entries) :
    toTableBefore later entries =
      (entries.map fun entry => (entry.1, toValue entry.2)).reverse ++ later := by
  induction entries generalizing later with
  | nil => rfl
  | cons entry entries ih =>
    obtain ⟨key, draft⟩ := entry
    rw [toTableBefore, ih, List.map_cons, List.reverse_cons, List.append_assoc]
    rfl

theorem toTablesBefore_eq (later : List Value) (tables : List Entries) :
    toTablesBefore later tables =
      (tables.map fun entries => Value.table (toTableBefore [] entries)).reverse ++ later := by
  induction tables generalizing later with
  | nil => rfl
  | cons entries tables ih =>
    rw [toTablesBefore, ih, List.map_cons, List.reverse_cons, List.append_assoc]
    rfl

theorem distinct_toTableBefore {entries : Entries} (keys : (entries.map Prod.fst).Nodup)
    (values : ∀ entry ∈ entries, (toValue entry.2).Distinct) :
    Value.Distinct (.table (toTableBefore [] entries)) := by
  rw [toTableBefore_eq, List.append_nil]
  constructor
  · unfold Table.keys
    rw [List.map_reverse, List.map_map, List.nodup_reverse]
    exact keys
  · intro entry member
    obtain ⟨old, listed, rfl⟩ := List.mem_map.mp (List.mem_reverse.mp member)
    exact values old listed

theorem Distinct.toValue {draft : Draft} (distinct : draft.Distinct) : draft.toValue.Distinct := by
  induction distinct with
  | value final =>
    rw [Draft.toValue]
    exact final
  | table keys _ ih =>
    rw [Draft.toValue]
    exact distinct_toTableBefore keys ih
  | rows keys _ ih =>
    rw [Draft.toValue, toTablesBefore_eq, List.append_nil]
    constructor
    intro item member
    obtain ⟨entries, listed, rfl⟩ := List.mem_map.mp (List.mem_reverse.mp member)
    exact distinct_toTableBefore (keys entries listed) (ih entries listed)

theorem distinct_toTable {entries : Entries} (distinct : DistinctEntries entries) :
    Value.Distinct (.table (toTable entries)) :=
  distinct_toTableBefore distinct.keys fun entry member => (distinct.drafts entry member).toValue

end Draft

/-! ### Readings -/

/-- Whatever the reader takes from the front of a text has the property. -/
def Reader.Gives {α : Type} (reader : Reader α) (property : α → Prop) : Prop :=
  ∀ text value rest, reader text = some (value, rest) → property value

namespace Reader.Gives

variable {α β : Type} {property : α → Prop} {reader other : Reader α}

theorem anything (reader : Reader α) : reader.Gives fun _ => True := fun _ _ _ _ => trivial

theorem pure {value : α} (holds : property value) : Gives (pure value : Reader α) property := by
  intro text given rest read
  cases read
  exact holds

theorem refuse : Gives (Reader.refuse : Reader α) property := fun _ _ _ read => nomatch read

theorem bind {wanted : β → Prop} {next : α → Reader β} (first : reader.Gives property)
    (second : ∀ value, property value → (next value).Gives wanted) :
    Gives (reader >>= next) wanted := by
  intro text value rest read
  obtain ⟨⟨middle, left⟩, started, read⟩ := Option.bind_eq_some_iff.mp read
  exact second middle (first _ _ _ started) _ _ _ read

/-- What follows decides alone. -/
theorem after {wanted : β → Prop} {next : α → Reader β}
    (second : ∀ value, (next value).Gives wanted) : Gives (reader >>= next) wanted :=
  (anything reader).bind fun value _ => second value

theorem either (first : reader.Gives property) (second : other.Gives property) :
    Gives (Reader.either reader other) property := by
  intro text value rest read
  unfold Reader.either at read
  split at read
  · next result started =>
    cases read
    exact first _ _ _ started
  · exact second _ _ _ read

theorem maybe (inner : reader.Gives property) :
    Gives (Reader.maybe reader) fun found => ∀ value ∈ found, property value := by
  intro text found rest read value member
  unfold Reader.maybe at read
  split at read
  · next given _ started =>
    cases read
    obtain rfl := Option.some.inj member
    exact inner _ _ _ started
  · cases read
    cases member

theorem inRow (inner : reader.Gives property) (fuel : Text) :
    Gives (Reader.inRow reader fuel) fun values => ∀ value ∈ values, property value := by
  induction fuel with
  | nil => exact .pure (by simp)
  | cons _ fuel ih =>
    intro text values rest read
    unfold Reader.inRow at read
    split at read
    · next first left started =>
      obtain ⟨⟨others, last⟩, read, same⟩ := Option.map_eq_some_iff.mp read
      cases same
      exact List.forall_mem_cons.mpr ⟨inner _ _ _ started, ih _ _ _ read⟩
    · cases read
      simp

theorem many (inner : reader.Gives property) :
    Gives (Reader.many reader) fun values => ∀ value ∈ values, property value :=
  fun text => inRow inner text text

theorem separated (inner : reader.Gives property) (separator : Reader β) :
    Gives (Reader.separated reader separator) fun values => ∀ value ∈ values, property value := by
  refine inner.bind fun first holds => ?_
  refine (many (after fun _ => inner)).bind fun others hold => ?_
  exact .pure (List.forall_mem_cons.mpr ⟨holds, hold⟩)

end Reader.Gives

/-! ### Values and statements -/

theorem arrayItems_gives {item : Reader Value} (inner : item.Gives Value.Distinct) :
    (arrayItems item).Gives fun items => ∀ item ∈ items, item.Distinct := by
  refine .bind (?_ : Reader.Gives _ fun found => ∀ items ∈ found, ∀ item ∈ items, item.Distinct)
    fun found hold => ?_
  · refine .maybe (.separated (.after fun _ => inner.bind fun value holds => ?_) _)
    exact .after fun _ => .pure holds
  · cases found with
    | none => exact .after fun _ => .after fun _ => .pure (by simp)
    | some items => exact .after fun _ => .after fun _ => .after fun _ => .pure (hold items rfl)

theorem inlineEntries_gives {item : Reader Value} (inner : item.Gives Value.Distinct) :
    (inlineEntries item).Gives fun entries => ∀ entry ∈ entries, entry.2.Distinct := by
  refine .bind (?_ : Reader.Gives _ fun found =>
    ∀ entries ∈ found, ∀ entry ∈ entries, entry.2.Distinct) fun found hold => ?_
  · refine .maybe (.separated (.after fun _ => .after fun _ => .after fun _ => ?_) _)
    exact inner.bind fun value holds => .after fun _ => .pure holds
  · refine .after fun _ => .after fun _ => .pure ?_
    cases found with
    | none => simp
    | some entries => exact hold entries rfl

theorem distinct_inlineTable {entries : List (DottedKey × Value)} {table : Table}
    (values : ∀ entry ∈ entries, entry.2.Distinct) (built : inlineTable entries = some table) :
    Value.Distinct (.table table) := by
  obtain ⟨drafts, done, rfl⟩ := Option.map_eq_some_iff.mp built
  refine Draft.distinct_toTable (foldlM_keeps (m := Option) (P := fun drafts rest =>
    Draft.DistinctEntries drafts ∧ ∀ entry ∈ rest, entry.2.Distinct) ?_ ⟨.nil, values⟩ done).1
  rintro drafts entry next rest assigned ⟨distinct, values⟩
  obtain ⟨value, values⟩ := List.forall_mem_cons.mp values
  exact ⟨Draft.assign_keeps _ _ value _ _ _ assigned distinct, values⟩

theorem value_gives_of_below {depth : Nat}
    (below : ∀ inner, depth = inner + 1 → (value inner).Gives Value.Distinct) :
    (value depth).Gives Value.Distinct := by
  unfold value
  -- The next character tells which kind of value is read.
  refine .after fun next => ?_
  split
  · exact .refuse
  split
  · exact .after fun text => .pure (.string text)
  split
  · split
    · exact .refuse
    · next inner =>
      refine .after fun _ => (arrayItems_gives (below inner rfl)).bind fun items hold => ?_
      exact .pure (.array hold)
  split
  · split
    · exact .refuse
    · next inner =>
      refine .after fun _ => (inlineEntries_gives (below inner rfl)).bind fun entries hold => ?_
      split
      · next table built => exact .pure (distinct_inlineTable hold built)
      · exact .refuse
  split
  · exact .after fun _ => .pure (.boolean true)
  split
  · exact .after fun _ => .pure (.boolean false)
  refine .either (.after fun date => .pure (.datetime date)) ?_
  exact .either (.after fun float => .pure (.float float))
    (.after fun integer => .pure (.integer integer))

theorem value_gives (depth : Nat) : (value depth).Gives Value.Distinct := by
  induction depth with
  | zero => exact value_gives_of_below nofun
  | succ depth ih =>
    refine value_gives_of_below fun inner same => ?_
    obtain rfl := Nat.succ.inj same
    exact ih

/-- In the value that a statement sets, each table lists each key once. -/
def Statement.Distinct : Statement → Prop
  | .assign _ value => value.Distinct
  | .openTable _ => True
  | .openRow _ => True

theorem statement_gives : statement.Gives Statement.Distinct := by
  refine .either (.after fun _ => .after fun _ => .after fun _ => .pure trivial) ?_
  refine .either (.after fun _ => .after fun _ => .after fun _ => .pure trivial) ?_
  refine .after fun _ => .after fun _ => .after fun _ => ?_
  exact (value_gives maxDepth).bind fun value holds => .pure holds

theorem line_gives : line.Gives fun said => ∀ statement ∈ said, statement.Distinct := by
  refine .after fun _ => statement_gives.maybe.bind fun said holds => ?_
  exact .after fun _ => .after fun _ => .pure holds

theorem statements_give : statements.Gives fun said => ∀ statement ∈ said, statement.Distinct := by
  refine .after fun _ => .bind (?_ : Reader.Gives _ fun lines =>
    ∀ said ∈ lines, ∀ statement ∈ said, statement.Distinct) fun lines hold => ?_
  · exact .many (line_gives.bind fun said holds => .after fun _ => .pure holds)
  · refine line_gives.bind fun last holds => .after fun _ => .pure ?_
    intro statement member
    obtain ⟨said, listed, same⟩ := List.mem_filterMap.mp member
    obtain rfl : said = some statement := same
    rcases List.mem_append.mp listed with earlier | latest
    · exact hold _ earlier statement rfl
    · obtain rfl := List.mem_singleton.mp latest
      exact holds statement rfl

/-! ### Documents -/

theorem Building.add_keeps {building next : Building} {statement : Statement}
    (said : statement.Distinct) (added : building.add statement = some next)
    (distinct : Draft.DistinctEntries building.root) : Draft.DistinctEntries next.root := by
  cases statement with
  | assign key value =>
    obtain ⟨root, set, same⟩ := Option.bind_eq_some_iff.mp added
    obtain rfl := Option.some.inj same
    exact Draft.assignBelow_keeps _ _ _ said set distinct
  | openTable key =>
    obtain ⟨root, opened, same⟩ := Option.bind_eq_some_iff.mp added
    obtain rfl := Option.some.inj same
    exact Draft.openTable_keeps opened distinct
  | openRow key =>
    obtain ⟨root, opened, same⟩ := Option.bind_eq_some_iff.mp added
    obtain rfl := Option.some.inj same
    exact Draft.openRow_keeps opened distinct

/-- A document lists each key of a table once, at any depth. -/
theorem parse_distinct {text : Text} {table : Table} (parsed : parse text = some table) :
    Value.Distinct (.table table) := by
  obtain ⟨⟨said, _⟩, read, rest⟩ := Option.bind_eq_some_iff.mp parsed
  obtain ⟨building, built, same⟩ := Option.bind_eq_some_iff.mp rest
  obtain rfl := Option.some.inj same
  have statements := statements_give _ _ _ read
  refine Draft.distinct_toTable (foldlM_keeps (m := Option) (P := fun (building : Building) rest =>
    Draft.DistinctEntries building.root ∧ ∀ statement ∈ rest, statement.Distinct) ?_
    ⟨.nil, statements⟩ built).1
  rintro building statement next rest added ⟨distinct, statements⟩
  obtain ⟨statement, statements⟩ := List.forall_mem_cons.mp statements
  exact ⟨Building.add_keeps statement added distinct, statements⟩

end PathRules.Toml
