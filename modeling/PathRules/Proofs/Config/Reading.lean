import PathRules.Proofs.Config.RulesTable

/-!
# What parsing a configuration gives

`parse_of_holds` says for each text that holds a table how parsing it ends and of which keys it
warns: first those of the whole table, and then those of its rules table as far as it is read.
-/

namespace PathRules.Config

/-! ### The table of a text -/

/-- A text holds a table, in which each table that stands for a date is that date. -/
def Holds (content : Text) (table : Toml.Table) : Prop :=
  ∃ written, Toml.parse content = some written ∧ settle written = some table

theorem settle_eq_some_iff {written table : Toml.Table} :
    settle written = some table ↔
      ∃ finals, List.Forall₂ (Toml.Settles (· != Text.of "rules")) written finals ∧
        table = Toml.Table.sort finals := by
  have settles (entry final : Text × Toml.Value) :
      (do pure (entry.1, ← entry.2.settle (entry.1 != Text.of "rules")) : Option _) = some final ↔
        Toml.Settles (· != Text.of "rules") entry final := by
    obtain ⟨key, value⟩ := final
    constructor
    · intro done
      obtain ⟨settled, done, same⟩ := Option.bind_eq_some_iff.mp done
      cases same
      exact ⟨rfl, done⟩
    · rintro ⟨rfl, done⟩
      exact Option.bind_eq_some_iff.mpr ⟨value, done, rfl⟩
  constructor
  · intro settled
    obtain ⟨finals, each, same⟩ := Option.bind_eq_some_iff.mp settled
    refine ⟨finals, ?_, (Option.some.inj same).symm⟩
    exact (Toml.mapM_eq_some_iff.mp each).imp fun entry final => (settles entry final).mp
  · rintro ⟨finals, each, rfl⟩
    refine Option.bind_eq_some_iff.mpr ⟨finals, Toml.mapM_eq_some_iff.mpr ?_, rfl⟩
    exact each.imp fun entry final => (settles entry final).mpr

theorem settle_of_sorted {written table : Toml.Table}
    (each : List.Forall₂ (Toml.Settles (· != Text.of "rules")) written table)
    (sorted : table.Pairwise fun a b => Text.le a.1 b.1 = true) : settle written = some table :=
  settle_eq_some_iff.mpr ⟨table, each, (Toml.Table.sort_of_sorted sorted).symm⟩

/-- A rules table whose entries are settled and in order is settled. -/
theorem settles_rules (entries : Toml.Table) {finals : Toml.Table}
    (undated : Toml.Table.standsForDate entries = false)
    (each : Toml.Value.settleEntries false entries = some finals)
    (sorted : finals.Pairwise fun a b => Text.le a.1 b.1 = true) :
    Toml.Settles (· != Text.of "rules") (Text.of "rules", .table entries)
      (Text.of "rules", .table finals) := by
  have inexact : (Text.of "rules" != Text.of "rules") = false := bne_self_eq_false _
  refine ⟨rfl, ?_⟩
  dsimp only
  rw [inexact]
  exact Toml.Value.settle_table_of_sorted undated each sorted

section Version

variable {table : Toml.Table}

theorem readVersion_of_missing (missing : table.get? (Text.of "version") = none) :
    readVersion table = .error .missingVersion := by
  rw [readVersion, missing]

theorem readVersion_of_supported
    (found : table.get? (Text.of "version") = some (.integer supportedVersion)) :
    readVersion table = .ok supportedVersion := by
  rw [readVersion, found]
  rfl

theorem readVersion_of_unsupported {version : Int}
    (found : table.get? (Text.of "version") = some (.integer version))
    (unsupported : version ≠ supportedVersion) :
    readVersion table = .error (.unsupportedVersion version) := by
  rw [readVersion, found]
  exact if_neg unsupported

theorem readVersion_of_not_integer {value : Toml.Value}
    (found : table.get? (Text.of "version") = some value)
    (other : ∀ version, value ≠ .integer version) :
    readVersion table = .error .unreadableToml := by
  rw [readVersion, found]
  cases value with
  | integer version => exact absurd rfl (other version)
  | _ => rfl

end Version

namespace Holds

variable {content : Text} {table : Toml.Table}

theorem ascending (held : Holds content table) : Text.Ascending table.keys := by
  obtain ⟨written, parsed, settled⟩ := held
  obtain ⟨finals, each, rfl⟩ := settle_eq_some_iff.mp settled
  refine Toml.Table.ascending_sort ?_
  rw [Toml.keys_of_settles each]
  exact (Toml.parse_distinct parsed).keys

/-- What stands under a key, as it is written and as it is settled. -/
theorem get? (held : Holds content table) (key : Text) :
    ∃ written, Toml.parse content = some written ∧ settle written = some table ∧
      Option.Rel (fun value final => value.settle (key != Text.of "rules") = some final)
        (written.get? key) (table.get? key) := by
  obtain ⟨written, parsed, settled⟩ := held
  refine ⟨written, parsed, settled, ?_⟩
  obtain ⟨finals, each, rfl⟩ := settle_eq_some_iff.mp settled
  rw [Toml.Table.get?_sort]
  · exact Toml.get?_of_settles each key
  · rw [Toml.keys_of_settles each]
    exact (Toml.parse_distinct parsed).keys

theorem rules_ascending (held : Holds content table) {rules : Toml.Table}
    (found : table.get? (Text.of "rules") = some (.table rules)) :
    Text.Ascending rules.keys := by
  obtain ⟨written, parsed, _, same⟩ := held.get? (Text.of "rules")
  rw [found] at same
  generalize under : written.get? (Text.of "rules") = value? at same
  cases same with
  | some settled =>
    exact Toml.Value.ascending_settle settled ((Toml.parse_distinct parsed).of_get? under)

/-- The version may be looked at before the values are settled. -/
theorem readVersion (held : Holds content table) :
    ∃ written, Toml.parse content = some written ∧ settle written = some table ∧
      readVersion written = readVersion table := by
  obtain ⟨written, parsed, settled, same⟩ := held.get? (Text.of "version")
  refine ⟨written, parsed, settled, ?_⟩
  generalize under : written.get? (Text.of "version") = value?,
    found : table.get? (Text.of "version") = final? at same
  cases same with
  | none => rw [readVersion_of_missing under, readVersion_of_missing found]
  | @some value final settled =>
    -- Only an integer settles to an integer, and then to itself.
    by_cases number : ∃ version, final = .integer version
    · obtain ⟨version, rfl⟩ := number
      obtain rfl := Toml.Value.settle_eq_integer_iff.mp settled
      unfold Config.readVersion
      rw [under, found]
    · rw [readVersion_of_not_integer found fun version same => number ⟨version, same⟩]
      refine readVersion_of_not_integer under fun version same => number ⟨version, ?_⟩
      rw [Toml.Value.settle_eq_integer_iff.mpr same] at settled
      exact (Option.some.inj settled).symm

theorem read (held : Holds content table) :
    read content = match Config.readVersion table with
      | .error problem => ⟨[], .error problem⟩
      | .ok version => ofTable version table := by
  obtain ⟨written, parsed, settled, version⟩ := held.readVersion
  unfold Config.read
  rw [parsed]
  dsimp only
  rw [version]
  cases Config.readVersion table with
  | error problem => rfl
  | ok version => simp only [settled]

end Holds

/-! ### Parsing -/

/-- Two tables differ at most in keys without a meaning. -/
structure AgreeOnKnown (table other : Toml.Table) : Prop where
  version : table.get? (Text.of "version") = other.get? (Text.of "version")
  rules : SameRules (table.get? (Text.of "rules")) (other.get? (Text.of "rules"))

theorem ofTable_unknownKeys {content : Text} {table : Toml.Table} (held : Holds content table)
    (version : Int) :
    ∃ top, Lists top (fun key => key ∈ table.keys ∧ key ∉ knownKeys) ∧
      (ofTable version table).unknownKeys =
        top ++ (readLocation (table.get? (Text.of "rules"))).unknownKeys := by
  refine ⟨table.keys.filter (!knownKeys.contains ·), ?_, rfl⟩
  simpa using Lists.filter held.ascending (!knownKeys.contains ·)

theorem Holds.rulesGive {content : Text} {table : Toml.Table} (held : Holds content table) :
    RulesGive (table.get? (Text.of "rules")) (readLocation (table.get? (Text.of "rules"))) :=
  readLocation_gives fun _ => held.rules_ascending

theorem result_of_agree {content otherContent : Text} {table other : Toml.Table}
    (held : Holds content table) (otherHeld : Holds otherContent other)
    (agree : AgreeOnKnown table other) : (read otherContent).result = (read content).result := by
  have version : Config.readVersion other = Config.readVersion table := by
    unfold Config.readVersion
    rw [agree.version]
  rw [held.read, otherHeld.read, version]
  cases Config.readVersion table with
  | error problem => rfl
  | ok version =>
    dsimp only [ofTable]
    rw [held.rulesGive.result_of_same otherHeld.rulesGive agree.rules]

/-- An extension that the text sets is taken without the dots in front of it, and it has others. -/
theorem Holds.extension {content path given : Text} {table rules : Toml.Table} {disk : Disk}
    {config : Config} (held : Holds content table)
    (found : table.get? (Text.of "rules") = some (.table rules))
    (entry : rules.get? (Text.of "extension") = some (.string given))
    (parsed : ((parse content path).run disk).result = .ok config) :
    config.rules.extension = RulesLocation.stripDots given ∧ RulesLocation.stripDots given ≠ [] := by
  have gives := held.rulesGive
  have located : (readLocation (table.get? (Text.of "rules"))).result = .ok config.rules := by
    rw [parse_result, mapError_eq_ok, held.read] at parsed
    cases version : Config.readVersion table with
    | error problem => simp [version] at parsed
    | ok number =>
      rw [version] at parsed
      exact ofTable_ok parsed
  rw [found] at gives located
  generalize readLocation (some (.table rules)) = reading at gives located
  cases gives with
  | notTable other => exact absurd rfl (other rules)
  | @sound _ _ dir extension sound _ _ extension_entry =>
    have named : RulesLocation.stripDots given ≠ [] := fun dots =>
      sound _ (mem_of_lookup entry) _ (.onlyDots (stripDots_eq_nil_iff.mp dots))
    obtain ⟨text, written, same⟩ := Option.map_eq_some_iff.mp (extension_entry.symm.trans entry)
    obtain rfl := Toml.Value.string.inj same
    rw [← Except.ok.inj located, written]
    exact ⟨rfl, named⟩
  | offending => cases located

/-- What parsing a text gives that holds a table. If the version is the one supported, then all keys
of the table without a meaning are noted and warned of, in byte order, and after them those that
reading the rules comes upon; and how it ends is up to the rules. Otherwise nothing is noted. Keys
without a meaning have no part in how it ends. -/
theorem parse_of_holds {content : Text} {table : Toml.Table} (held : Holds content table)
    (disk : Disk) (path : Text) :
    let record := (parse content path).run disk
    (table.get? (Text.of "version") = none →
      record.notices = [] ∧ record.warnings = [] ∧
        record.result = .error (.config .missingVersion (some path))) ∧
    (∀ version, table.get? (Text.of "version") = some (.integer version) →
      version ≠ supportedVersion →
      record.notices = [] ∧ record.warnings = [] ∧
        record.result = .error (.config (.unsupportedVersion version) (some path))) ∧
    (table.get? (Text.of "version") = some (.integer supportedVersion) →
      ∃ top reading, Lists top (fun key => key ∈ table.keys ∧ key ∉ knownKeys) ∧
        RulesGive (table.get? (Text.of "rules")) reading ∧
        record.notices = (top ++ reading.unknownKeys).map (Notice.unknownKey path) ∧
        record.warnings = (top ++ reading.unknownKeys).map (Notice.unknownKeyWarning path) ∧
        record.result = (reading.result.map (Config.mk supportedVersion)).mapError
          fun problem => .config problem (some path)) ∧
    ∀ otherContent other, Holds otherContent other → AgreeOnKnown table other →
      ((parse otherContent path).run disk).result = record.result := by
  intro record
  have notices : record.notices = _ := parse_notices content path
  have warnings : record.warnings = _ := parse_warnings content path
  have result : record.result = _ := parse_result content path
  refine ⟨fun missing => ?_, fun version found unsupported => ?_, fun found => ?_, ?_⟩
  · rw [held.read, readVersion_of_missing missing] at notices warnings result
    exact ⟨notices, warnings, result⟩
  · rw [held.read, readVersion_of_unsupported found unsupported] at notices warnings result
    exact ⟨notices, warnings, result⟩
  · obtain ⟨top, lists, keys⟩ := ofTable_unknownKeys held supportedVersion
    rw [held.read, readVersion_of_supported found] at notices warnings result
    refine ⟨top, _, lists, held.rulesGive, ?_⟩
    rw [← keys]
    exact ⟨notices, warnings, result⟩
  · intro otherContent other otherHeld agree
    rw [parse_result, result_of_agree held otherHeld agree, ← result]

/-! ### A wrong directory among unknown keys -/

def notedRules : Toml.Table :=
  [(Text.of "a", .integer 5), (Text.of "dir", .integer 4), (Text.of "z", .integer 3)]

def notedTable : Toml.Table :=
  [(Text.of "note", .integer 2), (Text.of "rules", .table notedRules),
    (Text.of "version", .integer supportedVersion)]

def notedText : Text := "note = 2\nrules.a = 5\nrules.dir = 4\nrules.z = 3\nversion = 1".toList

def bareRules : Toml.Table := [(Text.of "dir", .integer 4)]

def bareTable : Toml.Table :=
  [(Text.of "rules", .table bareRules), (Text.of "version", .integer supportedVersion)]

def bareText : Text := "rules.dir = 4\nversion = 1".toList

theorem holds_notedTable : Holds notedText notedTable := by
  have rules := settles_rules notedRules (by decide +kernel) rfl (by decide +kernel)
  refine ⟨notedTable, by decide +kernel, settle_of_sorted ?_ (by decide +kernel)⟩
  exact .cons ⟨rfl, rfl⟩ (.cons rules (.cons ⟨rfl, rfl⟩ .nil))

theorem holds_bareTable : Holds bareText bareTable := by
  have rules := settles_rules bareRules (by decide +kernel) rfl (by decide +kernel)
  refine ⟨bareTable, by decide +kernel, settle_of_sorted ?_ (by decide +kernel)⟩
  exact .cons rules (.cons ⟨rfl, rfl⟩ .nil)

/-- Without its unknown keys the text fails alike, and nothing is noted. -/
theorem parse_of_holds_with_unknown_keys :
    let disk : Disk := { root := .directory [], workingDirectory := [] }
    let record (text : Text) := (parse text fileName).run disk
    (record bareText).result = (record notedText).result ∧
      (record notedText).result =
        .error (.config (.notString (Text.of "dir")) (some fileName)) ∧
      (record notedText).notices =
        [.unknownKey fileName "note".toList, .unknownKey fileName "rules.a".toList] ∧
      (record notedText).warnings =
        ["rulematch: warning: rulematch.toml: unrecognized field `note` (ignored)".toList,
          "rulematch: warning: rulematch.toml: unrecognized field `rules.a` (ignored)".toList] ∧
      (record bareText).notices = [] := by
  intro disk record
  have agree : AgreeOnKnown notedTable bareTable := by
    have noted : notedTable.get? (Text.of "rules") = some (.table notedRules) := by decide +kernel
    have bare : bareTable.get? (Text.of "rules") = some (.table bareRules) := by decide +kernel
    refine ⟨by decide +kernel, ?_⟩
    rw [noted, bare]
    exact .tables (by decide +kernel)
  obtain ⟨_, _, _, agreeing⟩ := parse_of_holds holds_notedTable disk fileName
  refine ⟨agreeing bareText bareTable holds_bareTable agree, ?_, ?_, ?_, ?_⟩
  · rw [parse_result, holds_notedTable.read]
    decide +kernel
  · rw [parse_notices, holds_notedTable.read]
    decide +kernel
  · rw [parse_warnings, holds_notedTable.read]
    decide +kernel
  · rw [parse_notices, holds_bareTable.read]
    decide +kernel

end PathRules.Config
