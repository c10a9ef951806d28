import PathRules.Config
import PathRules.Proofs.Plan.Result

/-!
# Settings of a configuration file

`load_eq_ok` and `load_eq_error` say what loading a file gives, and `read_ok` which of the two
parts of the place of the rule documents the file sets; the others are the usual ones.
-/

namespace PathRules

namespace RulesLocation

/-- An extension without the dots in front of it. -/
def stripDots (extension : Text) : Text := extension.dropWhile (· == '.')

theorem normalizeExtension_eq_some {extension normal : Text} :
    normalizeExtension extension = some normal ↔
      normal = stripDots extension ∧ stripDots extension ≠ [] := by
  unfold normalizeExtension stripDots
  split
  · next nothing => simp [nothing]
  · next c rest something => simp [something, eq_comm]

theorem normalizeExtension_eq_none {extension : Text} :
    normalizeExtension extension = none ↔ stripDots extension = [] := by
  unfold normalizeExtension stripDots
  split
  · next nothing => simp [nothing]
  · next c rest something => simp [something]

theorem override_some_of_dots {given : Text} (location : RulesLocation) (dir : Option Text)
    (dots : stripDots given = []) :
    location.override dir (some given) = .error (.argument (.namesNoExtension given)) := by
  unfold override
  dsimp only
  rw [normalizeExtension_eq_none.mpr dots]

theorem override_some_of_not_dots {given : Text} (location : RulesLocation) (dir : Option Text)
    (named : stripDots given ≠ []) :
    location.override dir (some given) = .ok ⟨dir.getD location.dir, stripDots given⟩ := by
  unfold override
  dsimp only
  rw [normalizeExtension_eq_some.mpr ⟨rfl, named⟩]

theorem override_eq_ok {location moved : RulesLocation} {dir extension : Option Text}
    (overridden : location.override dir extension = .ok moved) :
    moved = ⟨dir.getD location.dir, (extension.map stripDots).getD location.extension⟩ := by
  cases extension with
  | none => exact (Except.ok.inj overridden).symm
  | some given =>
    by_cases dots : stripDots given = []
    · rw [override_some_of_dots location dir dots] at overridden
      cases overridden
    · rw [override_some_of_not_dots location dir dots] at overridden
      exact (Except.ok.inj overridden).symm

theorem override_eq_error {location : RulesLocation} {dir extension : Option Text}
    {fault : Fault} :
    location.override dir extension = .error fault ↔
      ∃ given, extension = some given ∧ stripDots given = [] ∧
        fault = .argument (.namesNoExtension given) := by
  constructor
  · intro failed
    cases extension with
    | none => cases failed
    | some given =>
      by_cases dots : stripDots given = []
      · rw [override_some_of_dots location dir dots] at failed
        exact ⟨given, rfl, dots, (Except.error.inj failed).symm⟩
      · rw [override_some_of_not_dots location dir dots] at failed
        cases failed
  · rintro ⟨given, rfl, dots, rfl⟩
    exact override_some_of_dots location dir dots

end RulesLocation

namespace Config

/-! ### What a table sets -/

/-- The value of the last entry under a key, which counts if there are several. -/
def lastUnder (entries : Toml.Table) (key : Text) : Option Toml.Value := entries.reverse.lookup key

theorem lastUnder_cons_self (key : Text) (value : Toml.Value) (entries : Toml.Table) :
    lastUnder ((key, value) :: entries) key = (lastUnder entries key).or (some value) := by
  simp [lastUnder, List.lookup_append]

theorem lastUnder_cons_of_ne {key other : Text} (different : other ≠ key) (value : Toml.Value)
    (entries : Toml.Table) :
    lastUnder ((key, value) :: entries) other = lastUnder entries other := by
  have apart : (other == key) = false := by simpa using different
  simp [lastUnder, List.lookup_append, List.lookup_cons, apart]

/-- What the entries of a rules table set: a directory, and an extension without leading dots. -/
structure Sets (entries : Toml.Table) (dir extension : Option Text) : Prop where
  dir_entry : lastUnder entries (Text.of "dir") = dir.map .string
  extension_entry : ∃ written : Option Text,
    lastUnder entries (Text.of "extension") = written.map .string ∧
      extension = written.map RulesLocation.stripDots
  named : extension ≠ some []

theorem sets_nil : Sets [] none none := ⟨rfl, ⟨none, rfl, rfl⟩, nofun⟩

theorem dir_ne_extension : Text.of "dir" ≠ Text.of "extension" := by
  rw [Text.of_eq, Text.of_eq]
  decide

namespace Sets

variable {entries : Toml.Table} {dir extension : Option Text}

theorem cons_dir (sets : Sets entries dir extension) (text : Text) :
    Sets ((Text.of "dir", .string text) :: entries) (dir.or (some text)) extension := by
  obtain ⟨dir_entry, extension_entry, named⟩ := sets
  refine ⟨?_, ?_, named⟩
  · rw [lastUnder_cons_self, dir_entry]
    cases dir <;> rfl
  · rw [lastUnder_cons_of_ne dir_ne_extension.symm]
    exact extension_entry

theorem cons_extension (sets : Sets entries dir extension) {given : Text}
    (notDots : RulesLocation.stripDots given ≠ []) :
    Sets ((Text.of "extension", .string given) :: entries) dir
      (extension.or (some (RulesLocation.stripDots given))) := by
  obtain ⟨dir_entry, ⟨written, extension_entry, rfl⟩, named⟩ := sets
  refine ⟨?_, ⟨written.or (some given), ?_, ?_⟩, ?_⟩
  · rw [lastUnder_cons_of_ne dir_ne_extension]
    exact dir_entry
  · rw [lastUnder_cons_self, extension_entry]
    cases written <;> rfl
  · cases written <;> rfl
  · cases written with
    | none => simpa using notDots
    | some other => exact named

theorem cons_other (sets : Sets entries dir extension) {key : Text} (value : Toml.Value)
    (notDir : key ≠ Text.of "dir") (notExtension : key ≠ Text.of "extension") :
    Sets ((key, value) :: entries) dir extension := by
  obtain ⟨dir_entry, extension_entry, named⟩ := sets
  refine ⟨?_, ?_, named⟩
  · rw [lastUnder_cons_of_ne notDir.symm]
    exact dir_entry
  · rw [lastUnder_cons_of_ne notExtension.symm]
    exact extension_entry

end Sets

theorem readRules_ok {start rules : RulesLocation} {entries : Toml.Table}
    (read : (readRules start entries).result = .ok rules) :
    ∃ dir extension, Sets entries dir extension ∧
      rules = ⟨dir.getD start.dir, extension.getD start.extension⟩ := by
  induction entries generalizing start with
  | nil => exact ⟨none, none, sets_nil, (Except.ok.inj read).symm⟩
  | cons entry entries ih =>
    obtain ⟨key, value⟩ := entry
    unfold readRules at read
    split at read
    · next isDir =>
      subst isDir
      split at read
      · next text =>
        obtain ⟨dir, extension, sets, rfl⟩ := ih read
        refine ⟨_, _, sets.cons_dir text, ?_⟩
        cases dir <;> rfl
      · cases read
    · next notDir =>
      split at read
      · next isExtension =>
        subst isExtension
        split at read
        · next given =>
          split at read
          · next normal found =>
            obtain ⟨rfl, named⟩ := RulesLocation.normalizeExtension_eq_some.mp found
            obtain ⟨dir, extension, sets, rfl⟩ := ih read
            refine ⟨_, _, sets.cons_extension named, ?_⟩
            cases extension <;> rfl
          · cases read
        · cases read
      · next notExtension =>
        obtain ⟨dir, extension, sets, same⟩ := ih read
        exact ⟨dir, extension, sets.cons_other value notDir notExtension, same⟩

/-! ### What a file sets -/

/-- A text is a configuration of the supported version, and sets a directory and an extension. -/
def Declares (content : Text) (dir extension : Option Text) : Prop :=
  ∃ written table, Toml.parse content = some written ∧
    readVersion written = .ok supportedVersion ∧ settle written = some table ∧
    (table.get? (Text.of "rules") = none ∧ dir = none ∧ extension = none ∨
      ∃ entries, table.get? (Text.of "rules") = some (.table entries) ∧ Sets entries dir extension)

theorem readVersion_ok {table : Toml.Table} {version : Int}
    (read : readVersion table = .ok version) : version = supportedVersion := by
  unfold readVersion at read
  split at read
  · split at read
    · next supported =>
      rw [← Except.ok.inj read, supported]
    · cases read
  · cases read
  · cases read

theorem readLocation_ok {value : Option Toml.Value} {rules : RulesLocation}
    (read : (readLocation value).result = .ok rules) :
    ∃ dir extension,
      (value = none ∧ dir = none ∧ extension = none ∨
        ∃ entries, value = some (.table entries) ∧ Sets entries dir extension) ∧
      rules = ⟨dir.getD RulesLocation.standard.dir,
        extension.getD RulesLocation.standard.extension⟩ := by
  unfold readLocation at read
  split at read
  · exact ⟨none, none, .inl ⟨rfl, rfl, rfl⟩, (Except.ok.inj read).symm⟩
  · next entries =>
    obtain ⟨dir, extension, sets, same⟩ := readRules_ok read
    exact ⟨dir, extension, .inr ⟨entries, rfl, sets⟩, same⟩
  · cases read

theorem ofTable_ok {version : Int} {table : Toml.Table} {config : Config}
    (read : (ofTable version table).result = .ok config) :
    (readLocation (table.get? (Text.of "rules"))).result = .ok config.rules := by
  unfold ofTable at read
  dsimp only at read
  cases located : (readLocation (table.get? (Text.of "rules"))).result with
  | error problem => rw [located] at read; cases read
  | ok rules =>
    rw [located] at read
    rw [← Except.ok.inj read]

/-- The rules of a configuration are where its text says, and in the usual place otherwise. -/
theorem read_ok {content : Text} {config : Config} (done : (read content).result = .ok config) :
    ∃ dir extension, Declares content dir extension ∧
      config.rules = ⟨dir.getD RulesLocation.standard.dir,
        extension.getD RulesLocation.standard.extension⟩ := by
  unfold read at done
  split at done
  · cases done
  · next written parsed =>
    split at done
    · cases done
    · next version versioned =>
      have supported := readVersion_ok versioned
      subst supported
      split at done
      · next table settled =>
        obtain ⟨dir, extension, sets, same⟩ := readLocation_ok (ofTable_ok done)
        exact ⟨dir, extension, ⟨written, table, parsed, versioned, settled, sets⟩, same⟩
      · cases done

/-! ### Loading a file -/

variable {disk : Disk}

theorem noteUnknown_run (path : Text) (keys : List Text) :
    (noteUnknown path keys).run disk = ⟨keys.map (.unknownKey path), .ok ()⟩ := by
  induction keys with
  | nil => rfl
  | cons key keys ih =>
    unfold noteUnknown
    rw [Plan.run_bind, ih]
    rfl

/-- Parsing notes the keys without a meaning, each with its name, and nothing else. -/
theorem parse_run (content path : Text) :
    (parse content path).run disk =
      ⟨(read content).unknownKeys.map (.unknownKey path),
        (read content).result.mapError fun problem => .config problem (some path)⟩ := by
  unfold parse
  dsimp only
  rw [Plan.run_bind, noteUnknown_run]
  simp only [Record.andThen, Plan.run_ofExcept, List.append_nil]

theorem parse_result (content path : Text) :
    ((parse content path).run disk).result =
      (read content).result.mapError fun problem => .config problem (some path) := by
  rw [parse_run]

theorem parse_notices (content path : Text) :
    ((parse content path).run disk).notices =
      (read content).unknownKeys.map (.unknownKey path) := by
  rw [parse_run]

theorem parse_warnings (content path : Text) :
    ((parse content path).run disk).warnings =
      (read content).unknownKeys.map (Notice.unknownKeyWarning path) := by
  have told : Notice.warning? ∘ Notice.unknownKey path = some ∘ Notice.unknownKeyWarning path := rfl
  rw [Record.warnings, parse_notices, List.filterMap_map, told, List.filterMap_eq_map]

theorem load_of_unreadable {path : Text} {problem : ReadProblem}
    (failed : disk.textAt path = .error problem) :
    ((load path).run disk).result = .error (.io path problem) := by
  unfold load
  rw [Plan.result_bind_error (Plan.readText_of_unreadable failed)]

theorem load_of_readable {path content : Text} (text : disk.textAt path = .ok content) :
    ((load path).run disk).result =
      (read content).result.mapError fun problem => .config problem (some path) := by
  unfold load
  rw [Plan.result_bind_ok (Plan.readText_of_readable text), parse_result]

theorem load_eq_ok {path : Text} {config : Config} :
    ((load path).run disk).result = .ok config ↔
      ∃ content, disk.textAt path = .ok content ∧ (read content).result = .ok config := by
  cases text : disk.textAt path with
  | error problem => simp [load_of_unreadable text]
  | ok content =>
    rw [load_of_readable text, mapError_eq_ok]
    simp

theorem load_eq_error {path : Text} {fault : Fault} :
    ((load path).run disk).result = .error fault ↔
      (∃ problem, disk.textAt path = .error problem ∧ fault = .io path problem) ∨
      ∃ content problem, disk.textAt path = .ok content ∧
        (read content).result = .error problem ∧ fault = .config problem (some path) := by
  cases text : disk.textAt path with
  | error problem =>
    rw [load_of_unreadable text]
    constructor
    · intro failed
      exact .inl ⟨problem, rfl, (Except.error.inj failed).symm⟩
    · rintro (⟨other, same, rfl⟩ | ⟨content, _, same, _⟩)
      · rw [Except.error.inj same]
      · cases same
  | ok content =>
    rw [load_of_readable text]
    constructor
    · intro failed
      cases done : (read content).result with
      | ok config => rw [done] at failed; cases failed
      | error problem =>
        rw [done] at failed
        exact .inr ⟨content, problem, rfl, done, (Except.error.inj failed).symm⟩
    · rintro (⟨other, same, _⟩ | ⟨other, problem, same, failed, rfl⟩)
      · cases same
      · rw [Except.ok.inj same, failed]
        rfl

/-- The keys without a meaning that loading the file at a path comes upon. -/
def unknownKeysAt (disk : Disk) (path : Text) : List Text :=
  match disk.textAt path with
  | .ok content => (read content).unknownKeys
  | .error _ => []

/-- Loading warns of the keys without a meaning, also if it fails at one that comes after. -/
theorem load_warnings (disk : Disk) (path : Text) :
    ((load path).run disk).warnings =
      (unknownKeysAt disk path).map (Notice.unknownKeyWarning path) := by
  unfold load unknownKeysAt
  rw [Plan.warnings_bind, Plan.warnings_readText, Plan.result_readText]
  cases disk.textAt path with
  | error problem => rfl
  | ok content =>
    rw [mapError_ok, List.nil_append]
    exact parse_warnings content path

end Config
end PathRules
