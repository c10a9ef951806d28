import PathRules.Plan
import PathRules.RulesLocation
import PathRules.Toml.Document
import PathRules.Toml.Settled

/-!
# Configuration

A configuration is a TOML file with a version and, under `rules`, the place of the rule
documents. `Config.ofTable` reads a table, and names the keys without a meaning beside its
result; `Config.locate` finds the file nearest to a directory.
-/

namespace PathRules

structure Config where
  version : Int := supportedVersion
  rules : RulesLocation := .standard
  deriving DecidableEq, Repr

namespace Config

def fileName : Text := Text.of "rulematch.toml"

def repositoryMark : Text := Text.of ".git"

/-! ### Reading a table -/

/-- What reading gives: the keys without a meaning, in order, and the value or what is wrong. -/
structure Reading (α : Type) where
  unknownKeys : List Text
  result : Except ConfigProblem α

/-- The rules table, entry by entry. The first entry with a wrong value ends the reading. -/
def readRules (rules : RulesLocation) : Toml.Table → Reading RulesLocation
  | [] => ⟨[], .ok rules⟩
  | (key, value) :: rest =>
    if key = Text.of "dir" then
      match value with
      | .string dir => readRules { rules with dir } rest
      | _ => ⟨[], .error (.notString key)⟩
    else if key = Text.of "extension" then
      match value with
      | .string extension =>
        match RulesLocation.normalizeExtension extension with
        | some extension => readRules { rules with extension } rest
        | none => ⟨[], .error .emptyExtension⟩
      | _ => ⟨[], .error (.notString key)⟩
    else
      let reading := readRules rules rest
      { reading with unknownKeys := (Text.of "rules." ++ key) :: reading.unknownKeys }

def readLocation : Option Toml.Value → Reading RulesLocation
  | none => ⟨[], .ok .standard⟩
  | some (.table table) => readRules .standard table
  | some _ => ⟨[], .error .rulesNotTable⟩

/-- The version that a table gives, which must be the one supported. -/
def readVersion (table : Toml.Table) : Except ConfigProblem Int :=
  match table.get? (Text.of "version") with
  | some (.integer version) =>
    if version = supportedVersion then .ok version else .error (.unsupportedVersion version)
  | some _ => .error .unreadableToml
  | none => .error .missingVersion

/-- The keys of a table that mean something. -/
def knownKeys : List Text := [Text.of "version", Text.of "rules"]

def ofTable (version : Int) (table : Toml.Table) : Reading Config :=
  let unknown := (table.map Prod.fst).filter (!knownKeys.contains ·)
  let reading := readLocation (table.get? (Text.of "rules"))
  ⟨unknown ++ reading.unknownKeys, reading.result.map fun rules => { version, rules }⟩

/-- The table of a document with its values settled, in the order of its keys. Under `rules` a date
may be followed by what does not count. -/
def settle (table : Toml.Table) : Option Toml.Table := do
  let settled ← table.mapM fun (key, value) => do
    pure (key, ← value.settle (key != Text.of "rules"))
  pure (Toml.Table.sort settled)

/-- The configuration that a text holds. Its version is looked at first. -/
def read (content : Text) : Reading Config :=
  match Toml.parse content with
  | none => ⟨[], .error .unreadableToml⟩
  | some written =>
    match readVersion written with
    | .error problem => ⟨[], .error problem⟩
    | .ok version =>
      match settle written with
      | some table => ofTable version table
      | none => ⟨[], .error .unreadableToml⟩

/-! ### Configuration files -/

def noteUnknown (path : Text) : List Text → Plan Unit
  | [] => pure ()
  | key :: keys => do
    Plan.note (.unknownKey path key)
    noteUnknown path keys

/-- The configuration of a text that stands in the file at a path. -/
def parse (content path : Text) : Plan Config := do
  let reading := read content
  noteUnknown path reading.unknownKeys
  .ofExcept (reading.result.mapError fun problem => .config problem (some path))

def load (path : Text) : Plan Config := do
  parse (← Plan.readText path) path

/-- The first start of a path, of those with the given lengths, that holds a configuration file. The
search ends at the root of a repository. -/
def search (path : Text) : (lengths : List Nat) → Plan (Option Text)
  | [] => pure none
  | length :: lengths => do
    let dir := path.take length
    let candidate := Path.join dir fileName
    if ← Plan.request (.isFile candidate) then pure (some candidate)
    else if ← Plan.request (.has (Path.join dir repositoryMark)) then
      Plan.note (.repositoryRoot dir)
      pure none
    else search path lengths

/-- The configuration file of a run: the one asked for, which must be there, or else the one
nearest to a directory. -/
def locate (explicit : Option Text) (dir : Text) : Plan (Option Text) := do
  match explicit with
  | some path =>
    if ← Plan.request (.isFile path) then pure (some path)
    else .fail (.config (.fileNotFound path) (some path))
  | none => search dir (Path.ancestorLengths dir)

end Config
end PathRules
