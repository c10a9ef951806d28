import PathRules.Proofs.Config.Reading

/-!
# Chains of overrides

A place of rule documents may be overridden several times in a row. Such a chain fails at the first
extension that consists of dots only, and leads to what is given last otherwise. No place on its way
has an extension that is empty or begins with a dot (`overrideAll_of_origin`).
-/

namespace PathRules.RulesLocation

/-- A directory and an extension that override others, where they are given. -/
structure Override where
  dir : Option Text
  extension : Option Text

def overrideAll (location : RulesLocation) (chain : List Override) : Except Fault RulesLocation :=
  chain.foldlM (fun reached given => reached.override given.dir given.extension) location

/-- An extension is given that consists of dots only, of none at all too. -/
def Override.OnlyDots (given : Override) (text : Text) : Prop :=
  given.extension = some text ∧ ∀ c ∈ text, c = '.'

def NamesAll (chain : List Override) : Prop :=
  ∀ given ∈ chain, ∀ text, ¬ given.OnlyDots text

/-- The directory and the extension that are given last, or those of the start. -/
def lastGiven (start : RulesLocation) (chain : List Override) : RulesLocation where
  dir := (chain.filterMap Override.dir).getLastD start.dir
  extension := ((chain.filterMap Override.extension).map stripDots).getLastD start.extension

structure Proper (location : RulesLocation) : Prop where
  named : location.extension ≠ []
  undotted : location.extension.head? ≠ some '.'

/-- A place that nothing has overridden yet. -/
inductive Origin : RulesLocation → Prop where
  | standard : Origin standard
  | inDirectory (dir : Text) : Origin (inDirectory dir)
  | parsed {content path : Text} {disk : Disk} {config : Config} :
      ((Config.parse content path).run disk).result = .ok config → Origin config.rules

variable {start location moved : RulesLocation} {given : Override} {chain before : List Override}
  {text : Text}

/-! ### One override -/

theorem override_of_named (named : ∀ text, ¬ given.OnlyDots text) (location : RulesLocation) :
    location.override given.dir given.extension = .ok (location.lastGiven [given]) := by
  obtain ⟨dir, extension⟩ := given
  cases extension with
  | none => cases dir <;> rfl
  | some text =>
    have something : stripDots text ≠ [] := fun nothing =>
      named text ⟨rfl, Config.stripDots_eq_nil_iff.mp nothing⟩
    rw [override_some_of_not_dots location dir something]
    cases dir <;> rfl

theorem override_of_onlyDots (dots : given.OnlyDots text) (location : RulesLocation) :
    location.override given.dir given.extension = .error (.argument (.namesNoExtension text)) := by
  obtain ⟨same, dots⟩ := dots
  rw [same]
  exact override_some_of_dots location given.dir (Config.stripDots_eq_nil_iff.mpr dots)

theorem head?_stripDots (text : Text) : (stripDots text).head? ≠ some '.' := by
  intro dotted
  have undotted := List.head?_dropWhile_not (· == '.') text
  unfold stripDots at dotted
  rw [dotted] at undotted
  simp at undotted

theorem Proper.override (proper : location.Proper) {dir extension : Option Text}
    (overridden : location.override dir extension = .ok moved) : moved.Proper := by
  cases extension with
  | none =>
    rw [override_eq_ok overridden]
    exact ⟨proper.named, proper.undotted⟩
  | some text =>
    by_cases dots : stripDots text = []
    · rw [override_some_of_dots location dir dots] at overridden
      cases overridden
    · rw [override_eq_ok overridden]
      exact ⟨dots, head?_stripDots text⟩

/-! ### Chains -/

theorem overrideAll_append (start : RulesLocation) (before after : List Override) :
    start.overrideAll (before ++ after) =
      start.overrideAll before >>= fun reached => reached.overrideAll after :=
  List.foldlM_append

theorem overrideAll_cons (start : RulesLocation) (given : Override) (chain : List Override) :
    start.overrideAll (given :: chain) =
      start.override given.dir given.extension >>= fun reached => reached.overrideAll chain :=
  List.foldlM_cons

theorem lastGiven_cons (start : RulesLocation) (given : Override) (chain : List Override) :
    start.lastGiven (given :: chain) = (start.lastGiven [given]).lastGiven chain := by
  obtain ⟨dir, extension⟩ := given
  cases dir <;> cases extension <;>
    simp only [lastGiven, List.filterMap_cons, List.filterMap_nil, List.map_cons, List.map_nil,
      List.getLastD_cons, List.getLastD_nil]

theorem overrideAll_of_namesAll (named : NamesAll chain) (start : RulesLocation) :
    start.overrideAll chain = .ok (start.lastGiven chain) := by
  induction chain generalizing start with
  | nil => rfl
  | cons given chain ih =>
    obtain ⟨here, others⟩ := List.forall_mem_cons.mp named
    rw [overrideAll_cons, override_of_named here, lastGiven_cons start given chain]
    exact ih others (start.lastGiven [given])

theorem overrideAll_of_first (named : NamesAll before) (dots : given.OnlyDots text)
    (start : RulesLocation) (after : List Override) :
    start.overrideAll (before ++ given :: after) =
      .error (.argument (.namesNoExtension text)) := by
  rw [overrideAll_append, overrideAll_of_namesAll named]
  show (start.lastGiven before).overrideAll (given :: after) = _
  rw [overrideAll_cons, override_of_onlyDots dots]
  rfl

theorem exists_first_onlyDots (unnamed : ¬ NamesAll chain) :
    ∃ before given after text, chain = before ++ given :: after ∧ NamesAll before ∧
      given.OnlyDots text := by
  obtain ⟨before, given, after, same, named, dots⟩ := Config.exists_first_failing unnamed
  obtain ⟨text, dots⟩ := Classical.not_forall_not.mp dots
  exact ⟨before, given, after, text, same, named, dots⟩

theorem overrideAll_eq_ok : start.overrideAll chain = .ok moved ↔
    NamesAll chain ∧ moved = start.lastGiven chain := by
  constructor
  · intro led
    by_cases named : NamesAll chain
    · rw [overrideAll_of_namesAll named] at led
      exact ⟨named, (Except.ok.inj led).symm⟩
    · obtain ⟨before, given, after, text, rfl, passed, dots⟩ := exists_first_onlyDots named
      rw [overrideAll_of_first passed dots] at led
      cases led
  · rintro ⟨named, rfl⟩
    exact overrideAll_of_namesAll named start

theorem overrideAll_eq_error {fault : Fault} : start.overrideAll chain = .error fault ↔
    ∃ before given after text, chain = before ++ given :: after ∧ NamesAll before ∧
      given.OnlyDots text ∧ fault = .argument (.namesNoExtension text) := by
  constructor
  · intro failed
    by_cases named : NamesAll chain
    · rw [overrideAll_of_namesAll named] at failed
      cases failed
    · obtain ⟨before, given, after, text, rfl, passed, dots⟩ := exists_first_onlyDots named
      rw [overrideAll_of_first passed dots] at failed
      exact ⟨before, given, after, text, rfl, passed, dots, (Except.error.inj failed).symm⟩
  · rintro ⟨before, given, after, text, rfl, passed, dots, rfl⟩
    exact overrideAll_of_first passed dots start after

/-- Every override keeps an extension that is proper, and so a chain of them does. -/
theorem Proper.overrideAll (proper : start.Proper) (led : start.overrideAll chain = .ok moved) :
    moved.Proper := by
  refine foldlM_keeps (m := Except _) (P := fun reached _ => reached.Proper) ?_ proper led
  intro location given next chain overridden proper
  exact proper.override overridden

/-! ### Where chains start -/

theorem proper_inDirectory (dir : Text) : (inDirectory dir).Proper := by
  have usual : (inDirectory dir).extension = "md".toList := Text.of_eq "md"
  constructor <;> rw [usual] <;> decide

theorem proper_of_parse {content path : Text} {disk : Disk} {config : Config}
    (parsed : ((Config.parse content path).run disk).result = .ok config) :
    config.rules.Proper := by
  rw [Config.parse_result, mapError_eq_ok] at parsed
  obtain ⟨dir, extension, ⟨_, _, _, _, _, declared⟩, same⟩ := Config.read_ok parsed
  rw [same]
  cases extension with
  | none => exact proper_inDirectory _
  | some normal =>
    rcases declared with ⟨_, _, absent⟩ | ⟨entries, _, sets⟩
    · cases absent
    · obtain ⟨_, ⟨written, _, stripped⟩, named⟩ := sets
      obtain ⟨text, _, rfl⟩ := Option.map_eq_some_iff.mp stripped.symm
      exact ⟨fun nothing => named (congrArg some nothing), head?_stripDots text⟩

theorem Origin.proper (origin : Origin start) : start.Proper := by
  cases origin with
  | standard => exact proper_inDirectory _
  | inDirectory dir => exact proper_inDirectory dir
  | parsed parsed => exact proper_of_parse parsed

/-- A chain of overrides succeeds if no extension given in it consists of dots only, and then leads
to the directory and the extension given last, this without the dots in front of it. Otherwise it
fails at the first override that gives dots. Up to there no place has an extension that is empty or
begins with a dot. -/
theorem overrideAll_of_origin (origin : Origin start) (chain : List Override) :
    ((∃ last, start.overrideAll chain = .ok last) ↔ NamesAll chain) ∧
    (∀ fault, start.overrideAll chain = .error fault ↔
      ∃ before given after text, chain = before ++ given :: after ∧ NamesAll before ∧
        given.OnlyDots text ∧ fault = .argument (.namesNoExtension text) ∧
        ∃ reached, start.overrideAll before = .ok reached ∧
          reached.override given.dir given.extension = .error fault) ∧
    (∀ last, start.overrideAll chain = .ok last →
      last.dir = (chain.filterMap Override.dir).getLastD start.dir ∧
      last.extension =
        ((chain.filterMap Override.extension).map stripDots).getLastD start.extension ∧
      ∀ before, before <+: chain → ∃ reached, start.overrideAll before = .ok reached) ∧
    ∀ before, before <+: chain → ∀ reached, start.overrideAll before = .ok reached →
      reached.extension ≠ [] ∧ reached.extension.head? ≠ some '.' := by
  refine ⟨?_, fun fault => ?_, fun last led => ?_, fun before _ reached led => ?_⟩
  · constructor
    · rintro ⟨last, led⟩
      exact (overrideAll_eq_ok.mp led).1
    · intro named
      exact ⟨_, overrideAll_of_namesAll named start⟩
  · rw [overrideAll_eq_error]
    constructor
    · rintro ⟨before, given, after, text, same, named, dots, rfl⟩
      exact ⟨before, given, after, text, same, named, dots, rfl, _,
        overrideAll_of_namesAll named start, override_of_onlyDots dots _⟩
    · rintro ⟨before, given, after, text, same, named, dots, rfl, _⟩
      exact ⟨before, given, after, text, same, named, dots, rfl⟩
  · obtain ⟨named, rfl⟩ := overrideAll_eq_ok.mp led
    refine ⟨rfl, rfl, fun before within => ?_⟩
    have earlier : NamesAll before := fun given member => named given (within.subset member)
    exact ⟨_, overrideAll_of_namesAll earlier start⟩
  · have proper := origin.proper.overrideAll led
    exact ⟨proper.named, proper.undotted⟩

/-! ### A chain on top of a file -/

def dottedRules : Toml.Table := [(Text.of "extension", .string "..mdc".toList)]

def dottedTable : Toml.Table :=
  [(Text.of "rules", .table dottedRules), (Text.of "version", .integer supportedVersion)]

def dottedText : Text := "rules.extension = '..mdc'\nversion = 1".toList

theorem holds_dottedTable : Config.Holds dottedText dottedTable := by
  have rules := Config.settles_rules dottedRules (by decide +kernel) rfl (by decide +kernel)
  refine ⟨dottedTable, by decide +kernel, Config.settle_of_sorted ?_ (by decide +kernel)⟩
  exact .cons rules (.cons ⟨rfl, rfl⟩ .nil)

theorem origin_dottedText : Origin ⟨".claude/rules".toList, "mdc".toList⟩ := by
  have read : (Config.read dottedText).result = .ok ⟨1, ".claude/rules".toList, "mdc".toList⟩ := by
    rw [holds_dottedTable.read]
    decide +kernel
  have parsed (disk : Disk) : ((Config.parse dottedText Config.fileName).run disk).result = _ :=
    (Config.parse_result _ _).trans (mapError_eq_ok.mpr read)
  exact .parsed (parsed { root := .directory [], workingDirectory := [] })

/-- An override fails that gives only dots as an extension, also if it gives a directory. -/
theorem overrideAll_of_origin_dottedText :
    let start : RulesLocation := ⟨".claude/rules".toList, "mdc".toList⟩
    let chain : List Override := [⟨some "docs".toList, none⟩, ⟨none, some "..txt".toList⟩]
    start.overrideAll chain = .ok ⟨"docs".toList, "txt".toList⟩ ∧
      start.overrideAll (chain ++ [⟨some "other".toList, some "..".toList⟩]) =
        .error (.argument (.namesNoExtension "..".toList)) := by
  intro start chain
  have named : NamesAll chain := by
    rintro given member text ⟨same, dots⟩
    rcases List.mem_pair.mp member with rfl | rfl
    · cases same
    · cases same
      exact absurd (dots 't' (by simp)) (by decide)
  obtain ⟨succeeds, _, leads, _⟩ := overrideAll_of_origin origin_dottedText chain
  constructor
  · obtain ⟨⟨dir, extension⟩, led⟩ := succeeds.mpr named
    obtain ⟨rfl, rfl, _⟩ := leads _ led
    exact led
  · obtain ⟨_, fails, _⟩ := overrideAll_of_origin origin_dottedText
      (chain ++ [⟨some "other".toList, some "..".toList⟩])
    exact (fails _).mpr ⟨chain, _, [], "..".toList, rfl, named, ⟨rfl, by simp⟩, rfl, _,
      overrideAll_of_namesAll named start, rfl⟩

end PathRules.RulesLocation
