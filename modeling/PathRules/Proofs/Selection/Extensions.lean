import PathRules.Proofs.Config.Reading
import PathRules.Proofs.Selection.Listing

/-!
# Extensions that select something

An extension is accepted if it does not consist of dots only. Whether there can be a rule document
with it is another question: it has to be what follows the last dot of a file name
(`accepted_selects_iff`), and `tar.gz` is not.
-/

namespace PathRules.Selection

/-- A directory holds a file of that name. -/
def HoldsFile (disk : Disk) (dir name : Text) : Prop :=
  ∃ entries bytes, disk.find dir = .ok (.directory entries) ∧
    entries.lookup name = some (.file bytes)

/-- Discovery with the extension lists the file of that name. -/
def IsListed (disk : Disk) (dir extension name : Text) : Prop :=
  ∃ paths, ((discover dir extension).run disk).result = .ok paths ∧ Path.join dir name ∈ paths

/-- Discovery with the extension lists some file, in some directory. -/
def Selectable (extension : Text) : Prop :=
  ∃ name, Path.IsName name ∧
    ∃ disk dir, HoldsFile disk dir name ∧ IsListed disk dir extension name

/-- Discovery with the extension lists the files of some name, wherever there is one. -/
def SurelySelectable (extension : Text) : Prop :=
  ∃ name, Path.IsName name ∧
    ∀ disk dir, HoldsFile disk dir name →
      Text.byteLength (Path.join dir name) ≤ Disk.maxPathLength →
      IsListed disk dir extension name

/-- What can follow the last dot of a file name. -/
structure EndsNames (extension : Text) : Prop where
  dotless : '.' ∉ extension
  whole : '/' ∉ extension
  zeroFree : '\x00' ∉ extension
  /-- There is room for the dot and a character in front of it. -/
  short : Text.byteLength extension + 2 ≤ Disk.maxNameLength

/-- A text is accepted as an extension, on the command line or in a configuration file, and becomes
the other one. -/
inductive Accepted (given : Text) : Text → Prop where
  | override {location moved : RulesLocation} {dir : Option Text} :
      location.override dir (some given) = .ok moved → Accepted given moved.extension
  | parse {content path : Text} {table rules : Toml.Table} {disk : Disk} {config : Config} :
      Config.Holds content table →
      table.get? (Text.of "rules") = some (.table rules) →
      rules.get? (Text.of "extension") = some (.string given) →
      ((Config.parse content path).run disk).result = .ok config →
      Accepted given config.rules.extension

/-! ### Listed files -/

section

variable {disk : Disk} {dir extension name : Text}

theorem isListed_iff (proper : Path.IsName name) (present : HoldsFile disk dir name) :
    IsListed disk dir extension name ↔
      Text.byteLength (Path.join dir name) ≤ Disk.maxPathLength ∧
      '.' ∉ extension ∧ ∃ stem, stem ≠ [] ∧ name = stem ++ '.' :: extension := by
  obtain ⟨entries, bytes, held, entry⟩ := present
  have listed : ((discover dir extension).run disk).result = _ :=
    discover_result disk ⟨dir, extension⟩
  have chosen : name ∈ ruleNames disk ⟨dir, extension⟩ ↔ _ :=
    mem_ruleNames.trans (isRuleFile_iff_entry held proper)
  simp only [entry, Option.some.injEq, Node.file.injEq, exists_eq', true_and] at chosen
  unfold IsListed
  rw [listed, ← chosen]
  constructor
  · rintro ⟨paths, same, member⟩
    obtain rfl := Except.ok.inj same
    obtain ⟨other, among, joined⟩ := List.mem_map.mp member
    exact Path.join_injective joined ▸ among
  · intro among
    exact ⟨_, rfl, List.mem_map_of_mem among⟩

theorem exists_holdsFile (proper : Path.IsName name) :
    ∃ disk dir, HoldsFile disk dir name ∧
      Text.byteLength (Path.join dir name) ≤ Disk.maxPathLength := by
  let disk : Disk := ⟨.directory [(name, .file ByteArray.empty)], [], ByteArray.empty⟩
  refine ⟨disk, ['/'], ⟨_, _, rfl, List.lookup_cons_self⟩, ?_⟩
  have short := proper.short
  have slash : Char.utf8Size '/' = 1 := rfl
  show Text.byteLength ('/' :: name) ≤ _
  rw [Text.byteLength_cons, slash]
  unfold Disk.maxPathLength
  unfold Disk.maxNameLength at short
  omega

end

/-! ### Selectable extensions -/

section

variable {stem extension : Text}

theorem endsNames_of_isName (proper : Path.IsName (stem ++ '.' :: extension))
    (nonempty : stem ≠ []) (dotless : '.' ∉ extension) : EndsNames extension := by
  have whole := proper.whole
  have zeroFree := proper.zeroFree
  have short := proper.short
  have room := Text.byteLength_pos nonempty
  have dot : Char.utf8Size '.' = 1 := rfl
  rw [Text.byteLength_append, Text.byteLength_cons, dot] at short
  simp only [List.mem_append, List.mem_cons, not_or] at whole zeroFree
  exact ⟨dotless, whole.2.2, zeroFree.2.2, by omega⟩

theorem isName_of_endsNames (ends : EndsNames extension) :
    Path.IsName ('x' :: '.' :: extension) := by
  have short := ends.short
  have sizes : Char.utf8Size 'x' = 1 ∧ Char.utf8Size '.' = 1 := ⟨rfl, rfl⟩
  refine ⟨by simp, by simp [ends.whole], by simp [ends.zeroFree], by simp, by simp, ?_⟩
  rw [Text.byteLength_cons, Text.byteLength_cons, sizes.1, sizes.2]
  omega

theorem endsNames_of_selectable (selectable : Selectable extension) : EndsNames extension := by
  obtain ⟨name, proper, disk, dir, present, listed⟩ := selectable
  obtain ⟨_, dotless, stem, nonempty, rfl⟩ := (isListed_iff proper present).mp listed
  exact endsNames_of_isName proper nonempty dotless

theorem surelySelectable_of_endsNames (ends : EndsNames extension) :
    SurelySelectable extension := by
  have proper := isName_of_endsNames ends
  refine ⟨_, proper, fun disk dir present short => ?_⟩
  exact (isListed_iff proper present).mpr ⟨short, ends.dotless, ['x'], by simp, rfl⟩

theorem SurelySelectable.selectable (surely : SurelySelectable extension) :
    Selectable extension := by
  obtain ⟨name, proper, everywhere⟩ := surely
  obtain ⟨disk, dir, present, short⟩ := exists_holdsFile proper
  exact ⟨name, proper, disk, dir, present, everywhere disk dir present short⟩

theorem selectable_iff : Selectable extension ↔ EndsNames extension :=
  ⟨endsNames_of_selectable, fun ends => (surelySelectable_of_endsNames ends).selectable⟩

theorem surelySelectable_iff : SurelySelectable extension ↔ EndsNames extension :=
  ⟨fun surely => endsNames_of_selectable surely.selectable, surelySelectable_of_endsNames⟩

end

/-! ### Accepted extensions -/

theorem Accepted.eq_stripDots {given extension : Text} (accepted : Accepted given extension) :
    extension = RulesLocation.stripDots given ∧ RulesLocation.stripDots given ≠ [] := by
  cases accepted with
  | @override location moved dir overridden =>
    by_cases dots : RulesLocation.stripDots given = []
    · rw [RulesLocation.override_some_of_dots location dir dots] at overridden
      cases overridden
    · exact ⟨congrArg RulesLocation.extension (RulesLocation.override_eq_ok overridden), dots⟩
  | parse held found entry parsed => exact held.extension found entry parsed

/-- An extension is accepted if something follows its leading dots, and that is what it becomes.
Discovery can list a file with it, and then the files of some name wherever there is one, if it can
follow the last dot of a file name, and only then. -/
theorem accepted_selects_iff (given : Text) :
    (∀ (location : RulesLocation) (dir : Option Text),
      (∃ moved, location.override dir (some given) = .ok moved) ↔
        RulesLocation.stripDots given ≠ []) ∧
    ∀ extension, Accepted given extension →
      extension = RulesLocation.stripDots given ∧ extension ≠ [] ∧
        (Selectable extension ↔ EndsNames extension) ∧
        (SurelySelectable extension ↔ EndsNames extension) := by
  refine ⟨fun location dir => ⟨?_, fun named => ?_⟩, fun extension accepted => ?_⟩
  · rintro ⟨moved, overridden⟩
    exact (Accepted.override overridden).eq_stripDots.2
  · exact ⟨_, RulesLocation.override_some_of_not_dots location dir named⟩
  · obtain ⟨rfl, named⟩ := accepted.eq_stripDots
    exact ⟨rfl, named, selectable_iff, surelySelectable_iff⟩

theorem accepted_selects_iff_dotted_word :
    Accepted ".mdc".toList "mdc".toList ∧ SurelySelectable "mdc".toList := by
  have accepted : Accepted ".mdc".toList "mdc".toList :=
    .override (rfl : RulesLocation.standard.override none (some ".mdc".toList) = .ok _)
  obtain ⟨_, _, _, surely⟩ := (accepted_selects_iff ".mdc".toList).2 _ accepted
  exact ⟨accepted, surely.mpr ⟨by decide, by decide, by decide, by decide⟩⟩

theorem inner_dot_accepted_not_selectable :
    let given : Text := "tar.gz".toList
    RulesLocation.standard.override none (some given) =
        .ok { RulesLocation.standard with extension := given } ∧
      ¬ Selectable given := by
  refine ⟨rfl, fun selectable => ?_⟩
  exact absurd (endsNames_of_selectable selectable).dotless (by decide)

end PathRules.Selection
