import PathRules.Proofs.Document.Search
import PathRules.Proofs.Selection.Discovery
import Mathlib.Data.List.Forall2

/-!
# Division of the documents

The documents may be divided into pieces that are worked on apart, each with a cache of its own.
`division_selects_alike` shows that this changes nothing: every division gives what reading the
documents one after the other and without a cache gives.
-/

namespace PathRules.Selection

variable {disk : Disk} {location : RulesLocation} {files : List Text}

/-! ### Selection without a cache -/

/-- The rule of the document at a path, if it matches. -/
def ruleAt (disk : Disk) (files : List Text) (path : Text) : Except Fault (Option MatchedRule) :=
  match disk.textAt path with
  | .error problem => .error (.io path problem)
  | .ok content =>
    let document : Document := ⟨path, content⟩
    .ok (if document.Matches files then some document.toMatchedRule else none)

/-- The rules of the documents at paths that match, read one after the other. -/
def selectFrom (disk : Disk) (files : List Text) : List Text → Except Fault (List MatchedRule)
  | [] => .ok []
  | path :: paths => do
    let rule? ← ruleAt disk files path
    let rules ← selectFrom disk files paths
    .ok (rule?.toList ++ rules)

theorem ruleAt_eq_error {path : Text} {fault : Fault} :
    ruleAt disk files path = .error fault ↔
      ∃ problem, disk.textAt path = .error problem ∧ fault = .io path problem := by
  unfold ruleAt
  cases disk.textAt path with
  | error problem => simp [eq_comm]
  | ok content => simp

theorem selectFrom_cons_ok {path : Text} {paths : List Text} {rule? : Option MatchedRule}
    (first : ruleAt disk files path = .ok rule?) :
    selectFrom disk files (path :: paths) =
      (selectFrom disk files paths).map (rule?.toList ++ ·) := by
  rw [selectFrom, first]
  rfl

theorem selectFrom_cons_error {path : Text} {paths : List Text} {fault : Fault}
    (first : ruleAt disk files path = .error fault) :
    selectFrom disk files (path :: paths) = .error fault := by
  rw [selectFrom, first]
  rfl

theorem selectFrom_cons_eq_ok {path : Text} {paths : List Text} {rules : List MatchedRule}
    (selected : selectFrom disk files (path :: paths) = .ok rules) :
    ∃ rule? later, ruleAt disk files path = .ok rule? ∧
      selectFrom disk files paths = .ok later ∧ rule?.toList ++ later = rules := by
  rw [selectFrom] at selected
  obtain ⟨rule?, first, selected⟩ := bind_ok selected
  obtain ⟨later, rest, selected⟩ := bind_ok selected
  exact ⟨rule?, later, first, rest, Except.ok.inj selected⟩

theorem selectFrom_append (paths others : List Text) :
    selectFrom disk files (paths ++ others) = (do
      let rules ← selectFrom disk files paths
      let later ← selectFrom disk files others
      .ok (rules ++ later)) := by
  induction paths with
  | nil =>
    cases later : selectFrom disk files others <;> simp [selectFrom, later, bind, Except.bind]
  | cons path paths ih =>
    cases first : ruleAt disk files path with
    | error fault =>
      rw [List.cons_append, selectFrom_cons_error first, selectFrom_cons_error first]
      rfl
    | ok rule? =>
      rw [List.cons_append, selectFrom_cons_ok first, selectFrom_cons_ok first, ih]
      cases selectFrom disk files paths with
      | error fault => rfl
      | ok rules =>
        cases selectFrom disk files others with
        | error fault => rfl
        | ok later => simp [Except.map, bind, Except.bind]

/-- Selection fails only with the fault of a document. -/
theorem selectFrom_eq_error {paths : List Text} {fault : Fault}
    (failed : selectFrom disk files paths = .error fault) :
    ∃ path ∈ paths, ruleAt disk files path = .error fault := by
  induction paths with
  | nil => cases failed
  | cons path paths ih =>
    cases first : ruleAt disk files path with
    | error other =>
      rw [selectFrom_cons_error first] at failed
      have same := Except.error.inj failed
      subst same
      exact ⟨path, by simp, first⟩
    | ok rule? =>
      rw [selectFrom_cons_ok first] at failed
      cases rest : selectFrom disk files paths with
      | ok rules => rw [rest] at failed; cases failed
      | error other =>
        rw [rest] at failed
        have same : other = fault := Except.error.inj failed
        subst same
        obtain ⟨later, member, broken⟩ := ih rest
        exact ⟨later, by simp [member], broken⟩

theorem selectFrom_fails {paths : List Text} {path : Text} {fault : Fault} (member : path ∈ paths)
    (broken : ruleAt disk files path = .error fault) :
    ∃ other, selectFrom disk files paths = .error other := by
  induction paths with
  | nil => cases member
  | cons first paths ih =>
    cases found : ruleAt disk files first with
    | error other => exact ⟨other, selectFrom_cons_error found⟩
    | ok rule? =>
      rw [selectFrom_cons_ok found]
      rcases List.mem_cons.mp member with rfl | later
      · rw [broken] at found; cases found
      · obtain ⟨other, failed⟩ := ih later
        exact ⟨other, by rw [failed]; rfl⟩

/-! ### Pieces with caches -/

theorem noteRejected_result (errors : List Glob.CompileError) :
    ((noteRejected errors).run disk).result = .ok () := by
  induction errors with
  | nil => rfl
  | cons error errors ih =>
    unfold noteRejected
    rw [Plan.result_note_bind, ih]

/-- The cache that a document is matched with does not show in its rule. -/
theorem matchDocument_result (disk : Disk) (files : List Text) (cache : Glob.Cache)
    (path : Text) :
    ((matchDocument files cache path).run disk).result.map Prod.fst =
      ruleAt disk files path := by
  unfold matchDocument load ruleAt
  cases read : disk.textAt path with
  | error problem =>
    have failed := Plan.readText_of_unreadable read
    rw [Plan.result_bind_error (Plan.result_bind_error failed)]
    rfl
  | ok content =>
    have loaded := Plan.readText_of_readable read
    rw [Plan.result_bind_ok (Plan.result_bind_ok loaded)]
    dsimp only
    split
    · next none_declared =>
      have noMatch : ¬ (Document.mk path content).Matches files :=
        Document.not_matches_of_patterns_eq_nil (List.isEmpty_iff.mp none_declared)
      rw [if_neg noMatch, Plan.result_note_bind]
      rfl
    · rw [Plan.result_bind_ok (noteRejected_result _)]
      have found_iff := Document.firstMatch_isSome ⟨path, content⟩ files cache
      split
      · next nothing =>
        rw [nothing] at found_iff
        rw [if_neg fun doesMatch => by simpa using found_iff.mpr doesMatch]
        rfl
      · next glob file something =>
        rw [something] at found_iff
        rw [if_pos (found_iff.mp rfl), Plan.result_note_bind]
        rfl

theorem matchPiece_result (disk : Disk) (files : List Text) (cache : Glob.Cache)
    (paths : List Text) :
    ((matchPiece files cache paths).run disk).result = selectFrom disk files paths := by
  -- The cache that a document leaves goes to the next one, so the induction is over all caches.
  induction paths generalizing cache with
  | nil => rfl
  | cons path paths ih =>
    have first := matchDocument_result disk files cache path
    unfold matchPiece
    cases matched : ((matchDocument files cache path).run disk).result with
    | error fault =>
      rw [matched] at first
      rw [Plan.result_bind_error matched, selectFrom_cons_error first.symm]
    | ok answer =>
      rw [matched] at first
      rw [Plan.result_bind_ok matched, selectFrom_cons_ok first.symm]
      dsimp only
      cases rest : selectFrom disk files paths with
      | error fault =>
        rw [Plan.result_bind_error ((ih answer.2).trans rest)]
        rfl
      | ok rules =>
        rw [Plan.result_bind_ok ((ih answer.2).trans rest)]
        rfl

theorem matchPieces_result (disk : Disk) (files : List Text) (pieces : List (List Text)) :
    ((matchPieces files pieces).run disk).result = selectFrom disk files pieces.flatten := by
  induction pieces with
  | nil => rfl
  | cons piece pieces ih =>
    have first := matchPiece_result disk files .empty piece
    unfold matchPieces
    rw [List.flatten_cons, selectFrom_append]
    cases head : selectFrom disk files piece with
    | error fault =>
      rw [Plan.result_bind_error (first.trans head)]
      rfl
    | ok rules =>
      rw [Plan.result_bind_ok (first.trans head)]
      cases tail : selectFrom disk files pieces.flatten with
      | error fault =>
        rw [Plan.result_bind_error (ih.trans tail)]
        rfl
      | ok later =>
        rw [Plan.result_bind_ok (ih.trans tail)]
        rfl

theorem matchRulesIn_nil (disk : Disk) (divide : List Text → List (List Text))
    (location : RulesLocation) : ((matchRulesIn divide [] location).run disk).result = .ok [] := by
  rfl

/-- The paths of the rule documents at a place, in the order of their names. -/
def rulePaths (disk : Disk) (location : RulesLocation) : List Text :=
  (ruleNames disk location).map (Path.join location.dir)

theorem matchRulesIn_result {divide : List Text → List (List Text)} (some_changed : files ≠ [])
    (divides : (divide (rulePaths disk location)).flatten = rulePaths disk location) :
    ((matchRulesIn divide files location).run disk).result =
      selectFrom disk files (rulePaths disk location) := by
  unfold matchRulesIn
  rw [if_neg (by simpa using some_changed), Plan.result_bind_ok (discover_result disk location),
    matchPieces_result]
  rw [rulePaths] at divides
  rw [divides, rulePaths]

/-! ### Pieces that are worked on at once -/

/-- What may come out of pieces that are worked on at once: the rules of all in order, or the fault
of any piece that fails. -/
def Gathers (outcomes : List (Except Fault (List MatchedRule)))
    (result : Except Fault (List MatchedRule)) : Prop :=
  (∃ rules : List (List MatchedRule), outcomes = rules.map .ok ∧ result = .ok rules.flatten) ∨
    ∃ fault, .error fault ∈ outcomes ∧ result = .error fault

/-- At most one of the rule documents at a place is not UTF-8. -/
def AtMostOneUndecodable (disk : Disk) (location : RulesLocation) : Prop :=
  ∀ a b, IsRuleFile disk location a → IsRuleFile disk location b →
    disk.textAt (Path.join location.dir a) = .error .invalidUtf8 →
    disk.textAt (Path.join location.dir b) = .error .invalidUtf8 → a = b

theorem mem_rulePaths {path : Text} :
    path ∈ rulePaths disk location ↔
      ∃ name, IsRuleFile disk location name ∧ path = Path.join location.dir name := by
  simp [rulePaths, mem_ruleNames, eq_comm]

theorem AtMostOneUndecodable.of_only (only : Text)
    (undecodable : ∀ name, IsRuleFile disk location name →
      disk.textAt (Path.join location.dir name) = .error .invalidUtf8 → name = only) :
    AtMostOneUndecodable disk location := by
  intro a b aFile bFile aRead bRead
  rw [undecodable a aFile aRead, undecodable b bFile bRead]

/-- The faults of two rule documents are the same one. -/
theorem fault_unique (one : AtMostOneUndecodable disk location) {path other : Text}
    {fault another : Fault} (member : path ∈ rulePaths disk location)
    (present : other ∈ rulePaths disk location) (broken : ruleAt disk files path = .error fault)
    (wrong : ruleAt disk files other = .error another) : fault = another := by
  obtain ⟨a, aFile, rfl⟩ := mem_rulePaths.mp member
  obtain ⟨b, bFile, rfl⟩ := mem_rulePaths.mp present
  obtain ⟨problem, aRead, rfl⟩ := ruleAt_eq_error.mp broken
  obtain ⟨trouble, bRead, rfl⟩ := ruleAt_eq_error.mp wrong
  have aCause := Disk.textAt_of_isFile aFile.isFile aRead
  have bCause := Disk.textAt_of_isFile bFile.isFile bRead
  subst problem trouble
  rw [one a b aFile bFile aRead bRead]

theorem selectFrom_flatten_eq_ok {pieces : List (List Text)} {rules : List MatchedRule} :
    selectFrom disk files pieces.flatten = .ok rules ↔
      ∃ lists : List (List MatchedRule),
        pieces.map (selectFrom disk files) = lists.map .ok ∧ rules = lists.flatten := by
  induction pieces generalizing rules with
  | nil =>
    constructor
    · intro whole
      exact ⟨[], rfl, (Except.ok.inj whole).symm⟩
    · rintro ⟨lists, all, rfl⟩
      rw [List.map_eq_nil_iff.mp all.symm]
      rfl
  | cons piece pieces ih =>
    rw [List.flatten_cons, selectFrom_append]
    constructor
    · intro whole
      obtain ⟨found, first, whole⟩ := bind_ok whole
      obtain ⟨later, rest, whole⟩ := bind_ok whole
      obtain ⟨lists, all, rfl⟩ := ih.mp rest
      refine ⟨found :: lists, ?_, (Except.ok.inj whole).symm⟩
      rw [List.map_cons, List.map_cons, first, all]
    · rintro ⟨lists, all, rfl⟩
      cases lists with
      | nil => cases all
      | cons found lists =>
        obtain ⟨first, rest⟩ := List.cons.inj all
        rw [first, ih.mpr ⟨lists, rest, rfl⟩]
        rfl

theorem gathers_iff (one : AtMostOneUndecodable disk location) {pieces : List (List Text)}
    (divides : pieces.flatten = rulePaths disk location)
    {result : Except Fault (List MatchedRule)} :
    Gathers (pieces.map (selectFrom disk files)) result ↔
      result = selectFrom disk files (rulePaths disk location) := by
  have inside {piece : List Text} {path : Text} (held : piece ∈ pieces) (member : path ∈ piece) :
      path ∈ rulePaths disk location := by
    rw [← divides]
    exact List.mem_flatten.mpr ⟨piece, held, member⟩
  constructor
  · rintro (⟨rules, all, rfl⟩ | ⟨fault, failed, rfl⟩)
    · rw [← divides, selectFrom_flatten_eq_ok.mpr ⟨rules, all, rfl⟩]
    · -- The failing piece holds an undecodable document, and the whole fails with the same one.
      obtain ⟨piece, held, outcome⟩ := List.mem_map.mp failed
      obtain ⟨path, member, broken⟩ := selectFrom_eq_error outcome
      obtain ⟨other, whole⟩ := selectFrom_fails (inside held member) broken
      obtain ⟨another, present, wrong⟩ := selectFrom_eq_error whole
      rw [whole, fault_unique one (inside held member) present broken wrong]
  · rintro rfl
    cases whole : selectFrom disk files (rulePaths disk location) with
    | ok rules =>
      rw [← divides] at whole
      obtain ⟨lists, all, same⟩ := selectFrom_flatten_eq_ok.mp whole
      exact .inl ⟨lists, all, congrArg _ same⟩
    | error fault =>
      obtain ⟨path, member, broken⟩ := selectFrom_eq_error whole
      have cut := member
      rw [← divides] at cut
      obtain ⟨piece, held, inPiece⟩ := List.mem_flatten.mp cut
      obtain ⟨other, failed⟩ := selectFrom_fails inPiece broken
      obtain ⟨another, present, wrong⟩ := selectFrom_eq_error failed
      have same := fault_unique one member (inside held present) broken wrong
      exact .inr ⟨fault, List.mem_map.mpr ⟨piece, held, same ▸ failed⟩, rfl⟩

/-! ### What is selected -/

/-- The document at a path can be read, and matches. -/
def MatchesAt (disk : Disk) (files : List Text) (path : Text) : Prop :=
  ∃ content, disk.textAt path = .ok content ∧ (Document.mk path content).Matches files

/-- The rule reports the document at a path. -/
def Reports (disk : Disk) (path : Text) (rule : MatchedRule) : Prop :=
  rule.path = path ∧
    ∃ content, disk.textAt path = .ok content ∧ rule.body = Frontmatter.body content

/-- The rules report the documents at a place that match, in the byte order of their names. -/
def IsSelection (disk : Disk) (location : RulesLocation) (files : List Text)
    (rules : List MatchedRule) : Prop :=
  ∃ names : List Text,
    (names.Pairwise fun a b => Text.bytes a < Text.bytes b) ∧
    (∀ name, name ∈ names ↔ IsRuleFile disk location name ∧
      MatchesAt disk files (Path.join location.dir name)) ∧
    List.Forall₂ (fun name => Reports disk (Path.join location.dir name)) names rules

theorem Reports.unique {path : Text} {rule other : MatchedRule} (reported : Reports disk path rule)
    (again : Reports disk path other) : rule = other := by
  rcases rule with ⟨_, _⟩
  rcases other with ⟨_, _⟩
  obtain ⟨rfl, content, read, rfl⟩ := reported
  obtain ⟨rfl, _, reread, rfl⟩ := again
  rw [Except.ok.inj (read.symm.trans reread)]

theorem IsSelection.unique {rules others : List MatchedRule}
    (selection : IsSelection disk location files rules)
    (again : IsSelection disk location files others) : rules = others := by
  obtain ⟨names, ascending, members, reports⟩ := selection
  obtain ⟨names_again, ascending_again, members_again, reports_again⟩ := again
  obtain rfl : names = names_again := Text.Ascending.eq_of_mem_iff ascending ascending_again
    fun name => (members name).trans (members_again name).symm
  have determined : Relator.RightUnique fun name => Reports disk (Path.join location.dir name) :=
    fun _ _ _ => Reports.unique
  exact List.right_unique_forall₂' determined reports reports_again

theorem ruleAt_eq_some {path : Text} {rule : MatchedRule}
    (matched : ruleAt disk files path = .ok (some rule)) :
    MatchesAt disk files path ∧ Reports disk path rule := by
  unfold ruleAt at matched
  cases read : disk.textAt path with
  | error problem => rw [read] at matched; cases matched
  | ok content =>
    rw [read] at matched
    dsimp only at matched
    split at matched
    · next doesMatch =>
      have same := Option.some.inj (Except.ok.inj matched)
      subst rule
      exact ⟨⟨content, read, doesMatch⟩, rfl, content, read, rfl⟩
    · cases matched

theorem ruleAt_eq_none {path : Text} (unmatched : ruleAt disk files path = .ok none) :
    ¬ MatchesAt disk files path := by
  rintro ⟨content, read, doesMatch⟩
  unfold ruleAt at unmatched
  rw [read] at unmatched
  simp only [if_pos doesMatch] at unmatched
  cases unmatched

/-- Selecting from the documents of names reports those of the names whose documents match. -/
theorem selectFrom_reports {dir : Text} {names : List Text} {rules : List MatchedRule}
    (selected : selectFrom disk files (names.map (Path.join dir)) = .ok rules) :
    ∃ kept : List Text, kept.Sublist names ∧
      (∀ name, name ∈ kept ↔ name ∈ names ∧ MatchesAt disk files (Path.join dir name)) ∧
      List.Forall₂ (fun name => Reports disk (Path.join dir name)) kept rules := by
  induction names generalizing rules with
  | nil =>
    have none_left := Except.ok.inj selected
    subst rules
    exact ⟨[], .slnil, by simp, .nil⟩
  | cons name names ih =>
    rw [List.map_cons] at selected
    obtain ⟨rule?, later, first, rest, rfl⟩ := selectFrom_cons_eq_ok selected
    obtain ⟨kept, sublist, members, reports⟩ := ih rest
    cases rule? with
    | none =>
      have unmatched := ruleAt_eq_none first
      refine ⟨kept, sublist.cons name, ?_, reports⟩
      intro other
      rw [members other]
      constructor
      · exact fun ⟨present, matched⟩ => ⟨List.mem_cons_of_mem _ present, matched⟩
      · rintro ⟨present, matched⟩
        rcases List.mem_cons.mp present with rfl | present
        · exact absurd matched unmatched
        · exact ⟨present, matched⟩
    | some rule =>
      obtain ⟨matched, reported⟩ := ruleAt_eq_some first
      refine ⟨name :: kept, sublist.cons_cons name, ?_, .cons reported reports⟩
      intro other
      rw [List.mem_cons, List.mem_cons, members other]
      constructor
      · rintro (rfl | ⟨present, isMatch⟩)
        · exact ⟨.inl rfl, matched⟩
        · exact ⟨.inr present, isMatch⟩
      · rintro ⟨rfl | present, isMatch⟩
        · exact .inl rfl
        · exact .inr ⟨present, isMatch⟩

theorem isSelection_of_selectFrom {rules : List MatchedRule}
    (selected : selectFrom disk files (rulePaths disk location) = .ok rules) :
    IsSelection disk location files rules := by
  obtain ⟨kept, sublist, members, reports⟩ := selectFrom_reports selected
  refine ⟨kept, (ruleNames_ascending disk location).sublist sublist, ?_, reports⟩
  intro name
  rw [members name, mem_ruleNames]

theorem selectFrom_of_readable
    (readable : ∀ name, IsRuleFile disk location name →
      ∃ content, disk.textAt (Path.join location.dir name) = .ok content) :
    ∃ rules, selectFrom disk files (rulePaths disk location) = .ok rules := by
  cases whole : selectFrom disk files (rulePaths disk location) with
  | ok rules => exact ⟨rules, rfl⟩
  | error fault =>
    obtain ⟨path, member, broken⟩ := selectFrom_eq_error whole
    obtain ⟨name, isFile, rfl⟩ := mem_rulePaths.mp member
    obtain ⟨problem, failed, _⟩ := ruleAt_eq_error.mp broken
    obtain ⟨content, read⟩ := readable name isFile
    rw [failed] at read
    cases read

theorem selectFrom_of_unreadable (one : AtMostOneUndecodable disk location) {name : Text}
    {problem : ReadProblem} (isFile : IsRuleFile disk location name)
    (failed : disk.textAt (Path.join location.dir name) = .error problem) :
    selectFrom disk files (rulePaths disk location) =
      .error (.io (Path.join location.dir name) problem) := by
  have broken : ruleAt disk files (Path.join location.dir name) =
      .error (.io (Path.join location.dir name) problem) := ruleAt_eq_error.mpr ⟨_, failed, rfl⟩
  have member := mem_rulePaths.mpr ⟨name, isFile, rfl⟩
  obtain ⟨fault, whole⟩ := selectFrom_fails member broken
  obtain ⟨path, present, wrong⟩ := selectFrom_eq_error whole
  rw [whole, fault_unique one member present broken wrong]

/-- Selection does not depend on the division: without changed files it is empty and reads nothing,
else it is the selection made without a cache, also when the pieces are worked on at once. -/
theorem division_selects_alike (disk : Disk) (location : RulesLocation) (files : List Text) :
    (∀ divide, ((matchRulesIn divide [] location).run disk).result = .ok []) ∧
    (files ≠ [] → AtMostOneUndecodable disk location →
      ∃ paths expected,
        ((discover location.dir location.extension).run disk).result = .ok paths ∧
        expected = selectFrom disk files paths ∧
        (∀ divide : List Text → List (List Text), (divide paths).flatten = paths →
          ((matchRulesIn divide files location).run disk).result = expected) ∧
        (∀ pieces : List (List Text), pieces.flatten = paths → ∀ result,
          Gathers (pieces.map fun piece => ((matchPiece files .empty piece).run disk).result)
            result ↔ result = expected) ∧
        (∀ name problem, IsRuleFile disk location name →
          disk.textAt (Path.join location.dir name) = .error problem →
          expected = .error (.io (Path.join location.dir name) problem)) ∧
        ((∀ name, IsRuleFile disk location name →
            ∃ content, disk.textAt (Path.join location.dir name) = .ok content) →
          ∃ rules, expected = .ok rules ∧ IsSelection disk location files rules)) := by
  refine ⟨fun divide => matchRulesIn_nil disk divide location, fun some_changed one => ?_⟩
  refine ⟨rulePaths disk location, _, discover_result disk location, rfl, ?_, ?_, ?_, ?_⟩
  · intro divide divides
    exact matchRulesIn_result some_changed divides
  · intro pieces divides result
    simp only [matchPiece_result]
    exact gathers_iff one divides
  · intro name problem isFile failed
    exact selectFrom_of_unreadable one isFile failed
  · intro readable
    obtain ⟨rules, whole⟩ := selectFrom_of_readable readable
    exact ⟨rules, whole, isSelection_of_selectFrom whole⟩

/-- A directory with three rule documents, the second of them of these bytes. -/
def threeDocuments (second : ByteArray) : Disk where
  root := .directory [("docs".toList, .directory [
    ("a.md".toList, .file "---\npaths:\n- '*.rs'\n---\nFirst.".toUTF8),
    ("b.md".toList, .file second),
    ("c.md".toList, .file "---\npaths:\n- '**/*.rs'\n---\nThird.".toUTF8)])]
  workingDirectory := []

theorem atMostOneUndecodable_threeDocuments (second : ByteArray) :
    AtMostOneUndecodable (threeDocuments second) ⟨"docs".toList, "md".toList⟩ := by
  have listing : (threeDocuments second).names "docs".toList =
      .ok ["a.md".toList, "b.md".toList, "c.md".toList] := by rfl
  refine .of_only "b.md".toList fun name isFile undecodable => ?_
  have present := isFile.mem_names listing
  simp only [List.mem_cons, List.not_mem_nil, or_false] at present
  rcases present with rfl | rfl | rfl
  · cases undecodable
  · rfl
  · cases undecodable

theorem rulePaths_threeDocuments (second : ByteArray) :
    rulePaths (threeDocuments second) ⟨"docs".toList, "md".toList⟩ =
      ["docs/a.md".toList, "docs/b.md".toList, "docs/c.md".toList] := by
  have names : ruleNames (threeDocuments second) ⟨"docs".toList, "md".toList⟩ =
      ["a.md".toList, "b.md".toList, "c.md".toList].mergeSort Text.le := by rfl
  rw [rulePaths, names, List.mergeSort_of_pairwise (by decide)]
  rfl

/-- Divided into the first document and the other two, three documents are selected from as they
come, and fail as a whole if one of them is not UTF-8. -/
theorem division_selects_alike_of_three_documents :
    let place : RulesLocation := ⟨"docs".toList, "md".toList⟩
    let divide (paths : List Text) := [paths.take 1, paths.drop 1]
    let outcome (second : ByteArray) :=
      ((matchRulesIn divide ["main.rs".toList] place).run (threeDocuments second)).result
    divide (rulePaths (threeDocuments ⟨#[0xff]⟩) place) =
      [["docs/a.md".toList], ["docs/b.md".toList, "docs/c.md".toList]] ∧
    outcome ⟨#[0xff]⟩ = .error (.io "docs/b.md".toList .invalidUtf8) ∧
    outcome "---\npaths:\n- '*.py'\n---\nSecond.".toUTF8 =
      .ok [⟨"docs/a.md".toList, "First.".toList⟩, ⟨"docs/c.md".toList, "Third.".toList⟩] := by
  intro place divide outcome
  have each (second : ByteArray) : outcome second =
      selectFrom (threeDocuments second) ["main.rs".toList]
        ["docs/a.md".toList, "docs/b.md".toList, "docs/c.md".toList] := by
    obtain ⟨_, alike⟩ := division_selects_alike (threeDocuments second) place ["main.rs".toList]
    obtain ⟨paths, expected, listed, same, divided, _⟩ :=
      alike (by decide) (atMostOneUndecodable_threeDocuments second)
    obtain rfl : paths = rulePaths (threeDocuments second) place :=
      Except.ok.inj (listed.symm.trans (discover_result _ _))
    rw [← rulePaths_threeDocuments second, ← same]
    exact divided divide (by simp [divide, -List.drop_one])
  refine ⟨?_, ?_, ?_⟩
  · rw [rulePaths_threeDocuments]
    rfl
  · rw [each]
    decide +kernel
  · rw [each]
    decide +kernel

end PathRules.Selection
