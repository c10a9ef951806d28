import PathRules.Proofs.Document.Search
import PathRules.Proofs.Frontmatter.Layout

/-!
# The first match of a document

A search takes the globs of a document in order, and the changed files in order for each of them.
`firstMatch_is_least` says that it finds the least pair, which globs it looks up on the way, and
that neither the cache nor globs that do not compile have a part in what it finds.
-/

namespace PathRules

namespace Document

/-! ### Places -/

/-- The glob at a place compiles and accepts the file at a place. -/
def AcceptsAt (globs files : List Text) (i j : Nat) : Prop :=
  ∃ glob file matcher, globs[i]? = some glob ∧ files[j]? = some file ∧
    Glob.compile glob = .ok matcher ∧ matcher.accepts file = true

/-- The least places of a glob and a file that it accepts: no earlier glob accepts any file, and
this glob no earlier file. -/
structure IsFirst (globs files : List Text) (i j : Nat) : Prop where
  accepts : AcceptsAt globs files i j
  least : ∀ k l, AcceptsAt globs files k l → i < k ∨ i = k ∧ j ≤ l

theorem IsFirst.unique {globs files : List Text} {i j k l : Nat} (one : IsFirst globs files i j)
    (other : IsFirst globs files k l) : i = k ∧ j = l := by
  have before := one.least k l other.accepts
  have after := other.least i j one.accepts
  omega

variable {files : List Text}

theorem firstAccepted_eq_some_iff {glob other file : Text} :
    firstAccepted files glob = some (other, file) ↔
      other = glob ∧ ∃ matcher, Glob.compile glob = .ok matcher ∧
        files.find? matcher.accepts = some file := by
  unfold firstAccepted
  cases Glob.compile glob with
  | error problem => simp [Except.toOption]
  | ok matcher =>
    simp only [Except.toOption, Option.bind_some, Option.map_eq_some_iff, Prod.mk.injEq,
      Except.ok.injEq, exists_eq_left']
    constructor
    · rintro ⟨_, found, rfl, rfl⟩
      exact ⟨rfl, found⟩
    · rintro ⟨rfl, found⟩
      exact ⟨file, found, rfl, rfl⟩

theorem firstAccepted_eq_none_of_error {glob : Text} {error : Glob.CompileError}
    (failed : Glob.compile glob = .error error) : firstAccepted files glob = none := by
  unfold firstAccepted
  rw [failed]
  rfl

theorem firstAccepted_ne_none {globs : List Text} {glob : Text} {i j : Nat}
    (accepted : AcceptsAt globs files i j) (there : globs[i]? = some glob) :
    firstAccepted files glob ≠ none := by
  obtain ⟨_, file, matcher, same, listed, compiled, accepts⟩ := accepted
  obtain rfl := Option.some.inj (there.symm.trans same)
  rw [← Option.isSome_iff_ne_none, firstAccepted_isSome]
  exact ⟨matcher, compiled, file, List.mem_of_getElem? listed, accepts⟩

/-- The first glob that accepts a file, and the first file it accepts, are at the least places. -/
theorem isFirst_of_firstAccepted {before : List Text} {glob file : Text}
    (passed : ∀ other ∈ before, firstAccepted files other = none)
    (accepted : firstAccepted files glob = some (glob, file)) (after : List Text) :
    ∃ j, IsFirst (before ++ glob :: after) files before.length j ∧ files[j]? = some file := by
  obtain ⟨_, matcher, compiled, found⟩ := firstAccepted_eq_some_iff.mp accepted
  obtain ⟨accepts, j, bound, same, earlier⟩ := List.find?_eq_some_iff_getElem.mp found
  have listed : files[j]? = some file := by rw [List.getElem?_eq_getElem bound, same]
  have here : (before ++ glob :: after)[before.length]? = some glob := by simp
  refine ⟨j, ⟨⟨glob, file, matcher, here, listed, compiled, accepts⟩, ?_⟩, listed⟩
  intro k l other
  -- No glob before this one accepts a file, and this one accepts none before its first.
  rcases Nat.lt_trichotomy k before.length with less | rfl | more
  · have there : (before ++ glob :: after)[k]? = some before[k] := by
      rw [List.getElem?_append_left less, List.getElem?_eq_getElem less]
    exact absurd (passed _ (List.getElem_mem less)) (firstAccepted_ne_none other there)
  · refine .inr ⟨rfl, Nat.le_of_not_lt fun less => ?_⟩
    obtain ⟨_, file, _, there, listed, compiled_other, accepts⟩ := other
    obtain rfl := Option.some.inj (here.symm.trans there)
    obtain rfl := Except.ok.inj (compiled.symm.trans compiled_other)
    obtain ⟨_, rfl⟩ := List.getElem?_eq_some_iff.mp listed
    simpa [accepts] using earlier l less
  · exact .inl more

/-! ### What a search looks up -/

/-- The globs that a search looks up: up to the first that accepts a file. -/
def tried (files : List Text) : List Text → List Text
  | [] => []
  | glob :: globs =>
    if (firstAccepted files glob).isSome then [glob] else glob :: tried files globs

theorem tried_of_passed {globs : List Text}
    (passed : ∀ glob ∈ globs, firstAccepted files glob = none) : tried files globs = globs := by
  induction globs with
  | nil => rfl
  | cons glob globs ih =>
    obtain ⟨first, passed⟩ := List.forall_mem_cons.mp passed
    rw [tried, first, ih passed]
    rfl

theorem tried_of_accepted {before : List Text} {glob : Text}
    (passed : ∀ other ∈ before, firstAccepted files other = none)
    (accepted : (firstAccepted files glob).isSome = true) (after : List Text) :
    tried files (before ++ glob :: after) = before ++ [glob] := by
  induction before with
  | nil => exact if_pos accepted
  | cons other before ih =>
    obtain ⟨first, passed⟩ := List.forall_mem_cons.mp passed
    rw [List.cons_append, tried, first, ih passed]
    rfl

/-- A search looks up these globs in a row, and nothing else changes the cache. -/
theorem search_lookups (files : List Text) (cache : Glob.Cache) (globs : List Text) :
    (search files cache globs).cache = cache.after (tried files globs) ∧
      (search files cache globs).rejected =
        (cache.lookups (tried files globs)).filterMap Glob.Cache.Lookup.report := by
  induction globs generalizing cache with
  | nil => exact ⟨rfl, rfl⟩
  | cons glob globs ih =>
    obtain ⟨laterCache, laterRejected⟩ := ih (cache.lookup glob).cache
    unfold search tried firstAccepted
    simp only [Glob.Cache.lookup_matcher, Option.isSome_map]
    split
    · next file accepted =>
      rw [accepted]
      refine ⟨rfl, ?_⟩
      cases report : (cache.lookup glob).report <;> simp [Glob.Cache.lookups, report]
    · next nothing =>
      rw [nothing]
      refine ⟨laterCache, ?_⟩
      dsimp only
      rw [laterRejected]
      cases report : (cache.lookup glob).report <;> simp [Glob.Cache.lookups, report]

/-- Globs that do not compile can be left out of a search. -/
theorem findSome?_filter_compiling (globs : List Text) :
    (globs.filter fun glob => (Glob.compile glob).isOk).findSome? (firstAccepted files) =
      globs.findSome? (firstAccepted files) := by
  induction globs with
  | nil => rfl
  | cons glob globs ih =>
    rw [List.findSome?_cons, List.filter_cons]
    cases compiled : Glob.compile glob with
    | error problem =>
      rw [firstAccepted_eq_none_of_error compiled]
      exact ih
    | ok matcher =>
      have kept : (Except.ok matcher : Except Glob.CompileError Glob.Matcher).isOk = true := rfl
      rw [if_pos kept, List.findSome?_cons, ih]

/-! ### What a search finds -/

/-- How a search goes: it passes all globs, or ends at the least places. -/
theorem search_cases (files : List Text) (globs : List Text) :
    (globs.findSome? (firstAccepted files) = none ∧ (∀ i j, ¬ AcceptsAt globs files i j) ∧
        tried files globs = globs) ∨
      ∃ i j glob file, globs.findSome? (firstAccepted files) = some (glob, file) ∧
        IsFirst globs files i j ∧ globs[i]? = some glob ∧ files[j]? = some file ∧
        tried files globs = globs.take (i + 1) := by
  cases found : globs.findSome? (firstAccepted files) with
  | none =>
    have passed := List.findSome?_eq_none_iff.mp found
    refine .inl ⟨rfl, ?_, tried_of_passed passed⟩
    intro i j accepted
    obtain ⟨glob, _, _, there, _⟩ := id accepted
    exact firstAccepted_ne_none accepted there (passed glob (List.mem_of_getElem? there))
  | some pair =>
    obtain ⟨before, glob, after, rfl, accepted, passed⟩ := List.findSome?_eq_some_iff.mp found
    obtain ⟨other, file⟩ := pair
    obtain ⟨rfl, _⟩ := firstAccepted_eq_some_iff.mp accepted
    obtain ⟨j, first, listed⟩ := isFirst_of_firstAccepted passed accepted after
    have some_accepted : (firstAccepted files other).isSome = true := by rw [accepted]; rfl
    refine .inr ⟨before.length, j, other, file, rfl, first, by simp, listed, ?_⟩
    rw [tried_of_accepted passed some_accepted after, List.take_length_add_append, List.take_one]
    rfl

theorem firstMatch_eq_some_iff {document : Document} {cache : Glob.Cache} {glob file : Text} :
    (document.firstMatch files cache).found = some (glob, file) ↔
      ∃ i j, IsFirst document.patterns files i j ∧
        document.patterns[i]? = some glob ∧ files[j]? = some file := by
  rw [firstMatch_found]
  obtain ⟨nothing, refused, _⟩ | ⟨i, j, _, _, pair, least, there, listed, _⟩ :=
    search_cases files document.patterns
  · rw [nothing]
    constructor
    · intro found
      cases found
    · rintro ⟨i, j, least, _⟩
      exact absurd least.accepts (refused i j)
  · rw [pair]
    constructor
    · rintro ⟨⟩
      exact ⟨i, j, least, there, listed⟩
    · rintro ⟨k, l, other, same, alike⟩
      obtain ⟨rfl, rfl⟩ := least.unique other
      rw [there] at same
      rw [listed] at alike
      rw [Option.some.inj same, Option.some.inj alike]

theorem firstMatch_eq_none_iff {document : Document} {cache : Glob.Cache} :
    (document.firstMatch files cache).found = none ↔
      ∀ i j, ¬ AcceptsAt document.patterns files i j := by
  rw [firstMatch_found]
  obtain ⟨nothing, refused, _⟩ | ⟨i, j, _, _, pair, least, _⟩ :=
    search_cases files document.patterns
  · rw [nothing]
    exact ⟨fun _ => refused, fun _ => rfl⟩
  · rw [pair]
    exact ⟨nofun, fun refused => absurd least.accepts (refused i j)⟩

theorem tried_of_isFirst {globs : List Text} {i j : Nat} (least : IsFirst globs files i j) :
    tried files globs = globs.take (i + 1) := by
  obtain ⟨_, refused, _⟩ | ⟨k, l, _, _, _, other, _, _, looks⟩ := search_cases files globs
  · exact absurd least.accepts (refused i j)
  · obtain ⟨rfl, _⟩ := least.unique other
    exact looks

theorem tried_of_refused {globs : List Text} (refused : ∀ i j, ¬ AcceptsAt globs files i j) :
    tried files globs = globs := by
  obtain ⟨_, _, looks⟩ | ⟨i, j, _, _, _, least, _⟩ := search_cases files globs
  · exact looks
  · exact absurd least.accepts (refused i j)

theorem isMatched_iff {document : Document} {cache : Glob.Cache} :
    (document.isMatched files cache).1 = true ↔ ∃ i j, AcceptsAt document.patterns files i j := by
  unfold isMatched
  rw [Option.isSome_iff_ne_none, ne_eq, firstMatch_eq_none_iff]
  simp only [not_forall, not_not]

/-! ### What a search leaves -/

theorem mem_globs_firstMatch {document : Document} {cache : Glob.Cache} {glob : Text} :
    glob ∈ (document.firstMatch files cache).cache.globs ↔
      glob ∈ cache.globs ∨ glob ∈ tried files document.patterns := by
  rw [firstMatch, (search_lookups files cache document.patterns).1, Glob.Cache.mem_globs_after]

/-- A second search finds the same, changes nothing and reports nothing. -/
theorem firstMatch_again (document : Document) (files : List Text) (cache : Glob.Cache) :
    document.firstMatch files (document.firstMatch files cache).cache =
      { document.firstMatch files cache with rejected := [] } := by
  have known : ∀ glob ∈ tried files document.patterns,
      glob ∈ (document.firstMatch files cache).cache.globs :=
    fun glob member => mem_globs_firstMatch.mpr (.inr member)
  generalize left : (document.firstMatch files cache).cache = next at known
  obtain ⟨unchanged, silent⟩ := search_lookups files next document.patterns
  rw [Glob.Cache.after_of_known known] at unchanged
  rw [Glob.Cache.reports_of_known known] at silent
  have same : (search files next document.patterns).found =
      (search files cache document.patterns).found := by
    rw [search_found, search_found]
  change (⟨(search files next document.patterns).found, (search files next document.patterns).cache,
    (search files next document.patterns).rejected⟩ : Search) = _
  rw [same, unchanged, silent, ← left]
  rfl

/-- The first match of a document is the pair at the least places, whatever the cache holds. Of the
globs those up to this pair are looked up, so that a second search finds them all in the cache, and
those that do not compile may as well not be there. -/
theorem firstMatch_is_least (document : Document) (files : List Text) (cache : Glob.Cache) :
    let first := document.firstMatch files cache
    (∀ glob file, first.found = some (glob, file) ↔
      ∃ i j, IsFirst document.patterns files i j ∧
        document.patterns[i]? = some glob ∧ files[j]? = some file) ∧
    (first.found = none ↔ ∀ i j, ¬ AcceptsAt document.patterns files i j) ∧
    (∀ other, (document.firstMatch files other).found = first.found) ∧
    (∀ i j, IsFirst document.patterns files i j → ∀ glob, glob ∈ first.cache.globs ↔
      glob ∈ cache.globs ∨ glob ∈ document.patterns.take (i + 1)) ∧
    (first.found = none → ∀ glob, glob ∈ first.cache.globs ↔
      glob ∈ cache.globs ∨ glob ∈ document.patterns) ∧
    ((document.isMatched files cache).1 = true ↔ ∃ i j, AcceptsAt document.patterns files i j) ∧
    (document.isMatched files cache).2 = first.cache ∧
    document.firstMatch files first.cache = { first with rejected := [] } ∧
    document.isMatched files first.cache = document.isMatched files cache ∧
    ∀ pruned : Document,
      pruned.patterns = (document.patterns.filter fun glob => (Glob.compile glob).isOk) →
      ∀ other, (pruned.firstMatch files other).found = first.found ∧
        (pruned.isMatched files other).1 = (document.isMatched files cache).1 := by
  intro first
  have again : document.firstMatch files first.cache = { first with rejected := [] } :=
    firstMatch_again document files cache
  refine ⟨fun _ _ => firstMatch_eq_some_iff, firstMatch_eq_none_iff, ?_, ?_, ?_, isMatched_iff, rfl,
    again, ?_, ?_⟩
  · intro other
    rw [firstMatch_found, firstMatch_found]
  · intro i j least glob
    rw [← tried_of_isFirst least]
    exact mem_globs_firstMatch
  · intro nothing glob
    rw [mem_globs_firstMatch, tried_of_refused (firstMatch_eq_none_iff.mp nothing)]
  · unfold isMatched
    dsimp only
    rw [again]
  · intro pruned kept other
    have same : (pruned.firstMatch files other).found = first.found := by
      rw [firstMatch_found, firstMatch_found, kept, findSome?_filter_compiling]
    refine ⟨same, ?_⟩
    unfold isMatched
    dsimp only
    rw [same]

theorem firstMatch_is_least_beside_too_large :
    let large := Glob.nested 50000
    let files : List Text := [['/'], ['a']]
    ∃ document pruned : Document, document.patterns = [large, ['*']] ∧ pruned.patterns = [['*']] ∧
      (document.firstMatch files .empty).found = some (['*'], ['a']) ∧
      (pruned.firstMatch files .empty).found = (document.firstMatch files .empty).found := by
  intro large files
  have written (globs : List Text) (inLine : ∀ glob ∈ globs, '\n' ∉ glob) :
      (Document.mk [] ((Frontmatter.Layout.usual globs inLine).write [])).patterns = globs := by
    rw [patterns, (Frontmatter.Layout.read_of_lines _ (Frontmatter.Layout.lines_write _ [])).1,
      Frontmatter.Layout.globs_usual]
  have inLine : ∀ glob ∈ [large, ['*']], '\n' ∉ glob := by
    simp [large, Glob.not_mem_nested]
  have whole := written [large, ['*']] inLine
  have rest := written [['*']] (by simp)
  have failed : Glob.compile large = .error (.tooLarge large) := Glob.compile_nested (by decide)
  have star : firstAccepted files ['*'] = some (['*'], ['a']) := by decide +kernel
  obtain ⟨_, _, _, _, _, _, _, _, _, pruning⟩ :=
    firstMatch_is_least (.mk [] ((Frontmatter.Layout.usual [large, ['*']] inLine).write []))
      files .empty
  refine ⟨_, _, whole, rest, ?_, (pruning _ ?_ .empty).1⟩
  · rw [firstMatch_found, whole, List.findSome?_cons, firstAccepted_eq_none_of_error failed]
    simp [star]
  · rw [whole, rest, List.filter_cons, failed]
    rfl

end Document
end PathRules
