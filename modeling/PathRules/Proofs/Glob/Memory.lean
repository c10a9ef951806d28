import PathRules.Proofs.Glob.Cutting
import PathRules.Glob.Cache
import Mathlib.Data.List.Induction

/-!
# Look-ups in a row

A cache answers as compiling afresh would, whatever was looked up before, and it keeps each glob
once. `lookups_answer_afresh` says this of any row of look-ups, and that a glob that does not
compile is reported at its first look-up and never again.
-/

namespace PathRules.Glob

namespace Cache

/-! ### One look-up -/

theorem get?_eq_some {cache : Cache} {glob : Text} {outcome : Option Matcher}
    (kept : cache.get? glob = some outcome) : outcome = (compile glob).toOption := by
  unfold get? at kept
  obtain ⟨entry, found, same⟩ := Option.map_eq_some_iff.mp kept
  have member := List.mem_of_find?_eq_some found
  have key : entry.1 = glob := by simpa using List.find?_some found
  rw [← same, cache.entries_sound entry member, key]

theorem lookup_matcher (cache : Cache) (glob : Text) :
    (cache.lookup glob).matcher = (compile glob).toOption := by
  unfold lookup
  split
  · next outcome kept => exact get?_eq_some kept
  · rfl

theorem lookup_of_mem {cache : Cache} {glob : Text} (known : glob ∈ cache.globs) :
    (cache.lookup glob).cache = cache ∧ (cache.lookup glob).report = none := by
  unfold lookup
  split
  · exact ⟨rfl, rfl⟩
  · next absent => exact absurd known (get?_eq_none_iff.mp absent)

theorem lookup_of_not_mem {cache : Cache} {glob : Text} (new : glob ∉ cache.globs) :
    (cache.lookup glob).cache.globs = glob :: cache.globs ∧
      (cache.lookup glob).report = compileError? glob := by
  unfold lookup
  split
  · next kept =>
    have absent := get?_eq_none_iff.mpr new
    rw [kept] at absent
    cases absent
  · exact ⟨rfl, rfl⟩

theorem mem_globs_lookup {cache : Cache} {glob other : Text} :
    other ∈ (cache.lookup glob).cache.globs ↔ other ∈ cache.globs ∨ other = glob := by
  by_cases known : glob ∈ cache.globs
  · rw [(lookup_of_mem known).1]
    constructor
    · exact Or.inl
    · rintro (member | rfl)
      · exact member
      · exact known
  · rw [(lookup_of_not_mem known).1, List.mem_cons, or_comm]

theorem size_eq (cache : Cache) : cache.size = cache.globs.length :=
  (List.length_map Prod.fst).symm

theorem isEmpty_iff (cache : Cache) : cache.isEmpty = true ↔ cache.globs = [] := by
  unfold isEmpty globs
  rw [List.isEmpty_iff, List.map_eq_nil_iff]

/-- An answer for a glob is what compiling it afresh gives: nothing if it does not compile, and a
matcher that nobody can tell from the fresh one if it does. -/
structure AnswersAfresh (glob : Text) (answer : Option Matcher) : Prop where
  none_iff : answer = none ↔ ∃ error, compile glob = .error error
  matcher : ∀ fresh, compile glob = .ok fresh →
    ∃ kept, answer = some kept ∧ kept.glob = glob ∧ kept.source = source glob ∧
      ∀ path, kept.accepts path = fresh.accepts path

theorem answersAfresh_lookup (cache : Cache) (glob : Text) :
    AnswersAfresh glob (cache.lookup glob).matcher := by
  rw [lookup_matcher]
  constructor
  · cases compile glob <;> simp [Except.toOption]
  · intro fresh compiled
    obtain ⟨sameGlob, tokens⟩ := compile_eq_ok compiled
    have written : fresh.source = source glob := by rw [Matcher.source, tokens, source]
    exact ⟨fresh, by rw [compiled]; rfl, sameGlob, written, fun _ => rfl⟩

/-! ### A row of look-ups -/

/-- Look-ups in a row, each in the cache that the one before it left. -/
def lookups (cache : Cache) : List Text → List Lookup
  | [] => []
  | glob :: globs => cache.lookup glob :: (cache.lookup glob).cache.lookups globs

def after (cache : Cache) (globs : List Text) : Cache :=
  globs.foldl (fun cache glob => (cache.lookup glob).cache) cache

theorem after_concat (cache : Cache) (globs : List Text) (glob : Text) :
    cache.after (globs ++ [glob]) = ((cache.after globs).lookup glob).cache := by
  unfold after
  rw [List.foldl_append]
  rfl

theorem lookups_append (cache : Cache) (globs others : List Text) :
    cache.lookups (globs ++ others) =
      cache.lookups globs ++ (cache.after globs).lookups others := by
  induction globs generalizing cache with
  | nil => rfl
  | cons glob globs ih =>
    rw [List.cons_append, lookups, ih, lookups, List.cons_append]
    rfl

theorem length_lookups (cache : Cache) (globs : List Text) :
    (cache.lookups globs).length = globs.length := by
  induction globs generalizing cache with
  | nil => rfl
  | cons glob globs ih => rw [lookups, List.length_cons, ih, List.length_cons]

theorem getElem?_lookups {cache : Cache} {globs : List Text} {place : Nat} {glob : Text}
    (there : globs[place]? = some glob) :
    (cache.lookups globs)[place]? = some ((cache.after (globs.take place)).lookup glob) := by
  induction globs generalizing cache place with
  | nil => cases there
  | cons first globs ih =>
    cases place with
    | zero =>
      obtain rfl := Option.some.inj there
      rfl
    | succ place =>
      rw [lookups, List.getElem?_cons_succ, ih there]
      rfl

theorem mem_globs_after {cache : Cache} {globs : List Text} {other : Text} :
    other ∈ (cache.after globs).globs ↔ other ∈ cache.globs ∨ other ∈ globs := by
  induction globs using List.reverseRecOn with
  | nil => simp [after]
  | append_singleton globs glob ih =>
    rw [after_concat, mem_globs_lookup, ih, List.mem_append, List.mem_singleton, or_assoc]

theorem after_of_known {cache : Cache} {globs : List Text}
    (known : ∀ glob ∈ globs, glob ∈ cache.globs) : cache.after globs = cache := by
  induction globs using List.reverseRecOn with
  | nil => rfl
  | append_singleton globs glob ih =>
    have before := ih fun other member => known other (List.mem_append_left _ member)
    rw [after_concat, before, (lookup_of_mem (known glob (by simp))).1]

theorem reports_of_known {cache : Cache} {globs : List Text}
    (known : ∀ glob ∈ globs, glob ∈ cache.globs) :
    (cache.lookups globs).filterMap Lookup.report = [] := by
  induction globs with
  | nil => rfl
  | cons glob globs ih =>
    obtain ⟨first, known⟩ := List.forall_mem_cons.mp known
    obtain ⟨unchanged, silent⟩ := lookup_of_mem first
    rw [lookups, unchanged, List.filterMap_cons, silent, ih known]

/-! ### A row of look-ups in a new cache -/

theorem eraseDups_concat_of_mem {globs : List Text} {glob : Text} (known : glob ∈ globs) :
    (globs ++ [glob]).eraseDups = globs.eraseDups := by
  simp [List.eraseDups_append, List.removeAll, known]

theorem eraseDups_concat_of_not_mem {globs : List Text} {glob : Text} (new : glob ∉ globs) :
    (globs ++ [glob]).eraseDups = globs.eraseDups ++ [glob] := by
  have single : [glob].eraseDups = [glob] := rfl
  simp [List.eraseDups_append, List.removeAll, new, single]

theorem mem_globs_after_empty {globs : List Text} {glob : Text} :
    glob ∈ (empty.after globs).globs ↔ glob ∈ globs := by
  rw [mem_globs_after]
  simp [empty, Cache.globs]

/-- The cache holds each glob once, the latest first. -/
theorem globs_after_empty (globs : List Text) :
    (empty.after globs).globs = globs.eraseDups.reverse := by
  induction globs using List.reverseRecOn with
  | nil => rfl
  | append_singleton globs glob ih =>
    rw [after_concat]
    by_cases known : glob ∈ globs
    · rw [(lookup_of_mem (mem_globs_after_empty.mpr known)).1, ih, eraseDups_concat_of_mem known]
    · rw [(lookup_of_not_mem (mt mem_globs_after_empty.mp known)).1, ih,
        eraseDups_concat_of_not_mem known, List.reverse_append]
      rfl

theorem report_lookup_after_empty (globs : List Text) (glob : Text) :
    ((empty.after globs).lookup glob).report =
      if glob ∈ globs then none else compileError? glob := by
  split
  · next known => exact (lookup_of_mem (mem_globs_after_empty.mpr known)).2
  · next new => exact (lookup_of_not_mem (mt mem_globs_after_empty.mp new)).2

/-- Each glob that does not compile is reported once, in the order of the first look-ups. -/
theorem reports_lookups_empty (globs : List Text) :
    (empty.lookups globs).filterMap Lookup.report = globs.eraseDups.filterMap compileError? := by
  induction globs using List.reverseRecOn with
  | nil => rfl
  | append_singleton globs glob ih =>
    have last : (empty.after globs).lookups [glob] = [(empty.after globs).lookup glob] := rfl
    have report := report_lookup_after_empty globs glob
    rw [lookups_append, last, List.filterMap_append, ih, List.filterMap_cons, List.filterMap_nil]
    by_cases known : glob ∈ globs
    · rw [if_pos known] at report
      rw [report, eraseDups_concat_of_mem known]
      exact List.append_nil _
    · rw [if_neg known] at report
      rw [report, eraseDups_concat_of_not_mem known, List.filterMap_append, List.filterMap_cons,
        List.filterMap_nil]

/-- In a row of look-ups in a new cache each one answers as compiling afresh would; the cache counts
the distinct globs looked up so far, and is empty only before the first look-up; and a glob that
does not compile is reported once, when it is first looked up. -/
theorem lookups_answer_afresh (globs : List Text) :
    (empty.lookups globs).length = globs.length ∧
    (∀ place glob, globs[place]? = some glob →
      ∃ look, (empty.lookups globs)[place]? = some look ∧
        AnswersAfresh glob look.matcher ∧
        look.cache = empty.after (globs.take (place + 1)) ∧
        look.cache.size = (globs.take (place + 1)).eraseDups.length ∧
        look.report = if glob ∈ globs.take place then none else compileError? glob) ∧
    ((empty.after globs).isEmpty = true ↔ globs = []) ∧
    (empty.lookups globs).filterMap Lookup.report = globs.eraseDups.filterMap compileError? := by
  refine ⟨length_lookups _ _, ?_, ?_, reports_lookups_empty globs⟩
  · intro place glob there
    have cut : globs.take (place + 1) = globs.take place ++ [glob] := by
      rw [List.take_add_one, there]
      rfl
    have cache : ((empty.after (globs.take place)).lookup glob).cache =
        empty.after (globs.take (place + 1)) := by rw [cut, after_concat]
    refine ⟨_, getElem?_lookups there, answersAfresh_lookup _ _, cache, ?_,
      report_lookup_after_empty _ _⟩
    rw [cache, size_eq, globs_after_empty, List.length_reverse]
  · rw [isEmpty_iff, List.eq_nil_iff_forall_not_mem, List.eq_nil_iff_forall_not_mem]
    simp only [mem_globs_after_empty]

end Cache

/-! ### Globs that do not compile -/

/-- A glob for the directories so many levels down. -/
def nested (depth : Nat) : Text := (List.replicate depth ['*', '/']).flatten

theorem nested_succ (depth : Nat) : nested (depth + 1) = '*' :: '/' :: nested depth := by
  rw [nested, List.replicate_succ, List.flatten_cons]
  rfl

theorem not_mem_nested (depth : Nat) : '\n' ∉ nested depth := by
  induction depth with
  | zero => simp [nested]
  | succ depth ih => simp [nested_succ, ih]

theorem countP_scan_nested (depth : Nat) :
    (scan (nested depth)).countP Token.isWildcard = depth := by
  induction depth with
  | zero => rfl
  | succ depth ih =>
    have tokens : scan (nested (depth + 1)) = .run :: .literal '/' :: scan (nested depth) := by
      rw [nested_succ]
      rfl
    rw [tokens, List.countP_cons_of_pos rfl, List.countP_cons_of_neg (by decide), ih]

theorem compile_nested {depth : Nat} (deep : wildcardLimit ≤ depth) :
    compile (nested depth) = .error (.tooLarge (nested depth)) := by
  rw [compile, countP_scan_nested, if_neg (Nat.not_lt.mpr deep)]

namespace Cache

/-- Looked up before and after another glob, a glob that is too large counts once and is reported
once. -/
theorem lookups_answer_afresh_of_too_large :
    let large := nested 50000
    let looks := empty.lookups [large, ['*'], large]
    looks.filterMap Lookup.report = [.tooLarge large] ∧
      ∃ look, looks[2]? = some look ∧ look.matcher = none ∧ look.cache.size = 2 ∧
        look.report = none := by
  intro large looks
  have failed : compile large = .error (.tooLarge large) := compile_nested (by decide)
  have different : ['*'] ≠ large := by
    intro same
    rw [← same] at failed
    cases failed
  have distinct : [large, ['*'], large].eraseDups = [large, ['*']] := by
    have passed : (['*'] == large) = false := by simpa using different
    simp [List.eraseDups_cons, passed]
  obtain ⟨_, each, _, reports⟩ := lookups_answer_afresh [large, ['*'], large]
  obtain ⟨look, there, afresh, _, size, report⟩ := each 2 large rfl
  refine ⟨?_, look, there, afresh.none_iff.mpr ⟨_, failed⟩, ?_, ?_⟩
  · have star : compileError? ['*'] = none := rfl
    have error : compileError? large = some (.tooLarge large) := by rw [compileError?, failed]
    rw [reports, distinct]
    simp [star, error]
  · rw [size]
    exact congrArg List.length distinct
  · rw [report, if_pos (by simp)]

end Cache
end PathRules.Glob
