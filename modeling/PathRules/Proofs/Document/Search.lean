import PathRules.Document
import PathRules.Proofs.Glob.Memory

/-!
# Searching with a cache

A cache answers as compiling would, so what a search finds does not depend on the cache it starts
from (`firstMatch_found`). A document matches if there is anything to find.
-/

namespace PathRules

namespace Document

/-- The first file that a glob accepts, with the glob. -/
def firstAccepted (files : List Text) (glob : Text) : Option (Text × Text) :=
  ((Glob.compile glob).toOption.bind fun matcher => files.find? matcher.accepts).map (glob, ·)

theorem search_found (files : List Text) (cache : Glob.Cache) (globs : List Text) :
    (search files cache globs).found = globs.findSome? (firstAccepted files) := by
  induction globs generalizing cache with
  | nil => rfl
  | cons glob globs ih =>
    unfold search
    rw [List.findSome?_cons, firstAccepted]
    simp only [Glob.Cache.lookup_matcher]
    split
    · next file accepted => rw [accepted]; rfl
    · next none_accepted =>
      rw [none_accepted]
      exact ih _

theorem firstMatch_found (document : Document) (files : List Text) (cache : Glob.Cache) :
    (document.firstMatch files cache).found =
      document.patterns.findSome? (firstAccepted files) := search_found files cache _

/-- A glob of the document compiles and accepts one of the files. -/
def Matches (document : Document) (files : List Text) : Prop :=
  ∃ glob ∈ document.patterns, ∃ matcher, Glob.compile glob = .ok matcher ∧
    ∃ file ∈ files, matcher.accepts file = true

theorem firstAccepted_isSome {files : List Text} {glob : Text} :
    (firstAccepted files glob).isSome = true ↔
      ∃ matcher, Glob.compile glob = .ok matcher ∧ ∃ file ∈ files, matcher.accepts file = true := by
  unfold firstAccepted
  rw [Option.isSome_map]
  cases Glob.compile glob with
  | error problem => simp [Except.toOption]
  | ok matcher => simp [Except.toOption, List.find?_isSome]

theorem firstMatch_isSome (document : Document) (files : List Text) (cache : Glob.Cache) :
    (document.firstMatch files cache).found.isSome = true ↔ document.Matches files := by
  rw [firstMatch_found, List.findSome?_isSome_iff]
  simp only [firstAccepted_isSome]
  rfl

theorem not_matches_of_patterns_eq_nil {document : Document} {files : List Text}
    (none_declared : document.patterns = []) : ¬ document.Matches files := by
  rintro ⟨glob, declared, _⟩
  rw [none_declared] at declared
  exact absurd declared (List.not_mem_nil)

instance (document : Document) (files : List Text) : Decidable (document.Matches files) :=
  decidable_of_iff _ (document.firstMatch_isSome files .empty)

end Document
end PathRules
