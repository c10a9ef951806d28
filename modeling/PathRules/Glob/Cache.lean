import PathRules.Glob.Matcher

/-!
# Memory of compiled globs

Rule documents often repeat a glob. A cache keeps the outcome of each glob that was looked up,
and only the first look-up of a glob that does not compile reports it.
-/

namespace PathRules.Glob

structure Cache where
  entries : List (Text × Option Matcher) := []
  /-- An entry holds what compiling its glob gives. -/
  entries_sound : ∀ entry ∈ entries, entry.2 = (compile entry.1).toOption := by simp
  /-- No glob has two entries. -/
  globs_nodup : (entries.map Prod.fst).Nodup := by simp

namespace Cache

def empty : Cache := {}

instance : Inhabited Cache := ⟨empty⟩

/-- The globs looked up, the latest first. -/
def globs (cache : Cache) : List Text := cache.entries.map Prod.fst

/-- The number of distinct globs looked up. -/
def size (cache : Cache) : Nat := cache.entries.length

def isEmpty (cache : Cache) : Bool := cache.entries.isEmpty

def get? (cache : Cache) (glob : Text) : Option (Option Matcher) :=
  (cache.entries.find? (·.1 = glob)).map Prod.snd

theorem get?_eq_none_iff {cache : Cache} {glob : Text} :
    cache.get? glob = none ↔ glob ∉ cache.globs := by
  rw [get?, Option.map_eq_none_iff, List.find?_eq_none]
  simp only [globs, List.mem_map, Prod.exists, exists_and_right, exists_eq_right, not_exists,
    decide_eq_true_eq, Prod.forall]
  exact ⟨fun h outcome mem => h glob outcome mem rfl,
    fun h _ outcome mem same => h outcome (same ▸ mem)⟩

def insert (cache : Cache) (glob : Text) (new : cache.get? glob = none) : Cache where
  entries := (glob, (compile glob).toOption) :: cache.entries
  entries_sound := by
    simp only [List.mem_cons, forall_eq_or_imp, true_and]
    exact cache.entries_sound
  globs_nodup := by
    rw [List.map_cons, List.nodup_cons]
    exact ⟨get?_eq_none_iff.1 new, cache.globs_nodup⟩

/-- What a look-up gives: the matcher if there is one, the cache after it, and the report if it is
due. -/
structure Lookup where
  matcher : Option Matcher
  cache : Cache
  report : Option CompileError

/-- Why a glob does not compile, if it does not. -/
def compileError? (glob : Text) : Option CompileError :=
  match compile glob with
  | .ok _ => none
  | .error e => some e

/-- Looks a glob up, compiling it the first time. -/
def lookup (cache : Cache) (glob : Text) : Lookup :=
  match h : cache.get? glob with
  | some outcome => ⟨outcome, cache, none⟩
  | none => ⟨(compile glob).toOption, cache.insert glob h, compileError? glob⟩

end Cache
end PathRules.Glob
