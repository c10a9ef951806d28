import PathRules.Proofs.Glob.Cutting
import PathRules.Proofs.Glob.Scanning

/-!
# What globs stand for

`Denotes` reads a glob as its syntax is told, with no exception for line feeds. On a path that
holds none, it says the same as covering (`covers_scan_iff`).
-/

namespace PathRules.Glob

/-- The path is one that the glob stands for, wildcards being read from left to right. -/
inductive Denotes : (glob path : Text) → Prop where
  | nil : Denotes [] []
  /-- `**/`: nothing, or anything in front of a separator. -/
  | directories {glob rest : Text} (passed : Text) :
      (passed = [] ∨ ∃ dirs, dirs ≠ [] ∧ passed = dirs ++ ['/']) → Denotes glob rest →
      Denotes ('*' :: '*' :: '/' :: glob) (passed ++ rest)
  /-- `**`: anything. -/
  | anything {glob rest : Text} (passed : Text) : glob.head? ≠ some '/' → Denotes glob rest →
      Denotes ('*' :: '*' :: glob) (passed ++ rest)
  /-- `*`: anything without a separator. -/
  | run {glob rest : Text} (passed : Text) : glob.head? ≠ some '*' → '/' ∉ passed →
      Denotes glob rest → Denotes ('*' :: glob) (passed ++ rest)
  /-- `?`: one character other than the separator. -/
  | single {glob rest : Text} {c : Char} : c ≠ '/' → Denotes glob rest →
      Denotes ('?' :: glob) (c :: rest)
  | literal {glob rest : Text} {c : Char} : c ≠ '*' → c ≠ '?' → Denotes glob rest →
      Denotes (c :: glob) (c :: rest)

theorem denotes_of_covers {glob path : Text} (covered : Covers (scan glob) path) :
    Denotes glob path := by
  fun_induction scan glob generalizing path with
  | case1 glob ih =>
    obtain ⟨piece, rest, rfl, fits, later⟩ := covers_cons_iff.mp covered
    refine .directories piece ?_ (ih later)
    rcases fits with nothing | ⟨dirs, nonempty, _, spelled⟩
    · exact .inl nothing
    · exact .inr ⟨dirs, nonempty, spelled⟩
  | case2 glob no_slash ih =>
    obtain ⟨piece, rest, rfl, _, later⟩ := covers_cons_iff.mp covered
    refine .anything piece ?_ (ih later)
    intro slash
    obtain ⟨tail, rfl⟩ := List.head?_eq_some_iff.mp slash
    exact no_slash tail rfl
  | case3 glob _ lone ih =>
    obtain ⟨piece, rest, rfl, fits, later⟩ := covers_cons_iff.mp covered
    refine .run piece ?_ (forall_inSegment_iff.mp fits) (ih later)
    intro star
    obtain ⟨tail, rfl⟩ := List.head?_eq_some_iff.mp star
    exact lone tail rfl
  | case4 glob ih =>
    obtain ⟨_, rest, rfl, ⟨c, inside, rfl⟩, later⟩ := covers_cons_iff.mp covered
    exact .single (by simpa [inSegment] using inside) (ih later)
  | case5 c glob _ _ star question ih =>
    obtain ⟨_, rest, rfl, rfl, later⟩ := covers_cons_iff.mp covered
    exact .literal star question (ih later)
  | case6 =>
    rw [covers_nil_iff.mp covered]
    exact .nil

theorem covers_of_denotes {glob path : Text} (denoted : Denotes glob path)
    (one_line : '\n' ∉ path) : Covers (scan glob) path := by
  -- The line feed matters in the first two wildcards only, whose tokens stay in one line.
  induction denoted with
  | nil => exact .nil
  | @directories glob rest passed spelled _ ih =>
    rw [List.mem_append, not_or] at one_line
    obtain ⟨inner, outer⟩ := one_line
    rw [scan_star_star_slash]
    refine .cons ?_ (ih outer)
    rcases spelled with rfl | ⟨dirs, nonempty, rfl⟩
    · exact .inl rfl
    · have within : '\n' ∉ dirs := fun member => inner (List.mem_append_left _ member)
      exact .inr ⟨dirs, nonempty, forall_inLine_iff.mpr within, rfl⟩
  | @anything glob rest passed no_slash _ ih =>
    rw [List.mem_append, not_or] at one_line
    rw [scan_star_star no_slash]
    exact .cons (forall_inLine_iff.mpr one_line.1) (ih one_line.2)
  | @run glob rest passed lone free _ ih =>
    rw [List.mem_append, not_or] at one_line
    rw [scan_star lone]
    exact .cons (forall_inSegment_iff.mpr free) (ih one_line.2)
  | @single glob rest c ne _ ih =>
    have later := ih (List.not_mem_of_not_mem_cons one_line)
    rw [scan_cons_of_ne_star (by decide)]
    exact covers_cons_iff.mpr ⟨[c], rest, rfl, ⟨c, by simpa [inSegment] using ne, rfl⟩, later⟩
  | @literal glob rest c star question _ ih =>
    have later := ih (List.not_mem_of_not_mem_cons one_line)
    have token := Token.ofChar_of_plain star question
    rw [scan_cons_of_ne_star star, token]
    exact covers_cons_iff.mpr ⟨[c], rest, rfl, rfl, later⟩

theorem covers_scan_iff {glob path : Text} (one_line : '\n' ∉ path) :
    Covers (scan glob) path ↔ Denotes glob path :=
  ⟨denotes_of_covers, fun denoted => covers_of_denotes denoted one_line⟩

end PathRules.Glob
