import PathRules.Proofs.Glob.Cutting
import PathRules.Proofs.Glob.Scanning

/-!
# Exchanging wildcards

Tokens within a glob may be exchanged for others that cover the same parts of a path, or more of
them (`covers_exchange`), whatever stands around them. So `**/` says no more when it is repeated
(`repeated_directories_accept_alike`), and a wider wildcard accepts what a narrower one does
(`wider_wildcard_accepts`).
-/

namespace PathRules.Glob

/-- If others cover all parts of a path that tokens cover, then so they do between the same
neighbours. -/
theorem covers_exchange {before tokens others after : List Token} {path : Text}
    (wider : ∀ part, part <:+: path → Covers tokens part → Covers others part)
    (covered : Covers (before ++ (tokens ++ after)) path) :
    Covers (before ++ (others ++ after)) path := by
  obtain ⟨front, rest, rfl, first, covered⟩ := covers_append_iff.mp covered
  obtain ⟨part, back, rfl, inner, last⟩ := covers_append_iff.mp covered
  have within : part <:+: front ++ (part ++ back) := ⟨front, back, List.append_assoc ..⟩
  exact covers_append_iff.mpr ⟨front, _, rfl, first,
    covers_append_iff.mpr ⟨part, back, rfl, wider part within inner, last⟩⟩

theorem covers_singleton_iff {token : Token} {path : Text} :
    Covers [token] path ↔ token.Fits path := by
  rw [covers_cons_iff]
  constructor
  · rintro ⟨piece, _, rfl, fits, nothing⟩
    rwa [covers_nil_iff.mp nothing, List.append_nil]
  · intro fits
    exact ⟨path, [], (List.append_nil _).symm, fits, .nil⟩

/-- A wildcard between a start that does not end with a star and a rest that does not go on with it
is a token of its own. -/
theorem scan_between {start glob rest : Text} {token : Token} (ends : start.getLast? ≠ some '*')
    (inner : scan (glob ++ rest) = token :: scan rest) :
    scan (start ++ (glob ++ rest)) = scan start ++ ([token] ++ scan rest) := by
  rw [scan_append (.inl ends), inner]
  rfl

/-! ### Repeated directories -/

theorem fits_directories_append {piece other : Text} (fits : Token.directories.Fits piece)
    (fits_other : Token.directories.Fits other) : Token.directories.Fits (piece ++ other) := by
  rcases fits with rfl | ⟨u, nonempty, inLine_u, rfl⟩
  · exact fits_other
  · rcases fits_other with rfl | ⟨v, _, inLine_v, rfl⟩
    · exact .inr ⟨u, nonempty, inLine_u, List.append_nil _⟩
    · -- The separator between the two is one of the characters in front of the last one.
      refine .inr ⟨u ++ '/' :: v, by simp, fun c member => ?_, by simp⟩
      rcases List.mem_append.mp member with first | later
      · exact inLine_u c first
      · rcases List.mem_cons.mp later with rfl | last
        · rfl
        · exact inLine_v c last

theorem fits_of_covers_replicate {n : Nat} {path : Text}
    (covered : Covers (List.replicate n .directories) path) : Token.directories.Fits path := by
  induction n generalizing path with
  | zero => exact .inl (covers_nil_iff.mp covered)
  | succ n ih =>
    obtain ⟨piece, rest, rfl, fits, covered⟩ := covers_cons_iff.mp covered
    exact fits_directories_append fits (ih covered)

theorem covers_replicate_nil (n : Nat) : Covers (List.replicate n .directories) [] := by
  induction n with
  | zero => exact .nil
  | succ n ih =>
    have nothing : Token.directories.Fits [] := .inl rfl
    exact .cons nothing ih

/-- The first of many may stand for all directories, and the others for none. -/
theorem covers_replicate_iff {n : Nat} (positive : 0 < n) {path : Text} :
    Covers (List.replicate n .directories) path ↔ Covers [.directories] path := by
  obtain ⟨n, rfl⟩ := Nat.exists_eq_succ_of_ne_zero (by omega : n ≠ 0)
  rw [covers_singleton_iff]
  refine ⟨fits_of_covers_replicate, fun fits => ?_⟩
  rw [← List.append_nil path]
  exact .cons fits (covers_replicate_nil n)

theorem scan_replicate (n : Nat) (glob : Text) :
    scan ((List.replicate n Token.directories.text).flatten ++ glob) =
      List.replicate n .directories ++ scan glob := by
  induction n with
  | zero => rfl
  | succ n ih =>
    rw [List.replicate_succ, List.flatten_cons, List.append_assoc]
    show scan ('*' :: '*' :: '/' :: ((List.replicate n Token.directories.text).flatten ++ glob)) = _
    rw [scan_star_star_slash, ih]
    rfl

/-- Repeated behind a start that does not end with a star, `**/` accepts what it accepts once. -/
theorem repeated_directories_accept_alike {start rest : Text} (ends : start.getLast? ≠ some '*')
    {n : Nat} (positive : 0 < n) {many one : Matcher}
    (compiledMany : compile
      (start ++ ((List.replicate n "**/".toList).flatten ++ rest)) = .ok many)
    (compiledOne : compile (start ++ ("**/".toList ++ rest)) = .ok one) (path : Text) :
    many.accepts path = one.accepts path := by
  have tokensMany : scan (start ++ ((List.replicate n "**/".toList).flatten ++ rest)) =
      scan start ++ (List.replicate n .directories ++ scan rest) := by
    rw [scan_append (.inl ends), ← scan_replicate]
    rfl
  have tokensOne : scan (start ++ ("**/".toList ++ rest)) =
      scan start ++ ([.directories] ++ scan rest) :=
    scan_between ends (scan_star_star_slash rest)
  rw [Bool.eq_iff_iff, accepts_iff_covers compiledMany, accepts_iff_covers compiledOne,
    tokensMany, tokensOne]
  constructor
  · exact covers_exchange fun _ _ covered => (covers_replicate_iff positive).mp covered
  · exact covers_exchange fun _ _ covered => (covers_replicate_iff positive).mpr covered

/-- Three times in the middle of a glob, over a line feed that only `?` may match and an empty
segment. -/
theorem repeated_directories_accept_alike_between :
    ∃ many one,
      compile ("?/".toList ++ ((List.replicate 3 "**/".toList).flatten ++ "*c".toList)) = .ok many ∧
      compile ("?/".toList ++ ("**/".toList ++ "*c".toList)) = .ok one ∧
      many.accepts "\n//b/c".toList = true := by
  have ends : "?/".toList.getLast? ≠ some '*' := by decide
  have three : 0 < 3 := by decide
  have many : compile ("?/".toList ++ ((List.replicate 3 "**/".toList).flatten ++ "*c".toList)) =
    .ok ⟨_, _, rfl⟩ := rfl
  have one : compile ("?/".toList ++ ("**/".toList ++ "*c".toList)) = .ok ⟨_, _, rfl⟩ := rfl
  refine ⟨_, _, many, one, ?_⟩
  rw [repeated_directories_accept_alike ends three many one]
  decide +kernel

/-! ### Wider wildcards -/

/-- `*` accepts what `?` accepts in its place, unless a star stands beside it; and `**` accepts what
`*` accepts, within a line, unless a star stands beside it or a separator follows. -/
theorem wider_wildcard_accepts {start rest : Text} (ends : start.getLast? ≠ some '*')
    (begins : rest.head? ≠ some '*') :
    (∀ one run, compile (start ++ ("?".toList ++ rest)) = .ok one →
      compile (start ++ ("*".toList ++ rest)) = .ok run →
      ∀ path, one.accepts path = true → run.accepts path = true) ∧
    (rest.head? ≠ some '/' →
      ∀ run any, compile (start ++ ("*".toList ++ rest)) = .ok run →
        compile (start ++ ("**".toList ++ rest)) = .ok any →
        ∀ path, '\n' ∉ path → run.accepts path = true → any.accepts path = true) := by
  have tokensRun : scan (start ++ ("*".toList ++ rest)) = scan start ++ ([.run] ++ scan rest) :=
    scan_between ends (scan_star begins)
  constructor
  · intro one run compiledOne compiledRun path
    have tokensOne : scan (start ++ ("?".toList ++ rest)) =
        scan start ++ ([.single] ++ scan rest) :=
      scan_between ends (scan_cons_of_ne_star (by decide) rest)
    rw [accepts_iff_covers compiledOne, accepts_iff_covers compiledRun, tokensOne, tokensRun]
    refine covers_exchange fun part _ covered => ?_
    obtain ⟨c, inside, rfl⟩ := covers_singleton_iff.mp covered
    have fits : Token.run.Fits [c] := by simpa [Token.Fits] using inside
    exact covers_singleton_iff.mpr fits
  · intro no_slash run any compiledRun compiledAny path one_line
    have tokensAny : scan (start ++ ("**".toList ++ rest)) =
        scan start ++ ([.anything] ++ scan rest) :=
      scan_between ends (scan_star_star no_slash)
    rw [accepts_iff_covers compiledRun, accepts_iff_covers compiledAny, tokensRun, tokensAny]
    refine covers_exchange fun part within _ => ?_
    have fits : Token.anything.Fits part :=
      forall_inLine_iff.mpr fun member => one_line (within.subset member)
    exact covers_singleton_iff.mpr fits

-- In front of a separator, `**` goes on with it, and what is in front of that must not be empty.
example : covers (scan "*/x".toList) "/x".toList = true ∧
    covers (scan "**/x".toList) "/x".toList = false := by decide +kernel

theorem wider_wildcard_accepts_in_context :
    ∃ one run any,
      compile ("a/".toList ++ ("?".toList ++ "?b".toList)) = .ok one ∧
      compile ("a/".toList ++ ("*".toList ++ "?b".toList)) = .ok run ∧
      compile ("a/".toList ++ ("**".toList ++ "?b".toList)) = .ok any ∧
      run.accepts "a/\n?b".toList = true ∧ any.accepts "a/xyb".toList = true := by
  have ends : "a/".toList.getLast? ≠ some '*' := by decide
  have begins : "?b".toList.head? ≠ some '*' := by decide
  obtain ⟨toRun, toAny⟩ := wider_wildcard_accepts ends begins
  refine ⟨_, _, _, rfl, rfl, rfl, toRun _ _ rfl rfl _ (by decide +kernel), ?_⟩
  exact toAny (by decide) _ _ rfl rfl _ (by decide) (by decide +kernel)

end PathRules.Glob
