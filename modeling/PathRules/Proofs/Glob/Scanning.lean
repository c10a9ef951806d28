import PathRules.Glob.Token

/-!
# Scanning globs

How the tokens of a glob follow from its first characters. Where no two stars stand side by side,
every character is a token of its own (`scan_append_of_no_double_star`). Where no wildcard goes on
behind the end of a glob, what is put behind it has its own tokens (`scan_append`).
-/

namespace PathRules.Glob

/-- The token of a character by itself. -/
def Token.ofChar (c : Char) : Token :=
  if c = '*' then .run else if c = '?' then .single else .literal c

theorem Token.ofChar_of_plain {c : Char} (star : c ≠ '*') (question : c ≠ '?') :
    ofChar c = .literal c := by
  unfold ofChar
  rw [if_neg star, if_neg question]

theorem scan_cons_of_ne_star {c : Char} (ne : c ≠ '*') (glob : Text) :
    scan (c :: glob) = Token.ofChar c :: scan glob := by
  unfold Token.ofChar
  rw [if_neg ne]
  by_cases question : c = '?'
  · subst question
    rw [if_pos rfl, scan]
  · rw [if_neg question, scan]
    · exact fun _ same _ => ne same
    · exact fun _ same _ => ne same
    · exact ne
    · exact question

theorem scan_star {glob : Text} (single_star : glob.head? ≠ some '*') :
    scan ('*' :: glob) = .run :: scan glob := by
  rw [scan]
  · rintro rest rfl
    exact single_star rfl
  · rintro rest rfl
    exact single_star rfl

theorem scan_star_star {glob : Text} (no_slash : glob.head? ≠ some '/') :
    scan ('*' :: '*' :: glob) = .anything :: scan glob := by
  rw [scan]
  rintro rest rfl
  exact no_slash rfl

theorem scan_star_star_slash (glob : Text) :
    scan ('*' :: '*' :: '/' :: glob) = .directories :: scan glob := by
  rw [scan]

/-- A literal of a glob is no wildcard character. -/
theorem ne_wildcard_of_mem_scan {glob : Text} {c : Char} (member : Token.literal c ∈ scan glob) :
    c ≠ '*' ∧ c ≠ '?' := by
  fun_induction scan glob with
  | case1 glob ih | case2 glob _ ih | case3 glob _ _ ih | case4 glob ih =>
    exact ih (by simpa using member)
  | case5 d glob _ _ notStar notQuestion ih =>
    rcases List.mem_cons.mp member with same | later
    · rw [Token.literal.inj same]
      exact ⟨notStar, notQuestion⟩
    · exact ih later
  | case6 => cases member

/-- Characters in front of what starts with no star are tokens of their own, unless two stars
stand side by side. -/
theorem scan_append_of_no_double_star {part : Text} (apart : ¬ ['*', '*'] <:+: part) {rest : Text}
    (seam : rest.head? ≠ some '*') : scan (part ++ rest) = part.map Token.ofChar ++ scan rest := by
  induction part with
  | nil => rfl
  | cons c part ih =>
    have tail := ih fun within => apart (within.trans (List.suffix_cons c part).isInfix)
    rw [List.cons_append, List.map_cons, List.cons_append]
    by_cases star : c = '*'
    · subst star
      have next : (part ++ rest).head? ≠ some '*' := by
        cases part with
        | nil => exact seam
        | cons d part =>
          intro same
          have again : d = '*' := Option.some.inj same
          subst again
          exact apart ⟨[], part, rfl⟩
      rw [scan_star next, tail]
      rfl
    · rw [scan_cons_of_ne_star star, tail]

theorem scan_eq_map {part : Text} (apart : ¬ ['*', '*'] <:+: part) :
    scan part = part.map Token.ofChar := by
  have whole := scan_append_of_no_double_star apart (by simp : ([] : Text).head? ≠ some '*')
  rwa [List.append_nil, scan, List.append_nil] at whole

theorem scan_append_slash {part : Text} (apart : ¬ ['*', '*'] <:+: part) (rest : Text) :
    scan (part ++ '/' :: rest) = part.map Token.ofChar ++ .literal '/' :: scan rest := by
  rw [scan_append_of_no_double_star apart (by simp), scan_cons_of_ne_star (by decide)]
  rfl

/-! ### Globs side by side -/

/-- No wildcard goes on over the seam of two globs: there is no star in front of it, or neither a
star nor a separator behind it. -/
def ClearSeam (glob other : Text) : Prop :=
  glob.getLast? ≠ some '*' ∨ other.head? ≠ some '*' ∧ other.head? ≠ some '/'

namespace ClearSeam

variable {glob other : Text}

theorem tail {c : Char} (clear : ClearSeam (c :: glob) other) : ClearSeam glob other := by
  cases glob with
  | nil => exact .inl (by simp)
  | cons d glob => simpa [ClearSeam] using clear

/-- What a star in front of a glob does not meet there, it does not meet behind the glob either. -/
theorem head?_ne (clear : ClearSeam ('*' :: glob) other) {c : Char} (grows : c = '*' ∨ c = '/')
    (here : glob.head? ≠ some c) : (glob ++ other).head? ≠ some c := by
  cases glob with
  | cons d glob => exact here
  | nil =>
    have beyond : other.head? ≠ some '*' ∧ other.head? ≠ some '/' :=
      clear.resolve_left fun free => free rfl
    rcases grows with rfl | rfl
    · exact beyond.1
    · exact beyond.2

end ClearSeam

/-- The scan looks up to two characters ahead, and yet not over a clear seam. -/
theorem scan_append {glob other : Text} (clear : ClearSeam glob other) :
    scan (glob ++ other) = scan glob ++ scan other := by
  fun_induction scan glob with
  | case1 glob ih =>
    show scan ('*' :: '*' :: '/' :: (glob ++ other)) = _
    rw [scan_star_star_slash, ih clear.tail.tail.tail]
    rfl
  | case2 glob no_slash ih =>
    have here : glob.head? ≠ some '/' := by
      intro slash
      obtain ⟨rest, rfl⟩ := List.head?_eq_some_iff.mp slash
      exact no_slash rest rfl
    show scan ('*' :: '*' :: (glob ++ other)) = _
    rw [scan_star_star (clear.tail.head?_ne (.inr rfl) here), ih clear.tail.tail]
    rfl
  | case3 glob _ lone ih =>
    have here : glob.head? ≠ some '*' := by
      intro star
      obtain ⟨rest, rfl⟩ := List.head?_eq_some_iff.mp star
      exact lone rest rfl
    show scan ('*' :: (glob ++ other)) = _
    rw [scan_star (clear.head?_ne (.inl rfl) here), ih clear.tail]
    rfl
  | case4 glob ih =>
    rw [List.cons_append, scan, ih clear.tail, List.cons_append]
  | case5 c glob _ _ star question ih =>
    have token := Token.ofChar_of_plain star question
    rw [List.cons_append, scan_cons_of_ne_star star, token, ih clear.tail, List.cons_append]
  | case6 => rfl

end PathRules.Glob
