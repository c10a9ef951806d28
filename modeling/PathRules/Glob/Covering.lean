import PathRules.Glob.Frontier
import Mathlib.Algebra.Group.Nat.Defs

/-!
# Matching decides covering

Each token moves a set of places to exactly the places after a piece that fits it, so the end of
the path is reached just if the path can be cut into fitting pieces. The main statement is
`covers_iff`.
-/

namespace PathRules.Glob

/-! ### Moving by characters -/

/-- A place is reached by one character if the place before that character is there. -/
theorem testBit_eat {p : Char → Bool} {places : Places} {path before : Text} (rest : Text)
    (cut : path = before ++ rest) :
    (eat (marks p path) places).testBit before.length ↔
      ∃ start c, before = start ++ [c] ∧ p c ∧ places.testBit start.length := by
  subst cut
  rw [eat, Nat.testBit_shiftLeft, Nat.testBit_and]
  constructor
  · intro h
    simp only [ge_iff_le, Bool.and_eq_true, decide_eq_true_eq] at h
    obtain ⟨some_, inPlaces, marked⟩ := h
    rcases List.eq_nil_or_concat before with rfl | ⟨start, c, rfl⟩
    · exact absurd some_ (by simp)
    simp only [List.concat_eq_append, List.length_append, List.length_singleton, Nat.add_sub_cancel,
      List.append_assoc, List.singleton_append, testBit_marks_append] at inPlaces marked
    exact ⟨start, c, List.concat_eq_append, marked, inPlaces⟩
  · rintro ⟨start, c, rfl, hp, inPlaces⟩
    simp [testBit_marks_append, hp, inPlaces]

theorem testBit_eat_zero (marked : Nat) (places : Places) :
    (eat marked places).testBit 0 = false := by
  simp [eat]

theorem testBit_eat_succ (marked : Nat) (places : Places) (n : Nat) :
    (eat marked places).testBit (n + 1) = (places.testBit n && marked.testBit n) := by
  simp [eat, Nat.testBit_shiftLeft]

theorem testBit_xor_log2 {places : Places} (ne : places ≠ 0) (n : Nat) :
    (places ^^^ 1 <<< places.log2).testBit n = (places.testBit n && decide (n ≠ places.log2)) := by
  rw [Nat.testBit_xor, Nat.one_shiftLeft, Nat.testBit_two_pow]
  by_cases last : n = places.log2
  · simp [last, Nat.testBit_log2 ne]
  · simp [last, Ne.symm last]

/-- The last place moves on if it is marked, and the others move as they do without it. -/
theorem eat_eq_last_or {places : Places} (ne : places ≠ 0) (marked : Nat) :
    eat marked places =
      if marked.testBit places.log2 then
        eat marked (places ^^^ 1 <<< places.log2) ||| 1 <<< (places.log2 + 1)
      else eat marked (places ^^^ 1 <<< places.log2) := by
  have last := Nat.testBit_log2 ne
  apply Nat.eq_of_testBit_eq
  intro n
  cases n with
  | zero =>
    split
    · rw [Nat.testBit_or, testBit_eat_zero, testBit_eat_zero, Nat.one_shiftLeft,
        Nat.testBit_two_pow]
      simp
    · rw [testBit_eat_zero, testBit_eat_zero]
  | succ n =>
    rw [testBit_eat_succ]
    by_cases same : n = places.log2
    · subst same
      split
      · next here => simp [testBit_eat_succ, Nat.one_shiftLeft, here, last]
      · next gone => simp [testBit_eat_succ, gone]
    · split
      · simp [testBit_eat_succ, Nat.one_shiftLeft, Ne.symm same]
      · simp [testBit_eat_succ, testBit_xor_log2 ne, same]

/-- One by one, the places move as they do all at once. -/
theorem eq_eat_of_eatFew {path : Text} {c : Char} {limit : Nat} {places moved : Places}
    (few : eatFew path.toArray c limit places = some moved) :
    moved = eat (marks (· == c) path) places := by
  induction limit generalizing places moved with
  | zero =>
    unfold eatFew at few
    split at few
    · next none_left =>
      cases few
      simp [none_left, eat]
    · simp at few
  | succ limit ih =>
    unfold eatFew at few
    split at few
    · next none_left =>
      cases few
      simp [none_left, eat]
    · next ne =>
      simp only [Option.bind_eq_bind, Option.bind_eq_some_iff, Option.some.injEq] at few
      obtain ⟨others, rest, rfl⟩ := few
      rw [eat_eq_last_or ne, testBit_marks, ih rest, List.getElem?_toArray]

/-- All characters from one place on up to another are marked. -/
def AllMarked (marked low high : Nat) : Prop :=
  ∀ n, low ≤ n → n < high → marked.testBit n

/-- A walk of less than `limit` marked characters leads from one of the places to a place. -/
def Walks (marked : Nat) (places : Places) (limit stop : Nat) : Prop :=
  ∃ start, start ≤ stop ∧ stop < start + limit ∧ places.testBit start ∧
    AllMarked marked start stop

/-- Doubling the width doubles the walks. -/
theorem walks_double {marked wide places reached width stop : Nat}
    (marks_wide : ∀ n, wide.testBit n ↔ AllMarked marked n (n + width))
    (reaches : ∀ n, reached.testBit n ↔ Walks marked places width n) :
    (reached ||| (reached &&& wide) <<< width).testBit stop ↔
      Walks marked places (2 * width) stop := by
  simp only [Nat.testBit_or, Nat.testBit_shiftLeft, Nat.testBit_and, Bool.or_eq_true,
    Bool.and_eq_true, decide_eq_true_eq, ge_iff_le, reaches, marks_wide]
  constructor
  · rintro (⟨start, le, lt, mem, all⟩ | ⟨far, ⟨start, le, lt, mem, all⟩, next⟩)
    · exact ⟨start, le, by omega, mem, all⟩
    · refine ⟨start, by omega, by omega, mem, fun n low high => ?_⟩
      by_cases h : n < stop - width
      · exact all n low h
      · exact next n (by omega) (by omega)
  · rintro ⟨start, le, lt, mem, all⟩
    by_cases near : stop < start + width
    · exact .inl ⟨start, le, near, mem, all⟩
    · exact .inr ⟨by omega,
        ⟨start, by omega, by omega, mem, fun n low high => all n low (by omega)⟩,
        fun n low high => all n (by omega) (by omega)⟩

theorem marked_double {marked wide width n : Nat}
    (marks_wide : ∀ n, wide.testBit n ↔ AllMarked marked n (n + width)) :
    (wide &&& wide >>> width).testBit n ↔ AllMarked marked n (n + 2 * width) := by
  simp only [Nat.testBit_and, Nat.testBit_shiftRight, Bool.and_eq_true, marks_wide]
  constructor
  · rintro ⟨near, far⟩ m low high
    by_cases h : m < n + width
    · exact near m low h
    · exact far m (by omega) (by omega)
  · intro all
    exact ⟨fun m low high => all m low (by omega), fun m low high => all m (by omega) (by omega)⟩

theorem testBit_stretch {marked wide places reached rounds width stop : Nat}
    (marks_wide : ∀ n, wide.testBit n ↔ AllMarked marked n (n + width))
    (reaches : ∀ n, reached.testBit n ↔ Walks marked places width n) :
    (stretch rounds width wide reached).testBit stop ↔
      Walks marked places (2 ^ rounds * width) stop := by
  induction rounds generalizing wide reached width with
  | zero => simpa [stretch] using reaches stop
  | succ rounds ih =>
    rw [stretch, ih (fun _ => marked_double marks_wide) (fun _ => walks_double marks_wide reaches),
      Nat.pow_succ, Nat.mul_assoc]

/-- Rounds of doubling make walks of all lengths below a power of two. -/
theorem testBit_stretch_one {rounds marked stop : Nat} {places : Places} :
    (stretch rounds 1 marked places).testBit stop ↔ Walks marked places (2 ^ rounds) stop := by
  refine (testBit_stretch ?_ ?_).trans (by rw [Nat.mul_one])
  · intro n
    exact ⟨fun h m low high => (by omega : n = m) ▸ h, fun all => all n (by omega) (by omega)⟩
  · intro n
    constructor
    · exact fun h => ⟨n, by omega, by omega, h, fun m low high => by omega⟩
    · rintro ⟨start, le, lt, mem, _⟩
      exact (by omega : start = n) ▸ mem

/-- A place is reached by characters of a class if it is the end of a piece of such characters that
begins at one of the places. -/
theorem testBit_spread {p : Char → Bool} {places : Places} {path before : Text} (rest : Text)
    (cut : path = before ++ rest) :
    (spread path.length (marks p path) places).testBit before.length ↔
      ∃ start piece, before = start ++ piece ∧ (∀ c ∈ piece, p c) ∧
        places.testBit start.length := by
  rw [spread, testBit_stretch_one]
  have rounds : path.length < 2 ^ (path.length.log2 + 1) := Nat.lt_log2_self
  have marked (n : Nat) (h : n < before.length) : (marks p path).testBit n ↔ p before[n] := by
    simp [testBit_marks, cut, List.getElem?_append_left h, List.getElem?_eq_getElem h]
  constructor
  · rintro ⟨start, le, _, mem, all⟩
    refine ⟨before.take start, before.drop start, (List.take_append_drop start before).symm, ?_, ?_⟩
    · intro c hc
      obtain ⟨n, hn, rfl⟩ := List.mem_iff_getElem.1 hc
      rw [List.length_drop] at hn
      rw [List.getElem_drop]
      exact (marked _ (by omega)).1 (all _ (by omega) (by omega))
    · rw [List.length_take, Nat.min_eq_left le]
      exact mem
  · rintro ⟨start, piece, rfl, fits, mem⟩
    refine ⟨start.length, by simp, ?_, mem, fun n low high => ?_⟩
    · have : (start ++ piece).length ≤ path.length := by rw [cut]; simp
      omega
    · refine (marked n high).2 (fits _ ?_)
      rw [List.getElem_append_right low]
      exact List.getElem_mem _

/-- At least one character of the class is eaten. -/
theorem testBit_spread_eat {p : Char → Bool} {places : Places} {path before : Text} (rest : Text)
    (cut : path = before ++ rest) :
    (spread path.length (marks p path) (eat (marks p path) places)).testBit before.length ↔
      ∃ start piece, before = start ++ piece ∧ piece ≠ [] ∧ (∀ c ∈ piece, p c) ∧
        places.testBit start.length := by
  rw [testBit_spread rest cut]
  constructor
  · rintro ⟨first, piece, rfl, fits, mem⟩
    obtain ⟨start, c, rfl, here, mem⟩ := (testBit_eat (piece ++ rest) (by simpa using cut)).1 mem
    exact ⟨start, c :: piece, by simp, by simp, List.forall_mem_cons.mpr ⟨here, fits⟩, mem⟩
  · rintro ⟨start, piece, rfl, ne, fits, mem⟩
    cases piece with
    | nil => exact absurd rfl ne
    | cons c piece =>
      obtain ⟨here, fits⟩ := List.forall_mem_cons.mp fits
      refine ⟨start ++ [c], piece, by simp, fits, ?_⟩
      exact (testBit_eat (piece ++ rest) (by simpa using cut)).2 ⟨start, c, rfl, here, mem⟩

/-! ### Moving by tokens -/

namespace Frontier

theorem places_eatLetter {path : Text} (frontier : Frontier path) (c : Char) :
    (frontier.eatLetter path.toArray c).places = eat (marks (· == c) path) frontier.places := by
  unfold eatLetter
  split
  · next few => exact eq_eat_of_eatFew few
  · split
    · next letter found =>
      have same := List.find?_some found
      rw [frontier.letters_sound letter (List.mem_of_find?_eq_some found), eq_of_beq same]
    · rfl

/-- A token moves to the places after a piece that fits it. -/
theorem testBit_move {path before : Text} (frontier : Frontier path) (token : Token)
    (rest : Text) (cut : path = before ++ rest) :
    (frontier.move (.of path) token).places.testBit before.length ↔
      ∃ start piece, before = start ++ piece ∧ token.Fits piece ∧
        frontier.places.testBit start.length := by
  cases token with
  | directories =>
    have places_eq : (frontier.move (.of path) .directories).places = frontier.places |||
        eat (marks (· == '/') path) (spread path.length (marks Glob.inLine path)
          (eat (marks Glob.inLine path) frontier.places)) := rfl
    rw [places_eq, Nat.testBit_or, Bool.or_eq_true, testBit_eat rest cut]
    constructor
    · rintro (mem | ⟨start, c, rfl, isSeparator, mem⟩)
      · exact ⟨before, [], by simp, .inl rfl, mem⟩
      · obtain ⟨origin, piece, rfl, ne, fits, mem⟩ :=
          (testBit_spread_eat (c :: rest) (by simpa using cut)).1 mem
        refine ⟨origin, piece ++ ['/'], ?_, .inr ⟨piece, ne, fits, rfl⟩, mem⟩
        simp [eq_of_beq isSeparator]
    · rintro ⟨start, _, rfl, rfl | ⟨piece, ne, fits, rfl⟩, mem⟩
      · exact .inl (by simpa using mem)
      · refine .inr ⟨start ++ piece, '/', by simp, by simp, ?_⟩
        exact (testBit_spread_eat ('/' :: rest) (by simpa using cut)).2
          ⟨start, piece, rfl, ne, fits, mem⟩
  | anything => exact testBit_spread rest cut
  | run => exact testBit_spread rest cut
  | single =>
    refine (testBit_eat rest cut).trans ?_
    constructor
    · rintro ⟨start, c, rfl, hc, mem⟩; exact ⟨start, [c], rfl, ⟨c, hc, rfl⟩, mem⟩
    · rintro ⟨start, _, rfl, ⟨c, hc, rfl⟩, mem⟩; exact ⟨start, c, rfl, hc, mem⟩
  | literal d =>
    have places_eq : (frontier.move (.of path) (.literal d)).places =
        (frontier.eatLetter path.toArray d).places := rfl
    rw [places_eq, places_eatLetter, testBit_eat rest cut]
    constructor
    · rintro ⟨start, c, rfl, hc, mem⟩
      exact ⟨start, [c], rfl, congrArg (fun c => [c]) (eq_of_beq hc), mem⟩
    · rintro ⟨start, _, rfl, rfl, mem⟩; exact ⟨start, d, rfl, by simp, mem⟩

theorem testBit_advance {path before : Text} (frontier : Frontier path) (token : Token)
    (rest : Text) (cut : path = before ++ rest) :
    (frontier.advance (.of path) token).places.testBit before.length ↔
      ∃ start piece, before = start ++ piece ∧ token.Fits piece ∧
        frontier.places.testBit start.length := by
  unfold advance
  split
  · next none_left => simp [none_left]
  · exact frontier.testBit_move token rest cut

/-- Tokens in a row move to the places after a part of the path that they cover. -/
theorem testBit_foldl_advance {path before : Text} {tokens : List Token}
    (frontier : Frontier path) (rest : Text) (cut : path = before ++ rest) :
    (tokens.foldl (advance (.of path)) frontier).places.testBit before.length ↔
      ∃ start part, before = start ++ part ∧ Covers tokens part ∧
        frontier.places.testBit start.length := by
  induction tokens generalizing frontier with
  | nil =>
    constructor
    · intro mem; exact ⟨before, [], by simp, .nil, mem⟩
    · rintro ⟨start, _, rfl, ⟨⟩, mem⟩; simpa using mem
  | cons token tokens ih =>
    rw [List.foldl_cons, ih]
    constructor
    · rintro ⟨middle, part, rfl, covered, mem⟩
      obtain ⟨start, piece, rfl, fits, mem⟩ :=
        (frontier.testBit_advance token (part ++ rest) (by simpa using cut)).1 mem
      exact ⟨start, piece ++ part, by simp, .cons fits covered, mem⟩
    · rintro ⟨start, _, rfl, covered, mem⟩
      cases covered with
      | @cons _ _ piece part fits covered =>
        exact ⟨start ++ piece, part, by simp, covered,
          (frontier.testBit_advance token (part ++ rest) (by simpa using cut)).2
            ⟨start, piece, rfl, fits, mem⟩⟩

end Frontier

theorem Places.testBit_start (n : Nat) : start.testBit n ↔ n = 0 := by
  rw [start, show (1 : Nat) = true.toNat from rfl, Nat.testBit_bool_toNat]
  simp

/-- Moving through the path finds out whether the tokens cover it. -/
theorem covers_iff {tokens : List Token} {path : Text} :
    covers tokens path = true ↔ Covers tokens path := by
  rw [covers, Frontier.testBit_foldl_advance _ [] (by simp)]
  constructor
  · rintro ⟨start, part, rfl, covered, atStart⟩
    rw [Places.testBit_start, List.length_eq_zero_iff] at atStart
    simpa [atStart] using covered
  · intro covered
    exact ⟨[], path, rfl, covered, (Places.testBit_start 0).2 rfl⟩

end PathRules.Glob
