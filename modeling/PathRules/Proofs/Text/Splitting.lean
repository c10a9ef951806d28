import PathRules.Text

/-!
# Laws of splitting

The parts of a text between the occurrences of a character do not hold it, and joining parts that
do not hold it can be undone (`split_join`).
-/

namespace PathRules.Text

theorem split_cons_self (c : Char) (s : Text) : split c (c :: s) = [] :: split c s := by
  rw [split, if_pos rfl]

/-- Up to its first occurrence of the character a text is one part. -/
theorem split_append_cons {c : Char} {part : Text} (free : c ∉ part) (rest : Text) :
    split c (part ++ c :: rest) = part :: split c rest := by
  induction part with
  | nil => exact split_cons_self c rest
  | cons x part ih =>
    have ne : x ≠ c := (List.ne_of_not_mem_cons free).symm
    rw [List.cons_append, split, if_neg ne, ih (List.not_mem_of_not_mem_cons free)]

/-- The first occurrence of the character cuts a text in one way. -/
theorem append_cons_inj {c : Char} {part other rest last : Text} (free : c ∉ part)
    (free_other : c ∉ other) (same : part ++ c :: rest = other ++ c :: last) :
    part = other ∧ rest = last := by
  have parts := congrArg (split c) same
  rw [split_append_cons free, split_append_cons free_other] at parts
  obtain ⟨rfl, _⟩ := List.cons.inj parts
  exact ⟨rfl, (List.cons.inj (List.append_cancel_left same)).2⟩

theorem split_of_not_mem {c : Char} {s : Text} (free : c ∉ s) : split c s = [s] := by
  induction s with
  | nil => rfl
  | cons x s ih =>
    have ne : x ≠ c := (List.ne_of_not_mem_cons free).symm
    rw [split, if_neg ne, ih (List.not_mem_of_not_mem_cons free)]

/-- A text is one part, or a part in front of the character and what follows it. -/
theorem split_cases (c : Char) (s : Text) :
    (c ∉ s ∧ split c s = [s]) ∨
      ∃ part rest, c ∉ part ∧ s = part ++ c :: rest ∧ split c s = part :: split c rest := by
  by_cases member : c ∈ s
  · obtain ⟨part, rest, cut, free⟩ := List.eq_append_cons_of_mem member
    exact .inr ⟨part, rest, free, cut, by rw [cut, split_append_cons free]⟩
  · exact .inl ⟨member, split_of_not_mem member⟩

theorem split_append (c : Char) (a b : Text) : split c (a ++ c :: b) = split c a ++ split c b := by
  induction a with
  | nil => exact split_cons_self c b
  | cons x a ih =>
    by_cases same : x = c
    · subst same
      rw [List.cons_append, split_cons_self, split_cons_self, ih, List.cons_append]
    · rw [List.cons_append, split, if_neg same, ih, split, if_neg same]
      obtain ⟨part, parts, whole⟩ := List.exists_cons_of_ne_nil (split_ne_nil c a)
      rw [whole]
      rfl

theorem not_mem_of_mem_split {c : Char} {s part : Text} (member : part ∈ split c s) : c ∉ part := by
  induction s generalizing part with
  | nil =>
    rw [List.mem_singleton.mp member]
    exact List.not_mem_nil
  | cons x s ih =>
    obtain ⟨first, parts, whole⟩ := List.exists_cons_of_ne_nil (split_ne_nil c s)
    rw [split, whole] at member
    rw [whole] at ih
    split at member
    · rcases List.mem_cons.mp member with rfl | later
      · exact List.not_mem_nil
      · exact ih later
    · next ne =>
      rcases List.mem_cons.mp member with rfl | later
      · exact List.not_mem_cons_of_ne_of_not_mem (Ne.symm ne) (ih List.mem_cons_self)
      · exact ih (List.mem_cons_of_mem _ later)

theorem split_join {c : Char} {parts : List Text} (nonempty : parts ≠ [])
    (free : ∀ part ∈ parts, c ∉ part) : split c (join c parts) = parts := by
  induction parts with
  | nil => exact absurd rfl nonempty
  | cons part parts ih =>
    have first : c ∉ part := free part List.mem_cons_self
    by_cases last : parts = []
    · rw [last]
      exact split_of_not_mem first
    · rw [join_cons last, split_append_cons first,
        ih last fun other member => free other (List.mem_cons_of_mem _ member)]

theorem join_append {c : Char} {parts others : List Text} (nonempty : parts ≠ [])
    (nonempty_others : others ≠ []) :
    join c (parts ++ others) = join c parts ++ c :: join c others := by
  induction parts with
  | nil => exact absurd rfl nonempty
  | cons part parts ih =>
    by_cases last : parts = []
    · subst last
      exact join_cons nonempty_others
    · rw [List.cons_append, join_cons (List.append_ne_nil_of_left_ne_nil last _), ih last,
        join_cons last, List.append_assoc, List.cons_append]

/-- What ends with the same parts as another text is that text from one of its parts on. -/
theorem split_suffix_iff {c : Char} {path rest : Text} :
    split c rest <:+ split c path ↔ path = rest ∨ ∃ front, path = front ++ c :: rest := by
  constructor
  · rintro ⟨passed, whole⟩
    have joined : path = join c (passed ++ split c rest) := by rw [whole, join_split]
    by_cases nothing : passed = []
    · left
      rw [joined, nothing, List.nil_append, join_split]
    · right
      rw [join_append nothing (split_ne_nil c rest), join_split] at joined
      exact ⟨_, joined⟩
  · rintro (rfl | ⟨front, rfl⟩)
    · exact List.suffix_refl _
    · rw [split_append]
      exact List.suffix_append _ _

end PathRules.Text
