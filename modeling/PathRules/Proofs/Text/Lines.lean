import PathRules.Proofs.Text.Splitting
import Mathlib.Data.List.TakeWhile

/-!
# Lines and the blanks around them

A text is taken line by line: `lines_induction` goes from the last line to the first, and
`wholeLines` are the lines with the line feeds that end them. Trimming a line drops the blanks
around it, a line feed at its end among them (`trim_append`), and leaves none at either end
(`head?_trim`, `getLast?_trim`).
-/

namespace PathRules.Text

/-! ### Trimming -/

theorem trim_append {s after : Text} (blank : ∀ c ∈ after, isBlank c = true) :
    trim (s ++ after) = trim s := by
  have ended : after.dropWhile isBlank = [] := List.dropWhile_eq_nil_iff.mpr blank
  have mirrored : ∀ c ∈ after.reverse, isBlank c = true := fun c member =>
    blank c (List.mem_reverse.mp member)
  unfold trim trimStart
  rw [List.dropWhile_append]
  split
  · next nothing =>
    rw [ended, List.isEmpty_iff.mp nothing]
  · unfold trimEnd
    rw [List.reverse_append, List.dropWhile_append_of_pos mirrored]

theorem trim_append_left {before s : Text} (blank : ∀ c ∈ before, isBlank c = true) :
    trim (before ++ s) = trim s := by
  unfold trim trimStart
  rw [List.dropWhile_append_of_pos blank]

theorem trim_eq_nil {s : Text} (blank : ∀ c ∈ s, isBlank c = true) : trim s = [] := by
  have nothing := trim_append (s := []) blank
  exact nothing

/-- A text without blanks at its ends stays as it is. -/
theorem trim_eq_self {s : Text} (first : s.head?.any isBlank = false)
    (last : s.getLast?.any isBlank = false) : trim s = s := by
  have started : trimStart s = s := by
    cases s with
    | nil => rfl
    | cons c s =>
      have kept : ¬ isBlank c = true := by simpa using first
      exact List.dropWhile_cons_of_neg kept
  unfold trim
  rw [started]
  rcases List.eq_nil_or_concat s with rfl | ⟨front, c, rfl⟩
  · rfl
  · have kept : ¬ isBlank c = true := by simpa using last
    unfold trimEnd
    rw [List.concat_eq_append, List.reverse_append, List.reverse_singleton, List.singleton_append,
      List.dropWhile_cons_of_neg kept, List.reverse_cons, List.reverse_reverse]

theorem trim_line_feed (line : Text) : trim (line ++ ['\n']) = trim line :=
  trim_append (List.forall_mem_singleton.mpr rfl)

theorem any_head?_dropWhile (p : Char → Bool) (s : Text) :
    (s.dropWhile p).head?.any p = false := by
  have first := List.head?_dropWhile_not p s
  cases started : (s.dropWhile p).head? with
  | none => rfl
  | some c =>
    rw [started] at first
    exact first

theorem head?_trim (s : Text) : (trim s).head?.any isBlank = false := by
  unfold trim trimEnd
  obtain ⟨after, whole⟩ := List.dropWhile_suffix (l := (trimStart s).reverse) isBlank
  have started := any_head?_dropWhile isBlank s
  change (trimStart s).head?.any isBlank = false at started
  have parts := congrArg List.reverse whole
  rw [List.reverse_append, List.reverse_reverse] at parts
  rw [← parts] at started
  cases kept : ((trimStart s).reverse.dropWhile isBlank).reverse with
  | nil => rfl
  | cons c rest =>
    rw [kept] at started
    exact started

theorem getLast?_trim (s : Text) : (trim s).getLast?.any isBlank = false := by
  unfold trim trimEnd
  rw [List.getLast?_reverse]
  exact any_head?_dropWhile isBlank _

/-! ### Whole lines -/

/-- The lines of a text with the line feeds that end them. A text that is empty, or ends with a line
feed, has no line after it. -/
def wholeLines : Text → List Text
  | [] => []
  | c :: s =>
    if c = '\n' then ['\n'] :: wholeLines s
    else match wholeLines s with
      | [] => [[c]]
      | line :: rest => (c :: line) :: rest

/-- A text is its last line, or a line in front of a text. -/
@[elab_as_elim]
theorem lines_induction {motive : Text → Prop} (last : ∀ line, '\n' ∉ line → motive line)
    (more : ∀ line rest, '\n' ∉ line → motive rest → motive (line ++ '\n' :: rest)) (s : Text) :
    motive s := by
  induction length : s.length using Nat.strong_induction_on generalizing s with
  | _ bound ih =>
    by_cases member : '\n' ∈ s
    · obtain ⟨line, rest, rfl, free⟩ := List.eq_append_cons_of_mem member
      have shorter : rest.length < bound := by simp at length; omega
      exact more line rest free (ih _ shorter rest rfl)
    · exact last s member

theorem lines_of_not_mem {line : Text} (free : '\n' ∉ line) : lines line = [line] :=
  split_of_not_mem free

theorem lines_append_cons {line : Text} (free : '\n' ∉ line) (rest : Text) :
    lines (line ++ '\n' :: rest) = line :: lines rest := split_append_cons free rest

theorem wholeLines_of_not_mem {line : Text} (free : '\n' ∉ line) (something : line ≠ []) :
    wholeLines line = [line] := by
  induction line with
  | nil => exact absurd rfl something
  | cons c line ih =>
    have ne : c ≠ '\n' := (List.ne_of_not_mem_cons free).symm
    rw [wholeLines, if_neg ne]
    cases line with
    | nil => rfl
    | cons d line => rw [ih (List.not_mem_of_not_mem_cons free) (List.cons_ne_nil d line)]

theorem wholeLines_append_cons {line : Text} (free : '\n' ∉ line) (rest : Text) :
    wholeLines (line ++ '\n' :: rest) = (line ++ ['\n']) :: wholeLines rest := by
  induction line with
  | nil => exact if_pos rfl
  | cons c line ih =>
    have ne : c ≠ '\n' := (List.ne_of_not_mem_cons free).symm
    rw [List.cons_append, wholeLines, if_neg ne, ih (List.not_mem_of_not_mem_cons free)]
    rfl

theorem flatten_wholeLines (s : Text) : (wholeLines s).flatten = s := by
  induction s using lines_induction with
  | last line free =>
    by_cases nothing : line = []
    · rw [nothing]
      rfl
    · rw [wholeLines_of_not_mem free nothing, List.flatten_singleton]
  | more line rest free ih =>
    rw [wholeLines_append_cons free, List.flatten_cons, ih, List.append_assoc,
      List.singleton_append]

/-- Some of the first lines, put together, have these lines. -/
theorem wholeLines_flatten {first : List Text} {s : Text} (start : first <+: wholeLines s) :
    wholeLines first.flatten = first := by
  induction s using lines_induction generalizing first with
  | last line free =>
    by_cases nothing : line = []
    · subst nothing
      rw [List.prefix_nil.mp start]
      rfl
    · rw [wholeLines_of_not_mem free nothing] at start
      cases first with
      | nil => rfl
      | cons other first =>
        obtain ⟨rfl, rest⟩ := List.cons_prefix_cons.mp start
        rw [List.prefix_nil.mp rest, List.flatten_singleton, wholeLines_of_not_mem free nothing]
  | more line rest free ih =>
    rw [wholeLines_append_cons free] at start
    cases first with
    | nil => rfl
    | cons other first =>
      obtain ⟨rfl, later⟩ := List.cons_prefix_cons.mp start
      rw [List.flatten_cons, List.append_assoc, List.singleton_append, wholeLines_append_cons free,
        ih later]

/-- After a line feed a new line begins. -/
theorem wholeLines_append {s : Text} (ended : s.getLast? = some '\n') (t : Text) :
    wholeLines (s ++ t) = wholeLines s ++ wholeLines t := by
  induction s using lines_induction with
  | last line free => exact absurd (List.mem_of_getLast? ended) free
  | more line rest free ih =>
    rw [List.append_assoc, List.cons_append, wholeLines_append_cons free,
      wholeLines_append_cons free, List.cons_append]
    cases rest with
    | nil => rfl
    | cons c rest =>
      rw [List.getLast?_append, List.getLast?_cons_cons] at ended
      rw [ih (by simpa using ended)]

end PathRules.Text
