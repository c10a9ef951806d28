import PathRules.Proofs.Text.Lines

/-!
# Ends of lines

Lines may end with a line feed alone or with a carriage return before it. The carriage return is a
blank, so trimmed lines do not tell the two apart (`trim_lines_crlf`, `trim_endedLines`).
-/

namespace PathRules.Text

/-! ### Carriage returns before line feeds -/

/-- The text with a carriage return before each line feed. -/
def crlf (s : Text) : Text := s.flatMap fun c => if c = '\n' then ['\r', '\n'] else [c]

theorem crlf_append (s t : Text) : crlf (s ++ t) = crlf s ++ crlf t := List.flatMap_append

theorem crlf_cons (c : Char) (s : Text) :
    crlf (c :: s) = (if c = '\n' then ['\r', '\n'] else [c]) ++ crlf s := rfl

theorem crlf_of_not_mem {line : Text} (free : '\n' ∉ line) : crlf line = line := by
  induction line with
  | nil => rfl
  | cons c line ih =>
    have ne : c ≠ '\n' := (List.ne_of_not_mem_cons free).symm
    rw [crlf_cons, if_neg ne, ih (List.not_mem_of_not_mem_cons free), List.singleton_append]

theorem not_mem_concat_return {line : Text} (free : '\n' ∉ line) : '\n' ∉ line ++ ['\r'] := by
  simpa using free

theorem crlf_append_cons {line : Text} (free : '\n' ∉ line) (rest : Text) :
    crlf (line ++ '\n' :: rest) = (line ++ ['\r']) ++ '\n' :: crlf rest := by
  rw [crlf_append, crlf_of_not_mem free, crlf_cons, if_pos rfl]
  simp

theorem crlf_flatten (parts : List Text) : crlf parts.flatten = (parts.map crlf).flatten := by
  induction parts with
  | nil => rfl
  | cons part parts ih => rw [List.flatten_cons, crlf_append, ih, List.map_cons, List.flatten_cons]

theorem crlf_eq_nil_iff {s : Text} : crlf s = [] ↔ s = [] := by
  cases s with
  | nil => simp [crlf]
  | cons c s =>
    rw [crlf_cons]
    split <;> simp

theorem head?_crlf (s : Text) : (crlf s).head? ≠ some '\n' := by
  cases s with
  | nil => simp [crlf]
  | cons c s =>
    rw [crlf_cons]
    split
    · simp
    · next other => simpa using other

theorem wholeLines_crlf (s : Text) : wholeLines (crlf s) = (wholeLines s).map crlf := by
  induction s using lines_induction with
  | last line free =>
    by_cases nothing : line = []
    · subst nothing
      rfl
    · rw [crlf_of_not_mem free, wholeLines_of_not_mem free nothing, List.map_singleton,
        crlf_of_not_mem free]
  | more line rest free ih =>
    rw [crlf_append_cons free, wholeLines_append_cons (not_mem_concat_return free),
      wholeLines_append_cons free, ih, List.map_cons, crlf_append, crlf_of_not_mem free,
      List.append_assoc]
    rfl

theorem trim_concat_return (line : Text) : trim (line ++ ['\r']) = trim line :=
  trim_append (List.forall_mem_singleton.mpr rfl)

theorem trim_wholeLines_crlf (s : Text) :
    (wholeLines (crlf s)).map trim = (wholeLines s).map trim := by
  induction s using lines_induction with
  | last line free => rw [crlf_of_not_mem free]
  | more line rest free ih =>
    rw [crlf_append_cons free, wholeLines_append_cons (not_mem_concat_return free),
      wholeLines_append_cons free, List.map_cons, List.map_cons, trim_line_feed, trim_line_feed,
      trim_concat_return, ih]

theorem trim_lines_crlf (s : Text) : (lines (crlf s)).map trim = (lines s).map trim := by
  induction s using lines_induction with
  | last line free => rw [crlf_of_not_mem free]
  | more line rest free ih =>
    rw [crlf_append_cons free, lines_append_cons (not_mem_concat_return free),
      lines_append_cons free, List.map_cons, List.map_cons, trim_concat_return, ih]

/-! ### Ended lines -/

/-- A line without the line feed that ends it, and without a carriage return before that. -/
def withoutEnd (line : Text) : Text :=
  match line.reverse with
  | '\n' :: '\r' :: rest => rest.reverse
  | '\n' :: rest => rest.reverse
  | _ => line

/-- The lines of a text without their ends. After the end of the last line there is none. -/
def endedLines (s : Text) : List Text := (wholeLines s).map withoutEnd

theorem trim_withoutEnd (line : Text) : trim (withoutEnd line) = trim line := by
  unfold withoutEnd
  split
  · next rest mirrored =>
    have parts : line = rest.reverse ++ ['\r', '\n'] := by
      rw [← List.reverse_reverse line, mirrored]
      simp
    rw [parts]
    exact (trim_append (List.all_eq_true.mp rfl)).symm
  · next rest _ mirrored =>
    have parts : line = rest.reverse ++ ['\n'] := by
      rw [← List.reverse_reverse line, mirrored]
      simp
    rw [parts]
    exact (trim_line_feed _).symm
  · rfl

theorem trim_endedLines (s : Text) : (endedLines s).map trim = (wholeLines s).map trim := by
  unfold endedLines
  rw [List.map_map]
  exact List.map_congr_left fun line _ => trim_withoutEnd line

end PathRules.Text
