import PathRules.Proofs.ChangedFiles.Acceptance
import PathRules.Proofs.Text.LineEnds

/-!
# Paths that a list yields

A list yields paths without line feeds and without blanks at their ends, and each row of such paths
is yielded by the list that has them line by line (`parse_reads_listable`).
-/

namespace PathRules.ChangedFiles

/-- A path that a list can yield. -/
structure Listable (path : Text) : Prop where
  nonempty : path ≠ []
  oneLine : '\n' ∉ path
  first : path.head?.any Text.isBlank = false
  last : path.getLast?.any Text.isBlank = false

theorem listable_of_mem_parse {content path : Text} (listed : path ∈ parse content) :
    Listable path := by
  obtain ⟨nonempty, line, _, rfl⟩ := mem_parse_iff.mp listed
  exact ⟨nonempty, one_line_of_mem_parse listed, Text.head?_trim line, Text.getLast?_trim line⟩

theorem parse_append (a b : Text) : parse (a ++ '\n' :: b) = parse a ++ parse b := by
  unfold parse Text.lines
  rw [Text.split_append, List.map_append, List.filter_append]

theorem parse_crlf (content : Text) : parse (Text.crlf content) = parse content := by
  unfold parse
  rw [Text.trim_lines_crlf]

theorem parse_eq_endedLines (content : Text) :
    parse content = ((Text.endedLines content).map Text.trim).filter (!·.isEmpty) := by
  rw [Text.trim_endedLines]
  induction content using Text.lines_induction with
  | last line free =>
    unfold parse
    by_cases nothing : line = []
    · rw [nothing]
      rfl
    · rw [Text.lines_of_not_mem free, Text.wholeLines_of_not_mem free nothing]
  | more line rest free ih =>
    rw [parse_append, ih, Text.wholeLines_append_cons free, List.map_cons, Text.trim_line_feed]
    unfold parse
    rw [Text.lines_of_not_mem free, ← List.filter_append]
    rfl

theorem parse_join {paths : List Text} (listable : ∀ path ∈ paths, Listable path) :
    parse (Text.join '\n' paths) = paths := by
  by_cases nothing : paths = []
  · rw [nothing]
    rfl
  · have cut := Text.split_join nothing fun path member => (listable path member).oneLine
    have trimmed : paths.map Text.trim = paths := by
      refine (List.map_congr_left fun path member => ?_).trans (List.map_id paths)
      exact Text.trim_eq_self (listable path member).first (listable path member).last
    unfold parse Text.lines
    rw [cut, trimmed, List.filter_eq_self]
    intro path member
    simpa using (listable path member).nonempty

/-- A list yields its lines trimmed, apart from blank ones, whether or not they end with a carriage
return. Two lists joined by a line feed yield what they yield one after the other. What a list can
yield are the rows of paths without a line feed and without a blank at an end, and the list that has
these paths line by line yields them. -/
theorem parse_reads_listable :
    (∀ content, parse content =
      ((Text.endedLines content).map Text.trim).filter (!·.isEmpty)) ∧
    (∀ content, ∀ path ∈ parse content, Listable path) ∧
    (∀ a b, parse (a ++ '\n' :: b) = parse a ++ parse b) ∧
    (∀ content, parse (Text.crlf content) = parse content) ∧
    (∀ paths, (∀ path ∈ paths, Listable path) →
      parse (Text.join '\n' paths) = paths ∧ parse (Text.join '\n' paths ++ ['\n']) = paths) ∧
    (∀ content, parse (Text.join '\n' (parse content)) = parse content) ∧
    ∀ paths, (∃ content, parse content = paths) ↔ ∀ path ∈ paths, Listable path := by
  have yielded (content : Text) : ∀ path ∈ parse content, Listable path :=
    fun path => listable_of_mem_parse
  refine ⟨parse_eq_endedLines, yielded, parse_append, parse_crlf, ?_, ?_, ?_⟩
  · intro paths listable
    have ended := parse_append (Text.join '\n' paths) []
    rw [ended, parse_join listable]
    exact ⟨rfl, List.append_nil paths⟩
  · exact fun content => parse_join (yielded content)
  · intro paths
    constructor
    · rintro ⟨content, rfl⟩
      exact yielded content
    · exact fun listable => ⟨_, parse_join listable⟩

theorem parse_reads_listable_with_inner_blanks :
    let paths := ["a b\rc".toList, "é\u0085x".toList, "\u200b".toList]
    (∀ path ∈ paths, Listable path) ∧
      parse (Text.join '\n' paths ++ ['\n']) = paths ∧
      parse (Text.crlf (Text.join '\n' paths)) = paths ∧
      Listable "x\ry".toList ∧ "x\ry".toList ∈ parse "\u3000\n x\ry\u2009\r\n\r".toList := by
  intro paths
  have listable : ∀ path ∈ paths, Listable path := by
    intro path member
    simp only [paths, List.mem_cons, List.not_mem_nil, or_false] at member
    rcases member with rfl | rfl | rfl
    all_goals constructor <;> decide
  obtain ⟨_, yielded, _, carriage, joined, _⟩ := parse_reads_listable
  have listed : "x\ry".toList ∈ parse "\u3000\n x\ry\u2009\r\n\r".toList := by decide
  refine ⟨listable, (joined paths listable).2, ?_, yielded _ _ listed, listed⟩
  rw [carriage]
  exact (joined paths listable).1

end PathRules.ChangedFiles
