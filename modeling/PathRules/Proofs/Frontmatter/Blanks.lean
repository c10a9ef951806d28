import PathRules.Proofs.Frontmatter.Layout
import PathRules.Proofs.Text.LineEnds
import Mathlib.Data.List.Forall2

/-!
# Blanks around the lines of a document

The lines of a document count as they are trimmed, so blanks at their ends have no part in the
globs, nor in the body if only lines of the block differ by them (`blanks_around_lines_unread`).
-/

namespace PathRules.Frontmatter

/-- One blank. -/
def Gap.single (c : Char) (blank : Text.isBlank c = true) (inLine : c ≠ '\n') : Gap where
  text := [c]
  blank := by simpa using blank
  inLine := by simpa using inLine.symm

/-- The lines differ at most in the blanks at their ends. -/
def SaysSame (line other : Text) : Prop :=
  ∃ (said : Text) (padding new : Padding), line = padding.around said ∧ other = new.around said

theorem SaysSame.refl (line : Text) : SaysSame line line :=
  ⟨line, {}, {}, by simp [Padding.around, Gap.none], by simp [Padding.around, Gap.none]⟩

theorem SaysSame.trim_eq {line other : Text} (same : SaysSame line other) :
    Text.trim other = Text.trim line := by
  obtain ⟨said, padding, new, rfl, rfl⟩ := same
  unfold Padding.around
  rw [Text.trim_append new.after.blank, Text.trim_append_left new.before.blank,
    Text.trim_append padding.after.blank, Text.trim_append_left padding.before.blank]

theorem trim_map_eq {lines others : List Text} (same : List.Forall₂ SaysSame lines others) :
    others.map Text.trim = lines.map Text.trim := by
  induction same with
  | nil => rfl
  | cons first _ ih => rw [List.map_cons, List.map_cons, first.trim_eq, ih]

/-! ### Trimmed lines -/

theorem isDelimiter_map (lines : List Text) :
    lines.map isDelimiter = (lines.map Text.trim).map (· == delimiter) := by
  rw [List.map_map]
  rfl

/-- The globs are read off the trimmed lines. -/
theorem patterns_eq_of_trim {content other : Text}
    (same : (Text.lines other).map Text.trim = (Text.lines content).map Text.trim) :
    patterns other = patterns content := by
  unfold patterns
  cases lines : Text.lines content with
  | nil => exact absurd lines (Text.split_ne_nil '\n' content)
  | cons first rest =>
    cases others : Text.lines other with
    | nil => exact absurd others (Text.split_ne_nil '\n' other)
    | cons head tail =>
      rw [lines, others, List.map_cons, List.map_cons] at same
      obtain ⟨opening, rest_same⟩ := List.cons.inj same
      simp only [isDelimiter, opening, items_before_list, rest_same]

/-- The closing line is told by the trimmed lines. -/
theorem isClosed_iff {block : List Text} :
    IsClosed block ↔
      ∃ n, block.map isDelimiter = true :: (List.replicate n false ++ [true]) := by
  constructor
  · rintro ⟨first, middle, last, rfl, opening, within, closing⟩
    refine ⟨middle.length, ?_⟩
    have marks : middle.map isDelimiter = List.replicate middle.length false :=
      List.map_eq_replicate_iff.mpr within
    simp [opening, closing, marks]
  · rintro ⟨n, marks⟩
    obtain ⟨first, rest, rfl, opening, others⟩ := List.map_eq_cons_iff.mp marks
    obtain ⟨middle, ending, rfl, within, ended⟩ := List.map_eq_append_iff.mp others
    obtain ⟨last, rfl, closing⟩ := List.map_eq_singleton_iff.mp ended
    refine ⟨first, middle, last, rfl, opening, fun line member => ?_, closing⟩
    have mark : isDelimiter line ∈ List.replicate n false :=
      within ▸ List.mem_map_of_mem member
    exact (List.mem_replicate.mp mark).2

theorem IsClosed.of_trim {block changed : List Text} (closed : IsClosed block)
    (same : changed.map Text.trim = block.map Text.trim) : IsClosed changed := by
  rw [isClosed_iff, isDelimiter_map] at closed ⊢
  rwa [same]

/-- The body is the text of the lines after the closing one. -/
theorem body_of_lines {content : Text} {block rest : List Text} (closed : IsClosed block)
    (cut : Text.lines content = block ++ rest) :
    body content = (Text.join '\n' rest).dropWhile (· == '\n') := by
  obtain ⟨first, middle, last, rfl, opening, within, closing⟩ := closed
  have lines : Text.lines content = first :: (middle ++ last :: rest) := by
    rw [cut]
    simp
  unfold body
  rw [lines]
  simp only [opening, if_true, afterDelimiter?_append within closing]

/-! ### Other blanks -/

theorem saysSame_lines_crlf (content : Text) :
    List.Forall₂ SaysSame (Text.lines content) (Text.lines (Text.crlf content)) := by
  induction content using Text.lines_induction with
  | last line free =>
    rw [Text.crlf_of_not_mem free]
    exact List.forall₂_same.mpr fun line _ => .refl line
  | more line rest free ih =>
    rw [Text.crlf_append_cons free, Text.lines_append_cons (Text.not_mem_concat_return free),
      Text.lines_append_cons free]
    refine .cons ⟨line, {}, { after := .single '\r' rfl (by decide) }, ?_, ?_⟩ ih
    · simp [Padding.around, Gap.none]
    · simp [Padding.around, Gap.none, Gap.single]

/-- Other blanks at the ends of lines leave the globs of a document, and so do carriage returns at
the ends of all lines. If only lines up to the closing delimiter get other blanks, then the body
stays too. -/
theorem blanks_around_lines_unread (content : Text) :
    (∀ other, List.Forall₂ SaysSame (Text.lines content) (Text.lines other) →
      patterns other = patterns content) ∧
    patterns (Text.crlf content) = patterns content ∧
    (Delimited (Text.lines content) →
      ∃ block rest, IsClosed block ∧ Text.lines content = block ++ rest) ∧
    ∀ block rest, IsClosed block → Text.lines content = block ++ rest →
      ∀ other changed, List.Forall₂ SaysSame block changed → Text.lines other = changed ++ rest →
        body other = body content ∧ patterns other = patterns content := by
  have unread (other : Text) (same : List.Forall₂ SaysSame (Text.lines content) (Text.lines other)) :
      patterns other = patterns content := patterns_eq_of_trim (trim_map_eq same)
  refine ⟨unread, unread _ (saysSame_lines_crlf content), exists_closed_of_delimited, ?_⟩
  intro block rest closed cut other changed same cut_too
  have closed_too := closed.of_trim (trim_map_eq same)
  refine ⟨?_, unread other ?_⟩
  · rw [body_of_lines closed_too cut_too, body_of_lines closed cut]
  · rw [cut, cut_too]
    exact List.rel_append same (List.forall₂_same.mpr fun line _ => .refl line)

/-- The list ends at an item without a text, however many blanks follow its marker. -/
theorem blanks_around_lines_unread_at_empty_item :
    let content := "---\npaths:\n- a\n- \n---\n b\t".toList
    let other := " ---\npaths:\r\n\u00a0- a\n-\n\t---\u2003\n b\t".toList
    Delimited (Text.lines content) ∧ patterns other = patterns content ∧
      patterns content = ["a".toList] ∧ body other = body content ∧
      body content = " b\t".toList := by
  intro content other
  obtain ⟨_, _, _, up_to_closing⟩ := blanks_around_lines_unread content
  have closed : IsClosed ["---".toList, "paths:".toList, "- a".toList, "- ".toList, "---".toList] :=
    ⟨_, ["paths:".toList, "- a".toList, "- ".toList], _, rfl, by decide, by decide, by decide⟩
  have same : List.Forall₂ SaysSame
      ["---".toList, "paths:".toList, "- a".toList, "- ".toList, "---".toList]
      [" ---".toList, "paths:\r".toList, "\u00a0- a".toList, "-".toList, "\t---\u2003".toList] := by
    let space := Gap.single ' ' rfl (by decide)
    let tab := Gap.single '\t' rfl (by decide)
    let noBreak := Gap.single '\u00a0' rfl (by decide)
    let wide := Gap.single '\u2003' rfl (by decide)
    let ending := Gap.single '\r' rfl (by decide)
    refine .cons ⟨"---".toList, {}, { before := space }, rfl, rfl⟩ ?_
    refine .cons ⟨"paths:".toList, {}, { after := ending }, rfl, rfl⟩ ?_
    refine .cons ⟨"- a".toList, {}, { before := noBreak }, rfl, rfl⟩ ?_
    refine .cons ⟨"-".toList, { after := space }, {}, rfl, rfl⟩ ?_
    refine .cons ⟨"---".toList, {}, ⟨tab, wide⟩, rfl, rfl⟩ .nil
  obtain ⟨body_same, globs_same⟩ :=
    up_to_closing _ [" b\t".toList] closed (by decide) other _ same (by decide)
  exact ⟨⟨by decide, by decide⟩, globs_same, by decide, body_same, by decide⟩

end PathRules.Frontmatter
