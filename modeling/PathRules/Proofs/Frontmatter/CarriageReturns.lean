import PathRules.Proofs.Frontmatter.Blanks

/-!
# Carriage returns in front of the body

Only line feeds are dropped between the block and the body. So if the lines of a document end with
carriage returns as well, then the empty lines after the block stay in its body
(`body_crlf_keeps_empty_lines`), and they alone make the two documents differ.
-/

namespace PathRules.Frontmatter

/-! ### Delimiters -/

theorem opens_eq_trim (lines : List Text) :
    opens lines = (lines.map Text.trim).head?.any (· == delimiter) := by
  cases lines <;> rfl

theorem closes_eq_trim (lines : List Text) :
    closes lines = (lines.map Text.trim).tail.any (· == delimiter) := by
  rw [← List.map_tail, List.any_map]
  rfl

theorem delimited_iff_of_trim {lines others : List Text}
    (same : others.map Text.trim = lines.map Text.trim) : Delimited others ↔ Delimited lines := by
  unfold Delimited
  rw [opens_eq_trim, opens_eq_trim, closes_eq_trim, closes_eq_trim, same]

theorem body_of_not_delimited {content : Text}
    (undelimited : ¬ Delimited (Text.wholeLines content)) : body content = content := by
  cases opening : opens (Text.wholeLines content) with
  | false => exact (unread_of_not_opens opening).2
  | true =>
    apply body_of_not_closes opening
    rw [← Bool.not_eq_true]
    exact fun closing => undelimited ⟨opening, closing⟩

/-! ### Bodies -/

theorem dropWhile_line_feed_eq_self {s : Text} (started : s.head? ≠ some '\n') :
    s.dropWhile (· == '\n') = s := by
  cases s with
  | nil => rfl
  | cons c rest =>
    have other : c ≠ '\n' := by simpa using started
    exact List.dropWhile_cons_of_neg (by simpa using other)

theorem body_crlf_of_not_delimited {content : Text}
    (undelimited : ¬ Delimited (Text.wholeLines content)) :
    body (Text.crlf content) = Text.crlf (body content) := by
  have undelimited_too : ¬ Delimited (Text.wholeLines (Text.crlf content)) := by
    rwa [delimited_iff_of_trim (Text.trim_wholeLines_crlf content)]
  rw [body_of_not_delimited undelimited_too, body_of_not_delimited undelimited]

/-- A carriage return in front of the line feeds keeps them from being dropped. -/
theorem body_crlf_of_cut {content : Text} {block tail : List Text} (closed : IsClosed block)
    (cut : Text.wholeLines content = block ++ tail) :
    body (Text.crlf content) = Text.crlf tail.flatten := by
  have lines : Text.wholeLines (Text.crlf content) = block.map Text.crlf ++ tail.map Text.crlf := by
    rw [Text.wholeLines_crlf, cut, List.map_append]
  have trims := Text.trim_wholeLines_crlf content
  rw [lines, cut, List.map_append, List.map_append] at trims
  have block_trims := List.append_inj_left trims (by simp)
  rw [body_of_cut (closed.of_trim block_trims) lines, ← Text.crlf_flatten]
  exact dropWhile_line_feed_eq_self (Text.head?_crlf tail.flatten)

/-- The body of a document whose lines end with carriage returns as well is that of the document
without them, with the empty lines in front that directly follow the block. So if there are such
lines, and only then, it says something else. -/
theorem body_crlf_keeps_empty_lines (content : Text) :
    (¬ Delimited (Text.wholeLines content) →
      body (Text.crlf content) = Text.crlf (body content)) ∧
    (Delimited (Text.wholeLines content) →
      ∃ block n, IsBlock block content ∧
        content = block ++ List.replicate n '\n' ++ body content ∧
        (body content).head? ≠ some '\n' ∧
        body (Text.crlf content) =
          Text.crlf (List.replicate n '\n') ++ Text.crlf (body content) ∧
        (body (Text.crlf content) = Text.crlf (body content) ↔ n = 0)) := by
  refine ⟨body_crlf_of_not_delimited, fun delimited => ?_⟩
  obtain ⟨block, tail, closed, cut⟩ := exists_closed_of_delimited delimited
  obtain ⟨n, feeds⟩ := exists_replicate_line_feed tail.flatten
  rw [← body_of_cut closed cut] at feeds
  have whole : content = block.flatten ++ tail.flatten := by
    rw [← List.flatten_append, ← cut, Text.flatten_wholeLines]
  have kept : body (Text.crlf content) =
      Text.crlf (List.replicate n '\n') ++ Text.crlf (body content) := by
    rw [body_crlf_of_cut closed cut, feeds, Text.crlf_append]
  refine ⟨block.flatten, n, isBlock_of_isClosed closed cut, ?_, ?_, kept, ?_⟩
  · rw [List.append_assoc, ← feeds]
    exact whole
  · rw [body_of_cut closed cut]
    exact head?_dropWhile_line_feed tail.flatten
  · rw [kept, List.append_left_eq_self, Text.crlf_eq_nil_iff, List.replicate_eq_nil_iff]

theorem body_crlf_differs_after_empty_line :
    let content : Text := "---\n---\n\nx".toList
    '\r' ∉ content ∧ body (Text.crlf content) = "\r\nx".toList ∧
      Text.crlf (body content) = "x".toList ∧
      body (Text.crlf content) ≠ Text.crlf (body content) := by
  decide

end PathRules.Frontmatter
