import PathRules.Proofs.Json.Layout

/-!
# Reading a JSON report

A report is one JSON value and a line feed, and the value holds the paths and the bodies of the
rules as they are (`json_reads_back`).
-/

namespace PathRules.Report

open Json (Value)

/-- What a report of the rules says. -/
def decoded (rules : List MatchedRule) : Value :=
  .object [("matched".toList, .array (rules.map fun rule =>
    .object [("path".toList, .string rule.path), ("body".toList, .string rule.body)]))]

theorem toValue_value (rules : List MatchedRule) : (value rules).toValue = decoded rules := by
  unfold value decoded
  rw [Json.toValue, Json.fieldValues, Json.fieldValues, Json.toValue, Json.itemValues_map]
  simp only [ruleValue, Json.toValue, Json.fieldValues, Text.of_eq]

theorem decoded_injective {rules others : List MatchedRule}
    (same : decoded rules = decoded others) : rules = others := by
  simp only [decoded, Value.object.injEq, List.cons.injEq, Prod.mk.injEq, Value.array.injEq,
    true_and, and_true] at same
  refine List.map_injective_iff.mpr ?_ same
  rintro ⟨path, body⟩ ⟨path_too, body_too⟩ equal
  simp only [Value.object.injEq, List.cons.injEq, Prod.mk.injEq, Value.string.injEq, true_and,
    and_true] at equal
  rw [equal.1, equal.2]

/-- A report is one JSON value, and then a line feed. By the grammar it is an object with the one
key `matched` and the paths and bodies of the rules under it, in their order; and so reports of
different rules are different. -/
theorem json_reads_back :
    (∀ rules : List MatchedRule, ∃ text, json rules = text ++ ['\n'] ∧
      text.getLast? = some '\x7d' ∧
      ∀ v, Json.Reads .value text v [] ↔ v = decoded rules) ∧
    ∀ rules others : List MatchedRule, json rules = json others → rules = others := by
  have read (rules : List MatchedRule) :
      Json.Reads .value ((value rules).render 0) (decoded rules) [] := by
    have whole := Json.reads_render (value rules) 0 []
    rwa [List.append_nil, toValue_value] at whole
  have unique {rules : List MatchedRule} {v : Value}
      (other : Json.Reads .value ((value rules).render 0) v []) : v = decoded rules :=
    (other.unique (read rules) rfl rfl).1
  refine ⟨fun rules => ⟨(value rules).render 0, rfl, ?_, fun v => ⟨unique, ?_⟩⟩, ?_⟩
  · rw [value, Json.render]
    exact Json.getLast?_bracketed _ _ _ _
  · rintro rfl
    exact read rules
  · intro rules others same
    have texts : (value rules).render 0 = (value others).render 0 := List.append_cancel_right same
    have read_too := read rules
    rw [texts] at read_too
    exact decoded_injective (unique read_too)

theorem json_reads_back_of_escapes :
    let rules : List MatchedRule := [
      ⟨"docs/\"a\\b\".md".toList, "\x00\t\r\n\x1f\x7f/".toList⟩, ⟨"é.md".toList, []⟩]
    let broken : List MatchedRule := rules.take 1 ++ [⟨"é.md".toList, "\n".toList⟩]
    let spelled : List MatchedRule := rules.take 1 ++ [⟨"é.md".toList, "\\n".toList⟩]
    let again : List MatchedRule := rules.take 1 ++ broken.drop 1
    json again = json broken ∧ again = broken ∧ json spelled ≠ json broken := by
  intro rules broken spelled again
  have same : json again = json broken := rfl
  refine ⟨same, json_reads_back.2 again broken same, ?_⟩
  intro same_spelled
  exact absurd (json_reads_back.2 spelled broken same_spelled) (by decide)

end PathRules.Report
