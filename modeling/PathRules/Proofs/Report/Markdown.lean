import PathRules.Proofs.Text.Splitting
import PathRules.Report.Markdown

/-!
# Reading a Markdown report

The paths of the rules can be read back from a report if they have no line feeds, and the bodies too
if no line in them looks like the heading of a section (`markdown_reads_back`).
-/

namespace PathRules.Report

variable {rules others : List MatchedRule} {body other s t : Text}

/-! ### Summary -/

def OneLinePaths (rules : List MatchedRule) : Prop := ∀ rule ∈ rules, '\n' ∉ rule.path

theorem summaryLine_append (rule : MatchedRule) (s : Text) :
    summaryLine rule ++ s = (['-', ' ', '\x60'] ++ rule.path ++ ['\x60']) ++ '\n' :: s := by
  simp [summaryLine]

/-- The summary ends at the first empty line, and its lines give the paths. -/
theorem summary_unique (oneLine : OneLinePaths rules) (oneLine_too : OneLinePaths others)
    (same : rules.flatMap summaryLine ++ '\n' :: s = others.flatMap summaryLine ++ '\n' :: t) :
    rules.map MatchedRule.path = others.map MatchedRule.path ∧ s = t := by
  induction rules generalizing others with
  | nil =>
    cases others with
    | nil => exact ⟨rfl, (List.cons.inj same).2⟩
    | cons first others =>
      rw [List.flatMap_cons, List.append_assoc, summaryLine_append] at same
      exact absurd (List.cons.inj same).1 (by decide)
  | cons rule rules ih =>
    cases others with
    | nil =>
      rw [List.flatMap_cons, List.append_assoc, summaryLine_append] at same
      exact absurd (List.cons.inj same).1 (by decide)
    | cons first others =>
      obtain ⟨free, oneLine⟩ := List.forall_mem_cons.mp oneLine
      obtain ⟨free_too, oneLine_too⟩ := List.forall_mem_cons.mp oneLine_too
      rw [List.flatMap_cons, List.flatMap_cons, List.append_assoc, List.append_assoc,
        summaryLine_append, summaryLine_append] at same
      obtain ⟨line, later⟩ :=
        Text.append_cons_inj (by simpa using free) (by simpa using free_too) same
      have path : rule.path = first.path :=
        List.append_cancel_left (List.append_cancel_right line)
      obtain ⟨paths, rest⟩ := ih oneLine oneLine_too later
      exact ⟨by rw [List.map_cons, List.map_cons, path, paths], rest⟩

/-! ### Sections -/

/-- What the heading of a section starts with. -/
def headingMark : Text := ['#', '#', '#', ' ']

/-- No line of the text looks like a heading. -/
def Plain (text : Text) : Prop := ∀ line ∈ Text.lines text, ¬ headingMark <+: line

/-- The text is at its end, or goes on with a section. -/
def AtSection (text : Text) : Prop := text = [] ∨ headingMark <+: text

theorem not_plain {front back : Text} (marked : headingMark <+: back) :
    ¬ Plain (front ++ '\n' :: back) := by
  intro plain
  obtain ⟨rest, rfl⟩ := marked
  have free : '\n' ∉ headingMark := by decide
  have listed (line : Text) (member : line ∈ Text.lines (headingMark ++ rest)) :
      ¬ headingMark <+: line := by
    apply plain
    unfold Text.lines
    rw [Text.split_append]
    exact List.mem_append_right _ member
  rcases Text.split_cases '\n' rest with ⟨free_rest, _⟩ | ⟨part, later, free_part, rfl, _⟩
  · refine listed _ ?_ (List.prefix_append headingMark rest)
    unfold Text.lines
    rw [Text.split_of_not_mem (by simp [free, free_rest])]
    exact List.mem_cons_self
  · refine listed _ ?_ (List.prefix_append headingMark part)
    unfold Text.lines
    rw [← List.append_assoc, Text.split_append_cons (by simp [free, free_part])]
    exact List.mem_cons_self

theorem prefix_of_prefix_append {mark front back : Text} (free : '\n' ∉ mark)
    (start : mark <+: front ++ '\n' :: back) : mark <+: front := by
  rcases List.prefix_or_prefix_of_prefix start (List.prefix_append _ _) with shorter | longer
  · exact shorter
  · obtain ⟨rest, rfl⟩ := longer
    cases rest with
    | nil => exact (List.append_nil front).symm ▸ List.prefix_rfl
    | cons c rest =>
      have next := (List.prefix_append_right_inj front).mp start
      obtain ⟨rfl, _⟩ := List.cons_prefix_cons.mp next
      exact absurd (List.mem_append_right front List.mem_cons_self) free

theorem atSection_of_cons (atSection : AtSection ('\n' :: s)) : False := by
  rcases atSection with nothing | marked
  · cases nothing
  · exact absurd (List.cons_prefix_cons.mp marked).1 (by decide)

/-- A plain body does not reach beyond the empty line before the next section. -/
theorem body_not_longer {more : Text} (plain : Plain (body ++ more)) (atSection : AtSection s)
    (same : '\n' :: '\n' :: s = more ++ '\n' :: '\n' :: t) : more = [] := by
  match more with
  | [] => rfl
  | [c] =>
    obtain ⟨rfl, rest⟩ := List.cons.inj same
    have next := (List.cons.inj rest).2
    rw [next] at atSection
    exact (atSection_of_cons atSection).elim
  | c :: d :: more =>
    obtain ⟨rfl, rest⟩ := List.cons.inj same
    obtain ⟨rfl, next⟩ := List.cons.inj rest
    rcases atSection with rfl | marked
    · cases more <;> cases next
    · rw [next] at marked
      have within := prefix_of_prefix_append (by decide) marked
      have lines : body ++ '\n' :: '\n' :: more = (body ++ ['\n']) ++ '\n' :: more := by simp
      rw [lines] at plain
      exact absurd plain (not_plain within)

theorem body_unique (plain : Plain body) (plain_too : Plain other) (atSection : AtSection s)
    (atSection_too : AtSection t) (same : body ++ '\n' :: '\n' :: s = other ++ '\n' :: '\n' :: t) :
    body = other ∧ s = t := by
  have bodies : body = other := by
    rcases List.append_eq_append_iff.mp same with ⟨more, rfl, rest⟩ | ⟨more, rfl, rest⟩
    · rw [body_not_longer plain_too atSection rest, List.append_nil]
    · rw [body_not_longer plain atSection_too rest, List.append_nil]
  subst bodies
  have rest := List.append_cancel_left same
  exact ⟨rfl, (List.cons.inj (List.cons.inj rest).2).2⟩

def PlainBodies (rules : List MatchedRule) : Prop := ∀ rule ∈ rules, Plain rule.body

theorem ruleSection_append (rule : MatchedRule) (s : Text) :
    ruleSection rule ++ s =
      (headingMark ++ rule.path ++ ['\n', '\n']) ++ (rule.body ++ '\n' :: '\n' :: s) := by
  simp [ruleSection, headingMark]

theorem atSection_sections (rules : List MatchedRule) : AtSection (rules.flatMap ruleSection) := by
  cases rules with
  | nil => exact .inl rfl
  | cons rule rules =>
    refine .inr ?_
    rw [List.flatMap_cons, ruleSection_append, List.append_assoc, List.append_assoc]
    exact List.prefix_append _ _

theorem sections_unique (plain : PlainBodies rules) (plain_too : PlainBodies others)
    (paths : rules.map MatchedRule.path = others.map MatchedRule.path)
    (same : rules.flatMap ruleSection = others.flatMap ruleSection) : rules = others := by
  induction rules generalizing others with
  | nil => exact (List.map_eq_nil_iff.mp paths.symm).symm
  | cons rule rules ih =>
    cases others with
    | nil => cases paths
    | cons first others =>
      obtain ⟨path, paths⟩ := List.cons.inj paths
      obtain ⟨plain_body, plain⟩ := List.forall_mem_cons.mp plain
      obtain ⟨plain_first, plain_too⟩ := List.forall_mem_cons.mp plain_too
      rw [List.flatMap_cons, List.flatMap_cons, ruleSection_append, ruleSection_append,
        path] at same
      obtain ⟨bodies, later⟩ := body_unique plain_body plain_first (atSection_sections rules)
        (atSection_sections others) (List.append_cancel_left same)
      have heads : rule = first := by
        cases rule
        cases first
        rw [MatchedRule.mk.injEq]
        exact ⟨path, bodies⟩
      rw [heads, ih plain plain_too paths later]

/-! ### The report -/

theorem markdown_of_ne_nil (some_rules : rules ≠ []) :
    ∃ heading : Text, '\n' ∉ heading ∧ heading.head? = some 'マ' ∧
      markdown rules = heading ++ '\n' :: '\n' ::
        (rules.flatMap summaryLine ++ '\n' :: rules.flatMap ruleSection) := by
  have counted : '\n' ∉ Text.ofNat rules.length := by
    intro member
    exact absurd (Nat.isDigit_of_mem_toDigits (by decide) (by decide) member) (by decide)
  refine ⟨"マッチしたルール: ".toList ++ Text.ofNat rules.length ++ " 件".toList, ?_, rfl, ?_⟩
  · have before : '\n' ∉ "マッチしたルール: ".toList := by decide
    have after : '\n' ∉ " 件".toList := by decide
    simp only [List.mem_append, before, counted, after, or_self, not_false_eq_true]
  · have unit : " 件\n\n".toList = " 件".toList ++ ['\n', '\n'] := rfl
    unfold markdown
    rw [if_neg (by simpa using some_rules), Text.of_eq, Text.of_eq, unit]
    simp only [List.append_assoc, List.cons_append, List.nil_append]

theorem markdown_eq_noRules_iff (rules : List MatchedRule) :
    markdown rules = noRules ++ ['\n'] ↔ rules = [] := by
  constructor
  · intro same
    refine Decidable.byContradiction fun some_rules => ?_
    obtain ⟨heading, _, first, whole⟩ := markdown_of_ne_nil some_rules
    have starts := congrArg List.head? (whole.symm.trans same)
    have mark : noRules = "<!-- no-matching-rules -->".toList := Text.of_eq _
    obtain ⟨rest, rfl⟩ := List.head?_eq_some_iff.mp first
    rw [mark] at starts
    exact absurd (Option.some.inj starts) (by decide)
  · rintro rfl
    rfl

/-- From a report the paths of the rules can be read back if they have no line feeds, and the rules
altogether if moreover no line of a body looks like a heading. Only without any rule is the report
the mark for that. -/
theorem markdown_reads_back :
    (∀ rules others : List MatchedRule, OneLinePaths rules → OneLinePaths others →
      markdown rules = markdown others →
      rules.length = others.length ∧
      rules.map MatchedRule.path = others.map MatchedRule.path ∧
      (PlainBodies rules → PlainBodies others → rules = others)) ∧
    ∀ rules : List MatchedRule, markdown rules = noRules ++ ['\n'] ↔ rules = [] := by
  refine ⟨?_, markdown_eq_noRules_iff⟩
  intro rules others oneLine oneLine_too same
  by_cases nothing : rules = []
  · have mark : markdown rules = noRules ++ ['\n'] := (markdown_eq_noRules_iff rules).mpr nothing
    have nothing_too := (markdown_eq_noRules_iff others).mp (same.symm.trans mark)
    subst nothing nothing_too
    exact ⟨rfl, rfl, fun _ _ => rfl⟩
  have something : others ≠ [] := by
    rintro rfl
    exact nothing ((markdown_eq_noRules_iff rules).mp same)
  obtain ⟨heading, free, _, whole⟩ := markdown_of_ne_nil nothing
  obtain ⟨heading_other, free_other, _, whole_other⟩ := markdown_of_ne_nil something
  rw [whole, whole_other] at same
  obtain ⟨_, later⟩ := Text.append_cons_inj free free_other same
  obtain ⟨paths, sections⟩ := summary_unique oneLine oneLine_too (List.cons.inj later).2
  refine ⟨by simpa using congrArg List.length paths, paths, ?_⟩
  intro plain plain_too
  exact sections_unique plain plain_too paths sections

theorem markdown_reads_back_of_tricky_bodies :
    let rules : List MatchedRule := [
      ⟨"docs/a b.md".toList, "\n- \x60b.md\x60\n\n####\n ### x\n\n".toList⟩,
      ⟨"é.md".toList, []⟩, ⟨"é.md".toList, "<!-- no-matching-rules -->\n###".toList⟩]
    let ended : List MatchedRule := rules.take 2 ++ [⟨"é.md".toList, "\n".toList⟩]
    let again : List MatchedRule := ended.take 2 ++ rules.drop 2
    OneLinePaths rules ∧ PlainBodies rules ∧ markdown again = markdown rules ∧ again = rules ∧
      markdown ended ≠ markdown rules := by
  intro rules ended again
  have oneLine : OneLinePaths rules := by unfold OneLinePaths; decide
  have oneLine_ended : OneLinePaths ended := by unfold OneLinePaths; decide
  have plain : PlainBodies rules := by unfold PlainBodies Plain; decide
  have plain_ended : PlainBodies ended := by unfold PlainBodies Plain; decide
  have same : markdown again = markdown rules := rfl
  obtain ⟨_, _, equal⟩ := markdown_reads_back.1 again rules oneLine oneLine same
  refine ⟨oneLine, plain, same, equal plain plain, ?_⟩
  intro same_ended
  obtain ⟨_, _, equal_ended⟩ := markdown_reads_back.1 ended rules oneLine_ended oneLine same_ended
  exact absurd (equal_ended plain_ended plain) (by decide)

/-- Bodies that hold headings can be taken for further sections. -/
example :
    let a : Text := "a.md".toList
    let b : Text := "b.md".toList
    markdown [⟨a, "x".toList⟩, ⟨b, "y\n\n### b.md\n\nz".toList⟩] =
      markdown [⟨a, "x\n\n### b.md\n\ny".toList⟩, ⟨b, "z".toList⟩] := by
  rfl

end PathRules.Report
