import PathRules.Proofs.Frontmatter.Stages
import PathRules.Proofs.Text.Lines

/-!
# The block of a rule document

The globs are read from the lines of a document, the body is what stands after some of them.
`block_seen_alike` says that both readings agree on the block: it is the shortest start of whole
lines with two delimiters, and what comes after it has no part in the globs.
-/

namespace PathRules.Frontmatter

/-! ### Readings of whole lines -/

/-- The globs that lines declare. -/
def patternsIn : List Text → List Text
  | [] => []
  | first :: rest => if isDelimiter first then items false rest else []

/-- The lines after the block, if the lines open with one. -/
def afterBlock? : List Text → Option (List Text)
  | [] => none
  | first :: rest => if isDelimiter first then afterDelimiter? rest else none

theorem isDelimiter_line_feed (line : Text) : isDelimiter (line ++ ['\n']) = isDelimiter line := by
  unfold isDelimiter
  rw [Text.trim_line_feed]

/-- Lines count as they are trimmed. -/
theorem items_cons_congr {line other : Text} {lines others : List Text}
    (same : Text.trim line = Text.trim other)
    (rest : ∀ inList, items inList lines = items inList others) (inList : Bool) :
    items inList (line :: lines) = items inList (other :: others) := by
  unfold items
  rw [same, rest true, rest false]

theorem items_lines (s : Text) (inList : Bool) :
    items inList (Text.lines s) = items inList (Text.wholeLines s) := by
  induction s using Text.lines_induction generalizing inList with
  | last line free =>
    by_cases nothing : line = []
    · subst nothing
      cases inList <;> rfl
    · rw [Text.lines_of_not_mem free, Text.wholeLines_of_not_mem free nothing]
  | more line rest free ih =>
    rw [Text.lines_append_cons free, Text.wholeLines_append_cons free]
    exact items_cons_congr (Text.trim_line_feed line).symm ih inList

theorem afterDelimiter?_lines (s : Text) :
    (afterDelimiter? (Text.lines s)).map (Text.join '\n') =
      (afterDelimiter? (Text.wholeLines s)).map List.flatten := by
  induction s using Text.lines_induction with
  | last line free =>
    by_cases nothing : line = []
    · subst nothing
      rfl
    · rw [Text.lines_of_not_mem free, Text.wholeLines_of_not_mem free nothing]
      cases closing : isDelimiter line <;> simp [afterDelimiter?, closing, Text.join]
  | more line rest free ih =>
    rw [Text.lines_append_cons free, Text.wholeLines_append_cons free]
    cases closing : isDelimiter line with
    | true =>
      have joined : Text.join '\n' (Text.lines rest) = rest := Text.join_split '\n' rest
      simp [afterDelimiter?, isDelimiter_line_feed, closing, joined, Text.flatten_wholeLines]
    | false => simp [afterDelimiter?, isDelimiter_line_feed, closing, ih]

theorem patterns_eq_patternsIn (content : Text) :
    patterns content = patternsIn (Text.wholeLines content) := by
  unfold patterns
  induction content using Text.lines_induction with
  | last line free =>
    by_cases nothing : line = []
    · subst nothing
      rfl
    · rw [Text.lines_of_not_mem free, Text.wholeLines_of_not_mem free nothing]
      rfl
  | more line rest free _ =>
    rw [Text.lines_append_cons free, Text.wholeLines_append_cons free]
    simp only [patternsIn, isDelimiter_line_feed, items_lines]

/-- The body is what stands after the block, without the line feeds in front of it. -/
theorem body_eq_afterBlock (content : Text) :
    body content = match afterBlock? (Text.wholeLines content) with
      | some tail => tail.flatten.dropWhile (· == '\n')
      | none => content := by
  unfold body
  induction content using Text.lines_induction with
  | last line free =>
    by_cases nothing : line = []
    · subst nothing
      rfl
    · rw [Text.lines_of_not_mem free, Text.wholeLines_of_not_mem free nothing]
      cases opening : isDelimiter line <;> simp [afterBlock?, afterDelimiter?, opening]
  | more line rest free _ =>
    have joined := afterDelimiter?_lines rest
    rw [Text.lines_append_cons free, Text.wholeLines_append_cons free]
    simp only [afterBlock?, isDelimiter_line_feed]
    cases opening : isDelimiter line with
    | false => rfl
    | true =>
      simp only [if_true]
      cases whole : afterDelimiter? (Text.wholeLines rest) with
      | none =>
        rw [whole, Option.map_none, Option.map_eq_none_iff] at joined
        rw [joined]
      | some tail =>
        rw [whole, Option.map_some, Option.map_eq_some_iff] at joined
        obtain ⟨lines, found, same⟩ := joined
        rw [found]
        dsimp only
        rw [same]

/-! ### Where the block ends -/

/-- A delimiter line, and the lines after it up to the next delimiter line, which is the last. -/
def IsClosed (block : List Text) : Prop :=
  ∃ first middle last, block = first :: (middle ++ [last]) ∧ isDelimiter first = true ∧
    (∀ line ∈ middle, isDelimiter line = false) ∧ isDelimiter last = true

theorem afterDelimiter?_append {middle : List Text} {last : Text}
    (within : ∀ line ∈ middle, isDelimiter line = false) (closing : isDelimiter last = true)
    (tail : List Text) : afterDelimiter? (middle ++ last :: tail) = some tail := by
  induction middle with
  | nil => exact if_pos closing
  | cons line middle ih =>
    obtain ⟨other, within⟩ := List.forall_mem_cons.mp within
    rw [List.cons_append, afterDelimiter?, other, if_neg Bool.false_ne_true, ih within]

theorem afterDelimiter?_eq_some {lines tail : List Text}
    (found : afterDelimiter? lines = some tail) :
    ∃ middle last, lines = middle ++ last :: tail ∧
      (∀ line ∈ middle, isDelimiter line = false) ∧ isDelimiter last = true := by
  induction lines with
  | nil => cases found
  | cons line lines ih =>
    cases closing : isDelimiter line with
    | true =>
      rw [afterDelimiter?, if_pos closing] at found
      obtain rfl := Option.some.inj found
      exact ⟨[], line, rfl, by simp, closing⟩
    | false =>
      rw [afterDelimiter?, closing, if_neg Bool.false_ne_true] at found
      obtain ⟨middle, last, rfl, within, ended⟩ := ih found
      exact ⟨line :: middle, last, rfl, List.forall_mem_cons.mpr ⟨closing, within⟩, ended⟩

theorem afterDelimiter?_eq_none_iff {lines : List Text} :
    afterDelimiter? lines = none ↔ lines.any isDelimiter = false := by
  induction lines with
  | nil => simp [afterDelimiter?]
  | cons line lines ih =>
    cases closing : isDelimiter line <;> simp [afterDelimiter?, closing, ih]

theorem afterBlock?_append {block : List Text} (closed : IsClosed block) (tail : List Text) :
    afterBlock? (block ++ tail) = some tail := by
  obtain ⟨first, middle, last, rfl, opening, within, closing⟩ := closed
  have cut : first :: (middle ++ [last]) ++ tail = first :: (middle ++ last :: tail) := by simp
  rw [cut, afterBlock?, if_pos opening, afterDelimiter?_append within closing]

theorem block_append_delimiter (lines tail : List Text) :
    block (lines ++ delimiter :: tail) = block lines := by
  induction lines with
  | nil => rfl
  | cons line lines ih =>
    by_cases closing : line = delimiter
    · rw [closing]
      rfl
    · rw [List.cons_append, block_cons closing, block_cons closing, ih]

/-- From the closing delimiter on, no line declares a glob. -/
theorem items_append_delimiter {last : Text} (closing : isDelimiter last = true) (inList : Bool)
    (middle tail : List Text) :
    items inList (middle ++ last :: tail) = items inList middle := by
  have trimmed : Text.trim last = delimiter := by simpa [isDelimiter] using closing
  have ended : block ((middle ++ last :: tail).map Text.trim) = block (middle.map Text.trim) := by
    rw [List.map_append, List.map_cons, trimmed, block_append_delimiter]
  cases inList with
  | true => rw [items_in_list, items_in_list, ended]
  | false => rw [items_before_list, items_before_list, ended]

theorem patternsIn_append {block : List Text} (closed : IsClosed block) (tail : List Text) :
    patternsIn (block ++ tail) = patternsIn block := by
  obtain ⟨first, middle, last, rfl, opening, _, closing⟩ := closed
  have cut : first :: (middle ++ [last]) ++ tail = first :: (middle ++ last :: tail) := by simp
  rw [cut, patternsIn, patternsIn, if_pos opening, if_pos opening,
    items_append_delimiter closing, items_append_delimiter closing]

/-! ### The block of a text -/

def opens (lines : List Text) : Bool := lines.head?.any isDelimiter

def closes (lines : List Text) : Bool := lines.tail.any isDelimiter

/-- A delimiter is the first of the lines, and another one comes later. -/
def Delimited (lines : List Text) : Prop := opens lines = true ∧ closes lines = true

/-- The block of a text: the shortest start of whole lines that is delimited. -/
def IsBlock (block content : Text) : Prop :=
  ∃ lines, block = lines.flatten ∧ lines <+: Text.wholeLines content ∧ Delimited lines ∧
    ∀ fewer, fewer <+: Text.wholeLines content → Delimited fewer → lines.length ≤ fewer.length

theorem delimited_of_isClosed {block : List Text} (closed : IsClosed block) : Delimited block := by
  obtain ⟨first, middle, last, rfl, opening, _, closing⟩ := closed
  exact ⟨opening, by simp [closes, closing]⟩

/-- Delimited lines are closed from the first to some other. -/
theorem exists_closed_of_delimited {lines : List Text} (delimited : Delimited lines) :
    ∃ block tail, IsClosed block ∧ lines = block ++ tail := by
  obtain ⟨opening, later⟩ := delimited
  cases lines with
  | nil => cases opening
  | cons first rest =>
    have closes : afterDelimiter? rest ≠ none := fun nothing => by
      rw [closes, List.tail_cons, afterDelimiter?_eq_none_iff.mp nothing] at later
      cases later
    obtain ⟨tail, found⟩ := Option.ne_none_iff_exists'.mp closes
    obtain ⟨middle, last, rfl, within, closing⟩ := afterDelimiter?_eq_some found
    exact ⟨first :: (middle ++ [last]), tail, ⟨first, middle, last, rfl, opening, within, closing⟩,
      by simp⟩

/-- Fewer lines than the closed ones have no second delimiter. -/
theorem length_le_of_delimited {block fewer lines : List Text} (closed : IsClosed block)
    (start : block <+: lines) (other : fewer <+: lines) (delimited : Delimited fewer) :
    block.length ≤ fewer.length := by
  by_contra longer
  obtain ⟨first, middle, last, rfl, _, within, _⟩ := closed
  have shorter : fewer <+: first :: (middle ++ [last]) :=
    List.prefix_of_prefix_length_le other start (by omega)
  cases fewer with
  | nil => cases delimited.1
  | cons head rest =>
    obtain ⟨rfl, inside⟩ := List.cons_prefix_cons.mp shorter
    have bound : rest.length ≤ middle.length := by
      simp only [List.length_cons, List.length_append, List.length_nil] at longer
      omega
    have passed : rest <+: middle :=
      List.prefix_of_prefix_length_le inside (List.prefix_append middle [last]) bound
    obtain ⟨line, member, closing⟩ := List.any_eq_true.mp delimited.2
    rw [within line (passed.subset member)] at closing
    cases closing

theorem isBlock_of_isClosed {block tail : List Text} {content : Text} (closed : IsClosed block)
    (cut : Text.wholeLines content = block ++ tail) : IsBlock block.flatten content := by
  have start : block <+: Text.wholeLines content := ⟨tail, cut.symm⟩
  exact ⟨block, rfl, start, delimited_of_isClosed closed,
    fun _ other delimited => length_le_of_delimited closed start other delimited⟩

theorem head?_dropWhile_line_feed (s : Text) : (s.dropWhile (· == '\n')).head? ≠ some '\n' := by
  intro leading
  have kept := List.head?_dropWhile_not (· == '\n') s
  rw [leading] at kept
  cases kept

/-- What stands in front of a text without its leading line feeds is line feeds. -/
theorem exists_replicate_line_feed (s : Text) :
    ∃ n, s = List.replicate n '\n' ++ s.dropWhile (· == '\n') := by
  refine ⟨(s.takeWhile (· == '\n')).length, ?_⟩
  have same : s.takeWhile (· == '\n') = List.replicate (s.takeWhile (· == '\n')).length '\n' :=
    List.eq_replicate_iff.mpr ⟨rfl, fun c member => by simpa using List.mem_takeWhile_imp member⟩
  rw [← same, List.takeWhile_append_dropWhile]

theorem unread_of_not_opens {content : Text} (unopened : opens (Text.wholeLines content) = false) :
    patterns content = [] ∧ body content = content := by
  rw [patterns_eq_patternsIn, body_eq_afterBlock]
  cases lines : Text.wholeLines content with
  | nil => exact ⟨rfl, rfl⟩
  | cons first rest =>
    have ordinary : isDelimiter first = false := by simpa [lines, opens] using unopened
    simp [patternsIn, afterBlock?, ordinary]

theorem body_of_not_closes {content : Text} (opening : opens (Text.wholeLines content) = true)
    (unclosed : closes (Text.wholeLines content) = false) : body content = content := by
  rw [body_eq_afterBlock]
  cases lines : Text.wholeLines content with
  | nil => rfl
  | cons first rest =>
    rw [lines] at opening unclosed
    have nothing : afterDelimiter? rest = none := afterDelimiter?_eq_none_iff.mpr unclosed
    have first_line : isDelimiter first = true := opening
    rw [afterBlock?, if_pos first_line, nothing]

theorem body_of_cut {content : Text} {block tail : List Text} (closed : IsClosed block)
    (cut : Text.wholeLines content = block ++ tail) :
    body content = tail.flatten.dropWhile (· == '\n') := by
  rw [body_eq_afterBlock, cut, afterBlock?_append closed]

theorem patterns_of_cut {content : Text} {block tail : List Text} (closed : IsClosed block)
    (cut : Text.wholeLines content = block ++ tail) :
    patterns content = patterns block.flatten := by
  rw [patterns_eq_patternsIn, patterns_eq_patternsIn, Text.wholeLines_flatten ⟨tail, cut.symm⟩, cut,
    patternsIn_append closed]

/-- The globs and the body of a document are read off the same block. What comes after the block
has no part in the globs, and is the body. -/
theorem block_seen_alike (content : Text) :
    (opens (Text.wholeLines content) = false → patterns content = [] ∧ body content = content) ∧
    (opens (Text.wholeLines content) = true → closes (Text.wholeLines content) = false →
      body content = content) ∧
    (Delimited (Text.wholeLines content) →
      ∃ block tail, IsBlock block content ∧ content = block ++ tail ∧
        body content = tail.dropWhile (· == '\n') ∧
        (∃ n, content = block ++ List.replicate n '\n' ++ body content) ∧
        (body content).head? ≠ some '\n' ∧
        patterns content = patterns block ∧
        (block.getLast? = some '\n' → ∀ text : Text, patterns (block ++ text) = patterns block ∧
          body (block ++ text) = text.dropWhile (· == '\n'))) := by
  refine ⟨unread_of_not_opens, body_of_not_closes, fun delimited => ?_⟩
  obtain ⟨block, tail, closed, cut⟩ := exists_closed_of_delimited delimited
  have whole : content = block.flatten ++ tail.flatten := by
    rw [← List.flatten_append, ← cut, Text.flatten_wholeLines]
  have stripped := body_of_cut closed cut
  obtain ⟨n, feeds⟩ := exists_replicate_line_feed tail.flatten
  refine ⟨block.flatten, tail.flatten, isBlock_of_isClosed closed cut, whole, stripped, ⟨n, ?_⟩, ?_,
    patterns_of_cut closed cut, fun ended text => ?_⟩
  · rw [stripped, List.append_assoc, ← feeds]
    exact whole
  · rw [stripped]
    exact head?_dropWhile_line_feed tail.flatten
  · have joined : Text.wholeLines (block.flatten ++ text) = block ++ Text.wholeLines text := by
      rw [Text.wholeLines_append ended, Text.wholeLines_flatten ⟨tail, cut.symm⟩]
    refine ⟨patterns_of_cut closed joined, ?_⟩
    rw [body_of_cut closed joined, Text.flatten_wholeLines]

theorem block_seen_alike_over_no_break_space :
    let content := "---\r\npaths:\r\n- 'é*'\r\n ---\u00a0\n\n\n---\n- b".toList
    Delimited (Text.wholeLines content) ∧
      ∃ block tail, IsBlock block content ∧ content = block ++ tail ∧
        body content = tail.dropWhile (· == '\n') ∧ patterns content = patterns block := by
  intro content
  have delimited : Delimited (Text.wholeLines content) := ⟨by decide, by decide⟩
  obtain ⟨_, _, read⟩ := block_seen_alike content
  obtain ⟨block, tail, isBlock, whole, stripped, _, _, declared, _⟩ := read delimited
  exact ⟨delimited, block, tail, isBlock, whole, stripped, declared⟩

end PathRules.Frontmatter
