import PathRules.Frontmatter
import Mathlib.Data.List.Infix
import Mathlib.Data.List.TakeWhile

/-!
# Reading the list of globs in stages

The globs of a document are read in one pass over its lines. `patterns_eq_declared` says that this
is the same as cutting out the block, then the list in it, and then taking the items.
-/

namespace PathRules.Frontmatter

/-! ### Stages -/

/-- The lines in front of the next delimiter. -/
def block (lines : List Text) : List Text := lines.takeWhile (· != delimiter)

def isListLine (line : Text) : Bool :=
  line.isEmpty || line == pathsKey || itemMarker.isPrefixOf line

/-- The longest run of list lines. -/
def listRun (lines : List Text) : List Text := lines.takeWhile isListLine

/-- The lines after the first that is the key. -/
def afterKey (lines : List Text) : List Text := (lines.dropWhile (· != pathsKey)).tail

def withoutOpening (value : Text) : Text :=
  if value.head?.any isQuote then value.tail else value

def withoutClosing (value : Text) : Text :=
  if value.getLast?.any isQuote then value.dropLast else value

def itemValue (line : Text) : Text :=
  withoutClosing (withoutOpening (Text.trim (line.drop itemMarker.length)))

/-- What the items among the lines hold. -/
def itemValues (lines : List Text) : List Text :=
  (lines.filter (itemMarker.isPrefixOf ·)).map itemValue

/-- The globs of a document, stage by stage. -/
def declared (content : Text) : List Text :=
  match (Text.lines content).map Text.trim with
  | [] => []
  | first :: rest =>
    if first ≠ delimiter then []
    else if (block rest).contains pathsKey then itemValues (listRun (afterKey (block rest)))
    else []

/-! ### Items -/

theorem dropOpeningQuote_eq (value : Text) : dropOpeningQuote value = withoutOpening value := by
  cases value <;> rfl

theorem dropClosingQuote_eq (value : Text) : dropClosingQuote value = withoutClosing value := by
  rcases List.eq_nil_or_concat value with rfl | ⟨front, last, rfl⟩
  · rfl
  · unfold dropClosingQuote withoutClosing
    rw [List.concat_eq_append, List.reverse_append, List.reverse_singleton, List.singleton_append,
      dropOpeningQuote, List.getLast?_concat, Option.any_some, List.dropLast_concat]
    split
    · exact List.reverse_reverse front
    · rw [List.reverse_cons, List.reverse_reverse]

theorem item?_eq (line : Text) :
    item? line = if itemMarker.isPrefixOf line then some (itemValue line) else none := by
  unfold item?
  split
  · next marked =>
    obtain ⟨value, rfl⟩ := List.isPrefixOf_iff_prefix.mp marked
    have rest : itemMarker.isPrefixOf? (itemMarker ++ value) = some value :=
      List.isPrefixOf?_eq_some_iff_append_eq.mpr rfl
    rw [rest, Option.map_some, unquote, dropOpeningQuote_eq, dropClosingQuote_eq, itemValue,
      List.drop_left]
  · next unmarked =>
    have nothing : itemMarker.isPrefixOf? line = none := by
      rw [← Option.not_isSome_iff_eq_none, List.isSome_isPrefixOf?_eq_isPrefixOf]
      exact unmarked
    rw [nothing, Option.map_none]

/-! ### The pass over the lines -/

theorem block_cons {line : Text} (within : line ≠ delimiter) (lines : List Text) :
    block (line :: lines) = line :: block lines :=
  List.takeWhile_cons_of_pos (by simpa using within)

theorem listRun_cons {line : Text} (kept : isListLine line = true) (lines : List Text) :
    listRun (line :: lines) = line :: listRun lines :=
  List.takeWhile_cons_of_pos kept

theorem listRun_of_ended {line : Text} (ended : ¬ isListLine line = true) (lines : List Text) :
    listRun (line :: lines) = [] :=
  List.takeWhile_cons_of_neg ended

theorem afterKey_cons {line : Text} (other : line ≠ pathsKey) (lines : List Text) :
    afterKey (line :: lines) = afterKey lines := by
  have passed : (line != pathsKey) = true := by simpa using other
  unfold afterKey
  rw [List.dropWhile_cons_of_pos (p := (· != pathsKey)) passed]

theorem afterKey_of_not_mem {lines : List Text} (absent : pathsKey ∉ lines) :
    afterKey lines = [] := by
  induction lines with
  | nil => rfl
  | cons line lines ih =>
    have other : line ≠ pathsKey := (List.ne_of_not_mem_cons absent).symm
    rw [afterKey_cons other]
    exact ih (List.not_mem_of_not_mem_cons absent)

theorem itemValues_cons_of_item {line : Text} (marked : itemMarker.isPrefixOf line = true)
    (lines : List Text) : itemValues (line :: lines) = itemValue line :: itemValues lines := by
  rw [itemValues, List.filter_cons_of_pos marked, List.map_cons]
  rfl

theorem itemValues_cons_of_not_item {line : Text} (unmarked : ¬ itemMarker.isPrefixOf line = true)
    (lines : List Text) : itemValues (line :: lines) = itemValues lines := by
  rw [itemValues, List.filter_cons_of_neg unmarked]
  rfl

/-- In the list, the pass takes the items of the run that it is in. -/
theorem items_in_list (lines : List Text) :
    items true lines = itemValues (listRun (block (lines.map Text.trim))) := by
  induction lines with
  | nil => rfl
  | cons line lines ih =>
    rw [items, List.map_cons]
    generalize Text.trim line = line
    by_cases closing : line = delimiter
    · rw [if_pos closing, closing]
      rfl
    rw [if_neg closing, block_cons closing]
    by_cases key : line = pathsKey
    · have kept : isListLine line = true := by rw [key]; rfl
      have unmarked : ¬ itemMarker.isPrefixOf line = true := by rw [key]; decide
      rw [if_pos key, ih, listRun_cons kept, itemValues_cons_of_not_item unmarked]
    -- Any other line is an item and in the run, or blank and in the run, or behind the run.
    rw [if_neg key, if_pos rfl, item?_eq]
    by_cases marked : itemMarker.isPrefixOf line = true
    · have kept : isListLine line = true := by simp [isListLine, marked]
      rw [if_pos marked, listRun_cons kept, itemValues_cons_of_item marked, ← ih]
    rw [if_neg marked]
    by_cases blank : line.isEmpty = true
    · have kept : isListLine line = true := by simp [isListLine, blank]
      show (if line.isEmpty = true then items true lines else []) = _
      rw [if_pos blank, ih, listRun_cons kept, itemValues_cons_of_not_item marked]
    · have ended : ¬ isListLine line = true := by simp [isListLine, blank, key, marked]
      show (if line.isEmpty = true then items true lines else []) = _
      rw [if_neg blank, listRun_of_ended ended]
      rfl

/-- Before the list, the pass looks for the key. -/
theorem items_before_list (lines : List Text) :
    items false lines = itemValues (listRun (afterKey (block (lines.map Text.trim)))) := by
  induction lines with
  | nil => rfl
  | cons line lines ih =>
    rw [items, List.map_cons]
    generalize Text.trim line = line
    by_cases closing : line = delimiter
    · rw [if_pos closing, closing]
      rfl
    rw [if_neg closing, block_cons closing]
    by_cases key : line = pathsKey
    · rw [if_pos key, key, items_in_list]
      rfl
    · rw [if_neg key, if_neg Bool.false_ne_true, ih, afterKey_cons key]

/-- The globs read in one pass are those read stage by stage. -/
theorem patterns_eq_declared (content : Text) : patterns content = declared content := by
  unfold patterns declared
  cases Text.lines content with
  | nil => rfl
  | cons first rest =>
    rw [List.map_cons]
    dsimp only
    by_cases opening : Text.trim first = delimiter
    · have opens : isDelimiter first = true := by simpa [isDelimiter] using opening
      rw [if_pos opens, if_neg (not_not_intro opening), items_before_list]
      by_cases member : pathsKey ∈ block (rest.map Text.trim)
      · rw [if_pos (List.contains_iff_mem.mpr member)]
      · rw [if_neg (mt List.contains_iff_mem.mp member), afterKey_of_not_mem member]
        rfl
    · have opens : ¬ isDelimiter first = true := by simpa [isDelimiter] using opening
      rw [if_neg opens, if_pos opening]

example : declared "---\npaths:\n- 'a'\n\npaths:\n- \"b\n-\n- c\n---".toList =
    ["a".toList, "b".toList] := by decide

end PathRules.Frontmatter
