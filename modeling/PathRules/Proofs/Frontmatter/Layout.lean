import PathRules.Document
import PathRules.Proofs.Frontmatter.Block

/-!
# Writing rule documents

A layout is one way to write a rule document with a list of globs: blanks around the lines, quotes
around the globs, lines in front of the list and behind it. `read_written` says that a document
that is written by a layout is read back as its globs and its body.
-/

namespace PathRules.Frontmatter

/-! ### Lines of a layout -/

/-- Blanks within a line. -/
structure Gap where
  text : Text
  blank : ∀ c ∈ text, Text.isBlank c = true
  inLine : '\n' ∉ text

def Gap.none : Gap where
  text := []
  blank := by simp
  inLine := by simp

structure Padding where
  before : Gap := .none
  after : Gap := .none

/-- A line that says something, with blanks around it. -/
def Padding.around (padding : Padding) (said : Text) : Text :=
  padding.before.text ++ said ++ padding.after.text

/-- How an item may write a glob: between two quote characters, or bare if the glob has neither
blanks nor quotes at its ends. -/
inductive Spelled : (glob spelling : Text) → Prop where
  | quoted {glob : Text} {opening closing : Char} :
      isQuote opening = true → isQuote closing = true →
      Spelled glob (opening :: (glob ++ [closing]))
  | bare {glob : Text} : glob ≠ [] →
      glob.head?.any Text.isBlank = false → glob.getLast?.any Text.isBlank = false →
      glob.head?.any isQuote = false → glob.getLast?.any isQuote = false → Spelled glob glob

structure Item where
  glob : Text
  spelling : Text
  spelled : Spelled glob spelling
  inLine : '\n' ∉ glob
  /-- What stands between the marker and the glob. -/
  lead : Gap := .none
  padding : Padding := {}

/-- The line of an item, without the blanks around it. -/
def Item.said (item : Item) : Text := itemMarker ++ (item.lead.text ++ item.spelling)

/-- A line of the list. -/
inductive ListLine where
  | blank (gap : Gap)
  | entry (item : Item)

namespace ListLine

def text : ListLine → Text
  | .blank gap => gap.text
  | .entry item => item.padding.around item.said

def glob? : ListLine → Option Text
  | .blank _ => none
  | .entry item => some item.glob

end ListLine

structure Layout where
  opening : Padding := {}
  front : List Text := []
  /-- In front of the list there is neither a delimiter nor the key. -/
  front_plain : ∀ line ∈ front,
    '\n' ∉ line ∧ Text.trim line ≠ delimiter ∧ Text.trim line ≠ pathsKey := by simp
  key : Padding := {}
  list : List ListLine
  back : List Text := []
  /-- Behind the list there is no delimiter. -/
  back_plain : ∀ line ∈ back, '\n' ∉ line ∧ Text.trim line ≠ delimiter := by simp
  /-- The first line behind the list does not go on with it. -/
  back_ends : ∀ line, back.head? = some line → isListLine (Text.trim line) = false := by simp
  closing : Padding := {}

namespace Layout

def globs (layout : Layout) : List Text := layout.list.filterMap ListLine.glob?

/-- The lines between the delimiters. -/
def inner (layout : Layout) : List Text :=
  layout.front ++ layout.key.around pathsKey :: (layout.list.map ListLine.text ++ layout.back)

def lines (layout : Layout) : List Text :=
  layout.opening.around delimiter :: (layout.inner ++ [layout.closing.around delimiter])

/-- The block alone, without a line feed at its end. -/
def writeBlock (layout : Layout) : Text := Text.join '\n' layout.lines

def write (layout : Layout) (body : Text) : Text := layout.writeBlock ++ '\n' :: body

/-- The layout with nothing but the globs, each between double quotes. -/
def usual (globs : List Text) (inLine : ∀ glob ∈ globs, '\n' ∉ glob) : Layout where
  list := globs.attach.map fun glob => .entry {
    glob := glob.1
    spelling := '"' :: (glob.1 ++ ['"'])
    spelled := .quoted rfl rfl
    inLine := inLine glob.1 glob.2 }

/-- Every list of globs has a layout. -/
theorem globs_usual (globs : List Text) (inLine : ∀ glob ∈ globs, '\n' ∉ glob) :
    (usual globs inLine).globs = globs := by
  unfold Layout.globs usual
  rw [List.filterMap_map]
  change globs.attach.filterMap (some ∘ Subtype.val) = globs
  rw [List.filterMap_eq_map, List.attach_map_subtype_val]

example : (usual ["a\" ".toList, []] (by decide)).write "\nBody".toList =
    "---\npaths:\n- \"a\" \"\n- \"\"\n---\n\nBody".toList := by decide

end Layout

/-! ### Reading a line -/

theorem isBlank_of_isQuote {c : Char} (quote : isQuote c = true) : Text.isBlank c = false := by
  unfold isQuote at quote
  rcases Bool.or_eq_true_iff.mp quote with same | same <;> rw [eq_of_beq same] <;> decide

theorem trim_around (padding : Padding) {said : Text} (first : said.head?.any Text.isBlank = false)
    (last : said.getLast?.any Text.isBlank = false) : Text.trim (padding.around said) = said := by
  unfold Padding.around
  rw [Text.trim_append padding.after.blank, Text.trim_append_left padding.before.blank,
    Text.trim_eq_self first last]

theorem not_mem_around (padding : Padding) {said : Text} (inLine : '\n' ∉ said) :
    '\n' ∉ padding.around said := by
  simp [Padding.around, padding.before.inLine, padding.after.inLine, inLine]

namespace Spelled

variable {glob spelling : Text}

theorem ends (spelled : Spelled glob spelling) :
    spelling ≠ [] ∧ spelling.head?.any Text.isBlank = false ∧
      spelling.getLast?.any Text.isBlank = false := by
  cases spelled with
  | quoted opening closing =>
    refine ⟨by simp, ?_, ?_⟩
    · simp [isBlank_of_isQuote opening]
    · rw [← List.cons_append, List.getLast?_concat]
      simp [isBlank_of_isQuote closing]
  | bare something first last => exact ⟨something, first, last⟩

theorem unquote_eq (spelled : Spelled glob spelling) : unquote spelling = glob := by
  unfold unquote
  cases spelled with
  | quoted opening closing =>
    rw [dropOpeningQuote, if_pos opening, dropClosingQuote_eq, withoutClosing, List.getLast?_concat,
      Option.any_some, if_pos closing, List.dropLast_concat]
  | bare _ _ _ first last =>
    rw [dropOpeningQuote_eq, withoutOpening, first, if_neg Bool.false_ne_true, dropClosingQuote_eq,
      withoutClosing, last, if_neg Bool.false_ne_true]

theorem not_mem (spelled : Spelled glob spelling) (inLine : '\n' ∉ glob) : '\n' ∉ spelling := by
  cases spelled with
  | quoted opening closing =>
    have other {c : Char} (quote : isQuote c = true) : c ≠ '\n' := by
      rintro rfl
      cases quote
    simp [inLine, (other opening).symm, (other closing).symm]
  | bare => exact inLine

end Spelled

namespace Item

variable (item : Item)

theorem trim_said : Text.trim (item.padding.around item.said) = item.said := by
  obtain ⟨something, _, last⟩ := item.spelled.ends
  refine trim_around _ rfl ?_
  rw [said, ← List.append_assoc, List.getLast?_append_of_ne_nil _ something]
  exact last

theorem item?_said : item? item.said = some item.glob := by
  obtain ⟨_, first, last⟩ := item.spelled.ends
  have marked : itemMarker.isPrefixOf? item.said = some (item.lead.text ++ item.spelling) :=
    List.isPrefixOf?_eq_some_iff_append_eq.mpr rfl
  unfold item?
  rw [marked, Option.map_some, Text.trim_append_left item.lead.blank, Text.trim_eq_self first last,
    item.spelled.unquote_eq]

theorem said_ne : item.said ≠ delimiter ∧ item.said ≠ pathsKey := by
  simp [said, itemMarker, delimiter, pathsKey]

end Item

/-! ### Reading the list -/

theorem items_of_key {line : Text} (key : Text.trim line = pathsKey) (inList : Bool)
    (lines : List Text) : items inList (line :: lines) = items true lines := by
  have within : pathsKey ≠ delimiter := by decide
  rw [items, key, if_neg within, if_pos rfl]

theorem items_front {front : List Text}
    (plain : ∀ line ∈ front, Text.trim line ≠ delimiter ∧ Text.trim line ≠ pathsKey)
    (lines : List Text) : items false (front ++ lines) = items false lines := by
  induction front with
  | nil => rfl
  | cons line front ih =>
    obtain ⟨⟨within, other⟩, plain⟩ := List.forall_mem_cons.mp plain
    rw [List.cons_append, items, if_neg within, if_neg other, if_neg Bool.false_ne_true, ih plain]

theorem items_line (line : ListLine) (lines : List Text) :
    items true (line.text :: lines) = line.glob?.toList ++ items true lines := by
  cases line with
  | blank gap =>
    have nothing : Text.trim gap.text = [] := Text.trim_eq_nil gap.blank
    rw [ListLine.text, items, nothing]
    rfl
  | entry item =>
    have trimmed : Text.trim (ListLine.entry item).text = item.said := item.trim_said
    obtain ⟨within, other⟩ := item.said_ne
    rw [items, trimmed, if_neg within, if_neg other, if_pos rfl, item.item?_said]
    rfl

theorem items_list (list : List ListLine) (lines : List Text) :
    items true (list.map ListLine.text ++ lines) =
      list.filterMap ListLine.glob? ++ items true lines := by
  induction list with
  | nil => rfl
  | cons line list ih =>
    rw [List.map_cons, List.cons_append, items_line, ih, List.filterMap_cons]
    cases line.glob? <;> rfl

theorem items_ended {lines : List Text} (plain : ∀ line ∈ lines, Text.trim line ≠ delimiter)
    (ends : ∀ line, lines.head? = some line → isListLine (Text.trim line) = false) :
    items true lines = [] := by
  cases lines with
  | nil => rfl
  | cons line lines =>
    have within := plain line List.mem_cons_self
    have ended := ends line rfl
    rw [items_in_list, List.map_cons, block_cons within, listRun_of_ended (by simp [ended])]
    rfl

/-! ### Reading a document -/

namespace Layout

variable (layout : Layout)

theorem trim_around_delimiter (padding : Padding) :
    Text.trim (padding.around delimiter) = delimiter := trim_around padding rfl rfl

theorem isDelimiter_around (padding : Padding) : isDelimiter (padding.around delimiter) = true := by
  rw [isDelimiter, trim_around_delimiter]
  rfl

theorem trim_inner {line : Text} (member : line ∈ layout.inner) : Text.trim line ≠ delimiter := by
  unfold inner at member
  rcases List.mem_append.mp member with front | member
  · exact (layout.front_plain line front).2.1
  rcases List.mem_cons.mp member with rfl | member
  · rw [trim_around layout.key rfl rfl]
    decide
  rcases List.mem_append.mp member with listed | back
  · obtain ⟨line, _, rfl⟩ := List.mem_map.mp listed
    cases line with
    | blank gap =>
      rw [ListLine.text, Text.trim_eq_nil gap.blank]
      decide
    | entry item =>
      have trimmed : Text.trim (ListLine.entry item).text = item.said := item.trim_said
      rw [trimmed]
      exact item.said_ne.1
  · exact (layout.back_plain line back).2

theorem not_mem_listLine (line : ListLine) : '\n' ∉ line.text := by
  cases line with
  | blank gap => exact gap.inLine
  | entry item =>
    have spelling := item.spelled.not_mem item.inLine
    exact not_mem_around _ (by simp [Item.said, itemMarker, item.lead.inLine, spelling])

theorem not_mem_line {line : Text} (member : line ∈ layout.lines) : '\n' ∉ line := by
  have delimiters (padding : Padding) : '\n' ∉ padding.around delimiter :=
    not_mem_around padding (by decide)
  unfold lines inner at member
  simp only [List.mem_cons, List.mem_append, List.mem_map, List.not_mem_nil, or_false] at member
  rcases member with rfl | (front | rfl | ⟨line, _, rfl⟩ | back) | rfl
  · exact delimiters layout.opening
  · exact (layout.front_plain line front).1
  · exact not_mem_around layout.key (by decide)
  · exact not_mem_listLine line
  · exact (layout.back_plain line back).1
  · exact delimiters layout.closing

theorem items_inner : items false layout.inner = layout.globs := by
  have key : Text.trim (layout.key.around pathsKey) = pathsKey := trim_around layout.key rfl rfl
  have ended : items true layout.back = [] :=
    items_ended (fun line member => (layout.back_plain line member).2) layout.back_ends
  unfold inner globs
  rw [items_front fun line member => (layout.front_plain line member).2, items_of_key key,
    items_list, ended, List.append_nil]

theorem lines_writeBlock : Text.lines layout.writeBlock = layout.lines :=
  Text.split_join (List.cons_ne_nil _ _) fun _ member => layout.not_mem_line member

theorem lines_write (body : Text) :
    Text.lines (layout.write body) = layout.lines ++ Text.lines body := by
  have cut := Text.split_append '\n' layout.writeBlock body
  have block := layout.lines_writeBlock
  unfold Text.lines at block
  rw [write, Text.lines, cut, block]
  rfl

/-- A text whose lines are those of a layout and some others is read as the layout and the text of
these. -/
theorem read_of_lines {content : Text} {others : List Text}
    (cut : Text.lines content = layout.lines ++ others) :
    patterns content = layout.globs ∧
      body content = (Text.join '\n' others).dropWhile (· == '\n') := by
  have opening := isDelimiter_around layout.opening
  have closing := isDelimiter_around layout.closing
  have within : ∀ line ∈ layout.inner, isDelimiter line = false := fun line member => by
    simpa [isDelimiter] using layout.trim_inner member
  have lines : Text.lines content = layout.opening.around delimiter ::
      (layout.inner ++ layout.closing.around delimiter :: others) := by
    rw [cut, Layout.lines, List.cons_append, List.append_assoc]
    rfl
  unfold patterns body
  rw [lines]
  simp only [opening, if_true]
  rw [items_append_delimiter closing, items_inner, afterDelimiter?_append within closing]
  exact ⟨rfl, rfl⟩

/-- A rule document is read back as it was written: its globs are those of the layout, and its body
is the one given, without the line feeds in front of it. -/
theorem read_written (path body : Text) :
    (Document.mk path (layout.write body)).patterns = layout.globs ∧
    (Document.mk path (layout.write body)).body = body.dropWhile (· == '\n') ∧
    (Document.mk path layout.writeBlock).patterns = layout.globs ∧
    (Document.mk path layout.writeBlock).body = [] := by
  obtain ⟨globs, rest⟩ := layout.read_of_lines (layout.lines_write body)
  have alone : Text.lines layout.writeBlock = layout.lines ++ [] := by
    rw [lines_writeBlock, List.append_nil]
  obtain ⟨block_globs, nothing⟩ := layout.read_of_lines alone
  have joined : Text.join '\n' (Text.lines body) = body := Text.join_split '\n' body
  rw [joined] at rest
  exact ⟨globs, rest, block_globs, nothing⟩

end Layout
end PathRules.Frontmatter
