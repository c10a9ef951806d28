import PathRules.Log.Pattern
import PathRules.Notice
import PathRules.Text.Letters

/-!
# Log settings

A log setting lists directives, with commas between them. A directive names the last level that
it lets through, and may be about some notices only. Of the directives about a notice the most
specific one decides; a notice that none is about is not logged. A setting with a directive that
cannot be read shuts the log.
-/

namespace PathRules.Log

/-- The last level that is let through; missing if none is. -/
abbrev Threshold := Option Level

structure Directive where
  /-- What the origin of a notice has to start with. -/
  origin : Option Text := none
  /-- The field that a notice has to have. -/
  field : Option Text := none
  /-- The directive is about spans, or about notices within one. -/
  aboutSpans : Bool := false
  threshold : Threshold
  deriving DecidableEq, Repr

/-! ### Levels -/

/-- The number that decimal digits write, a plus sign before them apart. Numbers from ten on are not
told apart. -/
def number? (text : Text) : Option Nat :=
  let digits := if text.head? = some '+' then text.tail else text
  if digits.isEmpty || !digits.all Text.isDigit then none
  else some (Text.ofDigitsUpTo 10 10 digits)

def thresholdOfNumber? : Nat → Option Threshold
  | 0 => some none
  | 1 => some (some .error)
  | 2 => some (some .warn)
  | 3 => some (some .info)
  | 4 => some (some .debug)
  | 5 => some (some .trace)
  | _ => none

/-- The threshold of a name, whatever the case of its letters. -/
def thresholdOfName? (name : Text) : Option Threshold :=
  let name := name.map Char.toUpper
  if name = Text.of "OFF" then some none
  else ([.error, .warn, .info, .debug, .trace].find? (·.name == name)).map some

/-- The threshold that a text gives, by its number or by its name. -/
def threshold? (text : Text) : Option Threshold :=
  ((number? text).bind thresholdOfNumber?).or (thresholdOfName? text)

/-- The threshold after an equals sign. Where nothing is written, all levels are let through. -/
def thresholdAfterSign? (text : Text) : Option Threshold :=
  if text.isEmpty then some (some .trace) else threshold? text

/-! ### Reading a directive -/

/-- What is left of a directive in the search for its marks. Blanks around the directive do not
count in this search, but its names stand at the same bytes of the text as it is written. -/
structure Remainder where
  written : Text
  /-- The number of bytes that the search has passed. -/
  passed : Nat := 0
  left : Text

/-- The text as it is written up to the first of some marks, with the mark and what is left after
it. There is none if no mark is left, or if the text would begin or end within a character. -/
def Remainder.cut (marks : List Char) (remainder : Remainder) :
    Option (Text × Char × Remainder) :=
  let skipped := remainder.left.takeWhile (· ∉ marks)
  match remainder.left.drop skipped.length with
  | [] => none
  | mark :: left => do
    let length := Text.byteLength skipped
    let name ← Text.takeBytes? length (← Text.dropBytes? remainder.passed remainder.written)
    let passed := remainder.passed + length + mark.utf8Size
    some (name, mark, { remainder with passed, left })

/-- The threshold that stands after an equals sign, up to the end of the text as it is written. -/
def Remainder.threshold? (remainder : Remainder) : Option Threshold := do
  thresholdAfterSign? (← Text.dropBytes? remainder.passed remainder.written)

namespace Directive

/-- The end of a directive, after the brackets: nothing, or a threshold. -/
def readEnd (directive : Directive) (remainder : Remainder) : Option Directive :=
  match remainder.left with
  | [] => some directive
  | '=' :: left => do
    let threshold ← { remainder with passed := remainder.passed + 1, left }.threshold?
    some { directive with threshold }
  | _ => none

/-- The directive with the field between its braces. A field with a pattern for its value is one of
a span; what follows a second equals sign does not count. -/
def withField? (directive : Directive) (field : Text) : Option Directive :=
  let name := some (field.takeWhile (· != '='))
  match field.dropWhile (· != '=') with
  | [] => if field.isEmpty then none else some { directive with field := name }
  | _ :: value =>
    if Pattern.isPattern (value.takeWhile (· != '=')) then
      some { directive with field := name, aboutSpans := true }
    else none

/-- A directive from its opening bracket on: the name of a span, or a field in braces, or both. -/
def readBrackets (origin : Option Text) (remainder : Remainder) : Option Directive := do
  let (name, mark, remainder) ← remainder.cut [']', '\x7b']
  if mark == ']' then readEnd { origin, aboutSpans := true, threshold := some .trace } remainder
  else
    let (field, _, remainder) ← remainder.cut ['\x7d']
    match remainder.left with
    | ']' :: left => do
      let directive : Directive :=
        { origin, aboutSpans := !name.isEmpty, threshold := some .trace }
      readEnd (← directive.withField? field)
        { remainder with passed := remainder.passed + 1, left }
    | _ => none

/-- Whether a directive may start with the character, brackets apart. -/
def isStart (c : Char) : Bool :=
  Text.isAlphanumeric c || c == '-' || c == ':' || c == '_'

/-- A directive without marks: a threshold, or an origin of which all is let through. -/
def ofWord (word : Text) : Directive :=
  match threshold? word with
  | some threshold => { threshold }
  | none => { origin := some word, threshold := some .trace }

/-- The directive that a text writes: a threshold alone, or what the directive is about and then
a threshold. -/
def parse? (written : Text) : Option Directive :=
  let trimmed := Text.trim written
  match trimmed with
  | [] => none
  | '[' :: left => readBrackets none { written, passed := 1, left }
  | first :: _ =>
    if !isStart first then none
    else if trimmed.all (· ∉ ['=', '[']) then some (ofWord written)
    else do
      let (origin, mark, remainder) ← Remainder.cut ['=', '['] { written, left := trimmed }
      if mark == '=' then some { origin := some origin, threshold := ← remainder.threshold? }
      else readBrackets (some origin) remainder

/-! ### What a directive decides -/

def messageField : Text := Text.of "message"

/-- Whether the directive is about the notice. No notice is within a span. -/
def concerns (directive : Directive) (notice : Notice) : Bool :=
  !directive.aboutSpans && directive.origin.all (·.isPrefixOf notice.origin) &&
    directive.field.all (· == messageField)

/-- How specific the directive is. A longer origin counts for more than a field. -/
def weight (directive : Directive) : Nat :=
  2 * (directive.origin.elim 0 (·.length + 1)) + if directive.field.isSome then 1 else 0

def allows (directive : Directive) (level : Level) : Bool :=
  directive.threshold.any (level.rank ≤ ·.rank)

end Directive

/-! ### Settings -/

/-- The directives of a log setting, if all of them can be read. -/
def directives? (setting : Text) : Option (List Directive) :=
  ((Text.split ',' setting).filter (!·.isEmpty)).mapM Directive.parse?

/-- The directives of a log setting; none if one of them cannot be read. -/
def directives (setting : Text) : List Directive := (directives? setting).getD []

/-- The most specific directive, and of equals the last one. -/
def mostSpecific : List Directive → Option Directive
  | [] => none
  | directive :: rest =>
    match mostSpecific rest with
    | some other => if other.weight < directive.weight then some directive else some other
    | none => some directive

def allowedBy (directives : List Directive) (notice : Notice) : Bool :=
  (mostSpecific (directives.filter (·.concerns notice))).any (·.allows notice.level)

/-! ### The error stream -/

/-- A piece of the error stream: a line of the log, or what the run itself has to say. -/
inductive Piece where
  | logged (line : Text)
  | said (text : Text)
  deriving DecidableEq, Repr

namespace Piece

def text : Piece → Text
  | .logged line => line ++ ['\n']
  | .said text => text

def saying : Piece → Text
  | .logged _ => []
  | .said text => text

end Piece

/-- The pieces that a notice leaves on the error stream: its line of the log, if the directives let
it through, and its warning. -/
def pieces (directives : List Directive) (notice : Notice) : List Piece :=
  (if allowedBy directives notice then [.logged notice.logLine] else []) ++
    notice.warning?.toList.map fun warning => .said (warning ++ ['\n'])

end PathRules.Log
