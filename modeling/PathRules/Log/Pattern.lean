import PathRules.Text.Letters

/-!
# Patterns of field values

A log setting may give a pattern for the value of a field: a number, or a regular expression.
Notices have no such values, so a pattern is only asked whether it can be read. `isPattern`
answers for the texts that can stand in a setting, which hold no comma, no equals sign and no
closing brace; so nothing that needs one of these is ever read to its end.

A regular expression is read from left to right. How deep its parts lie in one another is counted
on the way, since that is bounded. It speaks of Unicode characters or, where a flag says so, of
bytes, and then it must not match what is no UTF-8.
-/

namespace PathRules.Log.Pattern

open Text (isDigit isHexDigit digitValue)

/-! ### Numbers -/

def isExponent : Text → Bool
  | [] => false
  | mark :: digits =>
    let digits := if digits.head? = some '+' ∨ digits.head? = some '-' then digits.tail else digits
    (mark == 'e' || mark == 'E') && !digits.isEmpty && digits.all isDigit

/-- Digits with a point among them or at one of their ends, and a power of ten if there is one. -/
def isDecimal (text : Text) : Bool :=
  let whole := text.takeWhile isDigit
  let rest := text.dropWhile isDigit
  let fraction := if rest.head? = some '.' then rest.tail else []
  let places := fraction.takeWhile isDigit
  let power := if rest.head? = some '.' then fraction.dropWhile isDigit else rest
  !(whole.isEmpty && places.isEmpty) && (power.isEmpty || isExponent power)

/-- The names of what is no finite number, in small letters. -/
def numberNames : List Text := [Text.of "inf", Text.of "infinity", Text.of "nan"]

def isNumber (text : Text) : Bool :=
  let unsigned := if text.head? = some '+' ∨ text.head? = some '-' then text.tail else text
  unsigned.map Char.toLower ∈ numberNames || isDecimal unsigned

/-! ### Reading -/

/-- What is left of a regular expression, and what has been said on how to read it. -/
structure Progress where
  rest : Text
  /-- Blanks and comments between the parts do not count. -/
  spaced : Bool := false
  /-- The expression speaks of Unicode characters, else of bytes. -/
  unicode : Bool := true
  /-- The names of the groups so far. -/
  names : List Text := []

/-- Reads something from the front of a regular expression. -/
abbrev Reader := StateT Progress Option

def refuse {α : Type} : Reader α := fun _ => none

/-- Goes on only if the condition holds. -/
def require (condition : Bool) : Reader Unit := if condition then pure () else refuse

def rest : Reader Text := do pure (← get).rest

def drop (count : Nat) : Reader Unit := modify fun p => { p with rest := p.rest.drop count }

/-- The text without blanks and comments at its start. A comment ends with its line. -/
def dropBlanks (inComment : Bool) : Text → Text
  | [] => []
  | c :: text =>
    if inComment then dropBlanks (c != '\n') text
    else if c == '#' then dropBlanks true text
    else if Text.isBlank c then dropBlanks false text
    else c :: text

def skip : Reader Unit :=
  modify fun p => if p.spaced then { p with rest := dropBlanks false p.rest } else p

/-- Leaves out a character and what does not count after it; more must follow. -/
def advance : Reader Unit := do
  drop 1
  skip
  require !(← rest).isEmpty

/-- The character after the one that comes next, apart from blanks and the mark of a comment. -/
def second (p : Progress) : Option Char :=
  let next := p.rest.tail
  if p.spaced then
    let shown := next.dropWhile Text.isBlank
    let shown := if shown.head? = some '#' then shown.tail.dropWhile Text.isBlank else shown
    shown.head?.or next.head?
  else next.head?

/-! ### Escapes -/

inductive Atom where
  /-- A character, or a byte if it is written as one. -/
  | literal (c : Char) (asByte : Bool)
  /-- A set of characters that has a name. -/
  | named
  /-- A condition on a place in the text. -/
  | assertion

/-- The number that so many hexadecimal digits write, the first of which comes next. -/
def hexNumber : (count : Nat) → (n : Nat) → Reader Nat
  | 0, n => pure n
  | count + 1, n => do
    match ← rest with
    | [] => refuse
    | c :: _ =>
      require (isHexDigit c)
      if count = 0 then
        drop 1
        skip
      else advance
      hexNumber count (16 * n + digitValue c)

/-- A character by its number in so many digits, after the letter that says so. -/
def numbered (count : Nat) (asByte : Bool) : Reader Atom := do
  advance
  match Text.scalar? (← hexNumber count 0) with
  | some c => pure (.literal c asByte)
  | none => refuse

def categories : List Char := ['c', 'l', 'm', 'n', 'p', 's', 'z']

def category : Reader Atom := do
  advance
  match ← rest with
  | [] => refuse
  | c :: _ =>
    drop 1
    skip
    require ((← get).unicode && c.toLower ∈ categories)
    pure .named

def control? : Char → Option Char
  | 'a' => some '\x07'
  | 'f' => some '\x0c'
  | 't' => some '\t'
  | 'n' => some '\n'
  | 'r' => some '\r'
  | 'v' => some '\x0b'
  | _ => none

/-- An escape. Boundaries of words are only known for bytes, and what is outside of a set of
bytes may be no UTF-8. -/
def escape : Reader Atom := do
  drop 1
  match ← rest with
  | [] => refuse
  | 'x' :: _ => numbered 2 true
  | 'u' :: _ => numbered 4 false
  | 'U' :: _ => numbered 8 false
  | c :: _ =>
    if c == 'p' || c == 'P' then category
    else
      drop 1
      if c ∈ ['d', 's', 'w'] then pure .named
      else if c ∈ ['D', 'S', 'W'] then
        require (← get).unicode
        pure .named
      else if c ∈ ['b', 'B', '<', '>'] then
        require !(← get).unicode
        pure .assertion
      else if c == 'A' || c == 'z' then pure .assertion
      else match control? c with
        | some c => pure (.literal c false)
        | none =>
          require (c.toNat < 0x80 && !c.isAlphanum)
          pure (.literal c false)

def atom : Reader Unit := do
  match ← rest with
  | [] => refuse
  | '\\' :: _ =>
    match ← escape with
    | .literal c asByte => require ((← get).unicode || !asByte || c.toNat < 0x80)
    | _ => pure ()
  | c :: _ =>
    require ((← get).unicode || c != '.')
    drop 1

/-! ### Sets -/

/-- How deep parts lie side by side: a part alone adds nothing to its own depth. -/
def nesting : List Nat → Nat
  | [] => 0
  | [depth] => depth
  | depths => depths.foldl max 0 + 1

/-- How deep an operation on two sets lies, or a set alone. -/
def operation (left : Option Nat) (items : List Nat) : Nat :=
  match left with
  | none => nesting items
  | some depth => max depth (nesting items) + 1

/-- The names of the sets that are written within colons. -/
def setNames : List Text :=
  [Text.of "alnum", Text.of "alpha", Text.of "ascii", Text.of "blank", Text.of "cntrl",
    Text.of "digit", Text.of "graph", Text.of "lower", Text.of "print", Text.of "punct",
    Text.of "space", Text.of "upper", Text.of "word", Text.of "xdigit"]

/-- A set that is named within brackets and colons: whether its complement is meant, and what
follows. -/
def namedSet? : Text → Option (Bool × Text)
  | '[' :: ':' :: text =>
    let negated := text.head? = some '^'
    let text := if negated then text.tail else text
    match text.dropWhile (· != ':') with
    | ':' :: ']' :: rest =>
      if text.takeWhile (· != ':') ∈ setNames then some (negated, rest) else none
    | _ => none
  | _ => none

/-- The start of a set. The complement of a set of bytes may hold what is no UTF-8. -/
def openSet : Reader Unit := do
  advance
  if (← rest).head? = some '^' then
    require (← get).unicode
    advance

def setAtom : Reader Atom := do
  match ← rest with
  | [] => refuse
  | '\\' :: _ => escape
  | c :: _ =>
    drop 1
    pure (.literal c false)

def setChar? (unicode : Bool) : Atom → Option Char
  | .literal c _ => if unicode || c.toNat < 0x80 then some c else none
  | _ => none

/-- An item of a set: a character, a named set, or a range of characters. -/
def setItem : Reader Unit := do
  let first ← setAtom
  skip
  let p ← get
  require !p.rest.isEmpty
  if p.rest.head? = some '-' ∧ second p ≠ some ']' ∧ second p ≠ some '-' then
    advance
    match setChar? p.unicode first, setChar? p.unicode (← setAtom) with
    | some low, some high => require (low ≤ high)
    | _, _ => refuse
  else
    match first with
    | .literal .. => require (setChar? p.unicode first).isSome
    | .named => pure ()
    | .assertion => refuse

/-- The rest of a set, with how deep its parts lie: what stands left of the last operation, and
the items since. At the start of a set, hyphens and a closing bracket stand for themselves. -/
def setRest :
    (fuel : Nat) → (atStart : Bool) → (left : Option Nat) → (items : List Nat) → Reader Nat
  | 0, _, _, _ => refuse
  | fuel + 1, atStart, left, items => do
    skip
    let text ← rest
    if atStart && text.head? = some '-' then
      advance
      setRest fuel true left (0 :: items)
    else if atStart && items.isEmpty && text.head? = some ']' then
      advance
      setRest fuel false left [0]
    else
      match text with
      | [] => refuse
      | ']' :: _ =>
        drop 1
        pure (operation left items)
      | '[' :: _ =>
        match namedSet? text with
        | some (negated, rest) =>
          require ((← get).unicode || !negated)
          modify fun p => { p with rest }
          setRest fuel false left (0 :: items)
        | none =>
          openSet
          let depth ← setRest fuel true none []
          setRest fuel false left ((depth + 1) :: items)
      | c :: next :: _ =>
        if c = next ∧ c ∈ ['&', '-', '~'] then
          drop 2
          setRest fuel false (some (operation left items)) []
        else
          setItem
          setRest fuel false left (0 :: items)
      | _ =>
        setItem
        setRest fuel false left (0 :: items)

/-! ### Groups -/

def flagLetters : List Char := ['i', 'm', 's', 'U', 'u', 'R', 'x']

/-- Flags up to the mark after them, each with whether it is set. Those after a minus are not; none
comes twice, and a minus is not the last. -/
def flags? (seen : List Char) : Text → Option (List (Char × Bool) × Text)
  | [] => none
  | c :: text =>
    if c == ':' || c == ')' then
      if seen.head? = some '-' then none else some ([], c :: text)
    else if c ∈ seen then none
    else if c == '-' then flags? (c :: seen) text
    else if c ∈ flagLetters then do
      let (later, text) ← flags? (c :: seen) text
      some ((c, !seen.contains '-') :: later, text)
    else none

def setFlags (flags : List (Char × Bool)) : Reader Unit :=
  modify fun p =>
    { p with
      spaced := (flags.lookup 'x').getD p.spaced
      unicode := (flags.lookup 'u').getD p.unicode }

def isGroupName : Text → Bool
  | [] => false
  | c :: text =>
    (c == '_' || Text.isAlphabetic c) &&
      text.all fun c => c ∈ ['_', '.', '[', ']'] || Text.isAlphanumeric c

/-- The name of a group, which must be new, and the bracket that ends it. -/
def groupName : Reader Unit := do
  let p ← get
  let name := p.rest.takeWhile (· != '>')
  require (isGroupName name && !p.names.contains name && name.length < p.rest.length)
  set { p with rest := p.rest.drop (name.length + 1), names := name :: p.names }

/-- What stands between an opening parenthesis and the content of its group. The answer is whether
there is a group: flags alone open none, and hold up to the end of the group around them. -/
def groupStart : Reader Bool := do
  match ← rest with
  | '?' :: 'P' :: '<' :: _ =>
    drop 3
    groupName
    pure true
  | '?' :: '<' :: _ =>
    drop 2
    groupName
    pure true
  | '?' :: text =>
    match flags? [] text with
    | none => refuse
    | some (flags, text) =>
      modify fun p => { p with rest := text.tail }
      setFlags flags
      let opens := text.head? = some ':'
      require (opens || !flags.isEmpty)
      pure opens
  | _ => pure true

/-- The end of a group, where the flags are again what they were before it. -/
def groupEnd (before : Progress) : Reader Unit := do
  require ((← rest).head? = some ')')
  drop 1
  modify fun p => { p with spaced := before.spaced, unicode := before.unicode }

/-! ### Alternatives -/

structure Part where
  /-- How deep its own parts lie. -/
  depth : Nat
  repeatable : Bool := true

def sequenceDepth (parts : List Part) : Nat := nesting (parts.map Part.depth)

/-- The rest of the alternatives of a group, up to its end: how deep they lie, given the
alternatives and the parts of the last one so far, the latest first. -/
def alternatives : (fuel : Nat) → (done : List Nat) → (parts : List Part) → Reader Nat
  | 0, _, _ => refuse
  | fuel + 1, done, parts => do
    skip
    match ← rest with
    | [] => pure (nesting (sequenceDepth parts :: done))
    | ')' :: _ => pure (nesting (sequenceDepth parts :: done))
    | '|' :: _ =>
      drop 1
      alternatives fuel (sequenceDepth parts :: done) []
    | '(' :: _ =>
      drop 1
      skip
      let before ← get
      if ← groupStart then
        let depth ← alternatives fuel [] []
        groupEnd before
        alternatives fuel done ({ depth := depth + 1 } :: parts)
      else alternatives fuel done ({ depth := 0, repeatable := false } :: parts)
    | '[' :: _ =>
      openSet
      let depth ← setRest fuel true none []
      alternatives fuel done ({ depth := depth + 1 } :: parts)
    | '{' :: _ => refuse
    | c :: next =>
      if c ∈ ['?', '*', '+'] then
        match parts with
        | last :: parts =>
          require last.repeatable
          drop (if next.head? = some '?' then 2 else 1)
          alternatives fuel done ({ depth := last.depth + 1 } :: parts)
        | [] => refuse
      else
        atom
        alternatives fuel done ({ depth := 0 } :: parts)

/-- How deep the parts of a regular expression may lie in one another. -/
def maxDepth : Nat := 250

def isRegex (text : Text) : Bool :=
  match alternatives (2 * text.length + 2) [] [] { rest := text } with
  | some (depth, p) => p.rest.isEmpty && depth ≤ maxDepth
  | none => false

def isPattern (text : Text) : Bool := isNumber text || isRegex text

end PathRules.Log.Pattern
