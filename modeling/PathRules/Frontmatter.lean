import PathRules.Text

/-!
# Frontmatter of rule documents

A rule document may open with a block between two delimiter lines. In the block, the list under
the key `paths:` declares the globs of the rule; the body is what follows the block. Reading
never fails: a text without a block declares nothing and is its own body.
-/

namespace PathRules.Frontmatter

/-- The line that opens and closes the block. -/
def delimiter : Text := ['-', '-', '-']

/-- The line that opens the list of globs. -/
def pathsKey : Text := ['p', 'a', 't', 'h', 's', ':']

def itemMarker : Text := ['-', ' ']

/-- Whether the line is a delimiter, blanks around it apart. -/
def isDelimiter (line : Text) : Bool := Text.trim line == delimiter

/-! ### Quotes -/

def isQuote (c : Char) : Bool := c == '"' || c == '\''

def dropOpeningQuote : Text → Text
  | [] => []
  | c :: value => if isQuote c then value else c :: value

def dropClosingQuote (value : Text) : Text := (dropOpeningQuote value.reverse).reverse

/-- The value without one quote character at its start and then one at its end, which need not be
alike. -/
def unquote (value : Text) : Text := dropClosingQuote (dropOpeningQuote value)

/-! ### The list of globs -/

/-- What an item of the list holds, if the trimmed line is one. -/
def item? (line : Text) : Option Text :=
  (itemMarker.isPrefixOf? line).map fun value => unquote (Text.trim value)

/-- The items of the list in the lines of an open block. Lines before the key do not count; the
list ends with the block, or at the first line that is neither blank nor an item nor the key once
more. -/
def items (inList : Bool) : List Text → List Text
  | [] => []
  | line :: rest =>
    let line := Text.trim line
    if line = delimiter then []
    else if line = pathsKey then items true rest
    else if inList then
      match item? line with
      | some value => value :: items true rest
      | none => if line.isEmpty then items true rest else []
    else items false rest

def patterns (content : Text) : List Text :=
  match Text.lines content with
  | [] => []
  | first :: rest => if isDelimiter first then items false rest else []

/-! ### The body -/

def afterDelimiter? : List Text → Option (List Text)
  | [] => none
  | line :: rest => if isDelimiter line then some rest else afterDelimiter? rest

/-- The document without its block and the line feeds directly after it; the document itself if it
has no block. -/
def body (content : Text) : Text :=
  match Text.lines content with
  | [] => content
  | first :: rest =>
    if isDelimiter first then
      match afterDelimiter? rest with
      | some tail => (Text.join '\n' tail).dropWhile (· == '\n')
      | none => content
    else content

end PathRules.Frontmatter
