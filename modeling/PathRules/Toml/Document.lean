import PathRules.Toml.Draft
import PathRules.Toml.Quoted

/-!
# TOML documents

A document is read line by line into statements, and the statements build up its table. `parse`
answers the table as it is written, or nothing if the text is no document.
-/

namespace PathRules.Toml

open Reader

/-- How deep arrays and inline tables may lie in one another. -/
def maxDepth : Nat := 79

def maxKeyParts : Nat := 79

/-! ### Blanks and keys -/

def comment : Reader Unit := do
  char '#'
  let _ ← span (!isControl ·)

def gap : Reader Unit := do
  let _ ← many (either (do let _ ← one isSpace) (either newline comment))

def isBareKeyChar (c : Char) : Bool :=
  Text.isDigit c || ('a' ≤ c && c ≤ 'z') || ('A' ≤ c && c ≤ 'Z') || c == '_' || c == '-'

def simpleKey : Reader Text :=
  either basicString (either literalString (check (span isBareKeyChar) (!·.isEmpty)))

/-- A key in its parts: those that lead to a table, and the last one. -/
structure DottedKey where
  path : List Text
  key : Text
  deriving DecidableEq, Repr

def dottedKey : Reader DottedKey := do
  let part : Reader Text := do
    spaces
    let key ← simpleKey
    spaces
    pure key
  let parts ← check (separated part (char '.')) (·.length ≤ maxKeyParts)
  match parts.getLast? with
  | some key => pure ⟨parts.dropLast, key⟩
  | none => refuse

/-! ### Values -/

def arrayItems (item : Reader Value) : Reader (List Value) := do
  let padded : Reader Value := do
    gap
    let value ← item
    gap
    pure value
  match ← maybe (separated padded (char ',')) with
  | some items =>
    let _ ← maybe (char ',')
    gap
    char ']'
    pure items
  | none =>
    gap
    char ']'
    pure []

/-- The entries of an inline table, after the opening brace. -/
def inlineEntries (item : Reader Value) : Reader (List (DottedKey × Value)) := do
  let entry : Reader (DottedKey × Value) := do
    let key ← dottedKey
    char '='
    spaces
    let value ← item
    spaces
    pure (key, value)
  let entries ← maybe (separated entry (char ','))
  spaces
  char '\x7d'
  pure (entries.getD [])

/-- The table of the entries, unless two of them get in each other's way. -/
def inlineTable (entries : List (DottedKey × Value)) : Option Table :=
  let drafts? : Option Draft.Entries :=
    entries.foldlM (fun drafts (entry : DottedKey × Value) =>
      Draft.assign entry.1.path entry.1.key entry.2 .header drafts) []
  drafts?.map Draft.toTable

/-- A value in which arrays and inline tables lie at most so deep in one another. -/
def value (depth : Nat) : Reader Value := do
  match ← peek with
  | none => refuse
  | some c =>
    if c == '"' || c == '\'' then pure (.string (← string))
    else if c == '[' then
      match depth with
      | 0 => refuse
      | depth + 1 =>
        char '['
        pure (.array (← arrayItems (value depth)))
    else if c == '\x7b' then
      match depth with
      | 0 => refuse
      | depth + 1 =>
        char '\x7b'
        let entries ← inlineEntries (value depth)
        match inlineTable entries with
        | some table => pure (.table table)
        | none => refuse
    else if c == 't' then do
      word (Text.of "true")
      pure (.boolean true)
    else if c == 'f' then do
      word (Text.of "false")
      pure (.boolean false)
    else
      either (do pure (.datetime (← datetime)))
        (either (do pure (.float (← float))) (do pure (.integer (← integer))))

/-! ### Statements -/

inductive Statement where
  | assign (key : DottedKey) (value : Value)
  | openTable (key : DottedKey)
  | openRow (key : DottedKey)

def statement : Reader Statement :=
  either
    (do word (Text.of "[[")
        let key ← dottedKey
        word (Text.of "]]")
        pure (.openRow key))
    (either
      (do char '['
          let key ← dottedKey
          char ']'
          pure (.openTable key))
      (do let key ← dottedKey
          char '='
          spaces
          pure (.assign key (← value maxDepth))))

/-- A line without its end: a statement if there is one, and a comment if there is one. -/
def line : Reader (Option Statement) := do
  spaces
  let said ← maybe statement
  spaces
  let _ ← maybe comment
  pure said

def statements : Reader (List Statement) := do
  let _ ← maybe (char '\ufeff')
  let lines ← many do
    let said ← line
    newline
    pure said
  let last ← line
  atEnd
  pure ((lines ++ [last]).filterMap id)

/-! ### The table of a document -/

/-- What is built so far: the whole table, and the keys of the header under which the next
statement stands. -/
structure Building where
  root : Draft.Entries := []
  header : List Text := []

def Building.add (building : Building) : Statement → Option Building
  | .assign key value => do
    let root ← Draft.assignBelow building.header key.path key.key value building.root
    pure { building with root }
  | .openTable key => do
    let root ← Draft.openTable key.path key.key building.root
    pure ⟨root, key.path ++ [key.key]⟩
  | .openRow key => do
    let root ← Draft.openRow key.path key.key building.root
    pure ⟨root, key.path ++ [key.key]⟩

/-- The table of a document, in the order of the document. -/
def parse (text : Text) : Option Table := do
  let (said, _) ← statements text
  let building ← said.foldlM Building.add {}
  pure (Draft.toTable building.root)

end PathRules.Toml
