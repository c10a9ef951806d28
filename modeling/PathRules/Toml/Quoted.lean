import PathRules.Toml.Reader
import PathRules.Toml.Number

/-!
# Strings of TOML

A string is basic, with escapes, or literal, without; either may run over several lines. A line
end in a string is one line feed, however it is written.
-/

namespace PathRules.Toml

open Reader
open Text (isHexDigit ofDigits scalar?)

/-! ### Characters -/

/-- The characters that neither a comment nor a string may hold as they are. -/
def isControl (c : Char) : Bool := (c.toNat < 0x20 && c != '\t') || c.toNat == 0x7F

def newline : Reader Unit := either (char '\n') (word ['\r', '\n'])

def isSpace (c : Char) : Bool := c == ' ' || c == '\t'

def spaces : Reader Unit := do
  let _ ← span isSpace

/-- The character that so many hexadecimal digits number. -/
def numbered (count : Nat) : Reader Char := fun s =>
  let digits := s.take count
  if digits.length = count ∧ digits.all isHexDigit then
    (scalar? (ofDigits 16 digits)).map (·, s.drop count)
  else none

def escaped : Reader Char := do
  match ← one fun _ => true with
  | 'b' => pure '\x08'
  | 't' => pure '\t'
  | 'n' => pure '\n'
  | 'f' => pure '\x0c'
  | 'r' => pure '\r'
  | '"' => pure '"'
  | '\\' => pure '\\'
  | 'u' => numbered 4
  | 'U' => numbered 8
  | _ => refuse

/-- A character of a basic string: one that stands for itself, or an escape. -/
def basicChar : Reader Char :=
  either (one fun c => !isControl c && c != '"' && c != '\\') do
    char '\\'
    escaped

def literalChar : Reader Char := one fun c => !isControl c && c != '\''

/-! ### Strings on one line -/

def basicString : Reader Text := do
  char '"'
  let text ← many basicChar
  char '"'
  pure text

def literalString : Reader Text := do
  char '\''
  let text ← many literalChar
  char '\''
  pure text

/-! ### Strings over several lines -/

/-- One or two quotes that do not belong to a closing mark. -/
def innerQuotes (quote : Char) : Reader Text :=
  check (span (· == quote)) fun quotes => 0 < quotes.length && quotes.length < 3

/-- The closing mark of three quotes, with up to two more in front that belong to the string. -/
def closingQuotes (quote : Char) : Reader Text := do
  let quotes ← check (span (· == quote)) fun quotes => 3 ≤ quotes.length && quotes.length ≤ 5
  pure (quotes.drop 3)

/-- A backslash at the end of a line, which joins it with what comes after the blanks that follow.
-/
def continuation : Reader Unit := do
  char '\\'
  spaces
  newline
  let _ ← many (either newline do let _ ← one isSpace)

def multilinePart (quote : Char) (character : Reader Text) : Reader Text :=
  either character (either (do newline; pure ['\n']) (innerQuotes quote))

/-- A string between marks of three quotes. A line end directly after the opening mark does not
belong to it. -/
def multiline (quote : Char) (character : Reader Text) : Reader Text := do
  word [quote, quote, quote]
  let _ ← maybe newline
  let parts ← many (multilinePart quote character)
  let last ← closingQuotes quote
  pure (parts.flatten ++ last)

def multilineBasic : Reader Text :=
  multiline '"' <| either (do pure [← basicChar]) (do continuation; pure [])

def multilineLiteral : Reader Text := multiline '\'' do pure [← literalChar]

def string : Reader Text :=
  either multilineBasic (either multilineLiteral (either basicString literalString))

end PathRules.Toml
