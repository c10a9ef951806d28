import PathRules.Document

/-!
# JSON report

The report as a JSON value, laid out over several lines. Strings are written with the fewest
escapes: quotes, backslashes and control characters.
-/

namespace PathRules

inductive Json where
  | string (text : Text)
  | array (items : List Json)
  | object (fields : List (Text × Json))

namespace Json

/-! ### Strings -/

def escape (c : Char) : Text :=
  if c = '"' then ['\\', '"']
  else if c = '\\' then ['\\', '\\']
  else if c = '\x08' then ['\\', 'b']
  else if c = '\x0c' then ['\\', 'f']
  else if c = '\n' then ['\\', 'n']
  else if c = '\r' then ['\\', 'r']
  else if c = '\t' then ['\\', 't']
  else if c.toNat < 0x20 then
    ['\\', 'u', '0', '0', Text.hexDigit (c.toNat / 16), Text.hexDigit (c.toNat % 16)]
  else [c]

def quote (text : Text) : Text := '"' :: text.flatMap escape ++ ['"']

/-! ### Layout -/

def lineBreak (level : Nat) : Text := '\n' :: List.replicate (2 * level) ' '

/-- Parts on lines of their own between brackets; the brackets alone if there is none. -/
def bracketed (opening closing : Char) (level : Nat) : List Text → Text
  | [] => [opening, closing]
  | part :: parts =>
    opening :: lineBreak (level + 1) ++ part ++
      (parts.flatMap fun next => ',' :: lineBreak (level + 1) ++ next) ++
      lineBreak level ++ [closing]

mutual

def render (level : Nat) : Json → Text
  | .string text => quote text
  | .array items => bracketed '[' ']' level (renderItems (level + 1) items)
  | .object fields => bracketed '\x7b' '\x7d' level (renderFields (level + 1) fields)

def renderItems (level : Nat) : List Json → List Text
  | [] => []
  | item :: items => render level item :: renderItems level items

def renderFields (level : Nat) : List (Text × Json) → List Text
  | [] => []
  | (name, value) :: fields =>
    (quote name ++ [':', ' '] ++ render level value) :: renderFields level fields

end

end Json

namespace Report

def ruleValue (rule : MatchedRule) : Json :=
  .object [(Text.of "path", .string rule.path), (Text.of "body", .string rule.body)]

def value (rules : List MatchedRule) : Json :=
  .object [(Text.of "matched", .array (rules.map ruleValue))]

def json (rules : List MatchedRule) : Text := (value rules).render 0 ++ ['\n']

end Report
end PathRules
