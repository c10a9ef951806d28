import PathRules.Text

/-!
# List of changed files

The list is a text with one path a line. Blanks around a path do not belong to it, and blank
lines hold none.
-/

namespace PathRules.ChangedFiles

def parse (content : Text) : List Text :=
  ((Text.lines content).map Text.trim).filter (!·.isEmpty)

def inputPath : Text := ['-']

end PathRules.ChangedFiles
