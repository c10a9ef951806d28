import PathRules.Document

/-!
# Markdown report

The report lists the paths of the rules, and then each rule under a heading. It is pasted into a
review prompt, so a run without rules leaves a mark of its own.
-/

namespace PathRules.Report

def noRules : Text := Text.of "<!-- no-matching-rules -->"

def summaryLine (rule : MatchedRule) : Text := ['-', ' ', '`'] ++ rule.path ++ ['`', '\n']

def ruleSection (rule : MatchedRule) : Text :=
  ['#', '#', '#', ' '] ++ rule.path ++ ['\n', '\n'] ++ rule.body ++ ['\n', '\n']

def markdown (rules : List MatchedRule) : Text :=
  if rules.isEmpty then noRules ++ ['\n']
  else
    Text.of "マッチしたルール: " ++ Text.ofNat rules.length ++ Text.of " 件\n\n" ++
      rules.flatMap summaryLine ++ ['\n'] ++ rules.flatMap ruleSection

end PathRules.Report
