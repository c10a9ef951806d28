import PathRules.Glob.Source
import PathRules.Proofs.Glob.Scanning

/-!
# Globs from their sources

The source of a glob is read from left to right into the tokens that it was written for. Fragments
overlap as text, but what may follow one of them tells where it ends. So `globOf?` recovers every
glob from its source, and no two globs share one (`source_determines_glob`).
-/

namespace PathRules.Glob

/-- The tokens that fragments in a row were written for. Of two fragments that fit the longer one is
taken. -/
def readTokens : Text → List Token
  | '(' :: '?' :: ':' :: '.' :: '+' :: '/' :: ')' :: '?' :: rest => .directories :: readTokens rest
  | '.' :: '*' :: rest => .anything :: readTokens rest
  | '[' :: '^' :: '/' :: ']' :: '*' :: rest => .run :: readTokens rest
  | '[' :: '^' :: '/' :: ']' :: rest => .single :: readTokens rest
  | '\\' :: c :: rest => .literal c :: readTokens rest
  | c :: rest => .literal c :: readTokens rest
  | [] => []

/-- The glob whose source a text is, if there is one. -/
def globOf? (text : Text) : Option Text :=
  let glob := (readTokens text.tail.dropLast).flatMap Token.text
  if source glob = text then some glob else none

/-! ### Fragments -/

theorem readTokens_single {rest : Text} (unstarred : rest.head? ≠ some '*') :
    readTokens (Token.single.source ++ rest) = .single :: readTokens rest := by
  show readTokens ('[' :: '^' :: '/' :: ']' :: rest) = _
  rw [readTokens]
  rintro later rfl
  exact unstarred rfl

theorem readTokens_literal (c : Char) (rest : Text) :
    readTokens ((Token.literal c).source ++ rest) = .literal c :: readTokens rest := by
  show readTokens ((if c ∈ metaCharacters then ['\\', c] else [c]) ++ rest) = _
  by_cases meaning : c ∈ metaCharacters
  · rw [if_pos meaning]
    show readTokens ('\\' :: c :: rest) = _
    rw [readTokens]
  · -- Every fragment but that of a plain character starts with a character that is escaped.
    have other {d : Char} (escaped : d ∈ metaCharacters) : c ≠ d := by
      rintro rfl
      exact meaning escaped
    rw [if_neg meaning, List.singleton_append, readTokens]
    iterate 4 exact fun _ same _ => other (by decide) same
    exact fun _ _ same _ => other (by decide) same

/-- No fragment starts with a star. -/
theorem head?_flatMap_source {tokens : List Token} (starless : Token.literal '*' ∉ tokens) :
    (tokens.flatMap Token.source).head? ≠ some '*' := by
  cases tokens with
  | nil => simp
  | cons token tokens =>
    rw [List.flatMap_cons]
    cases token with
    | literal c =>
      have ne : c ≠ '*' := by
        rintro rfl
        exact starless List.mem_cons_self
      show ((if c ∈ metaCharacters then ['\\', c] else [c]) ++ _).head? ≠ _
      split <;> simp [ne]
    | _ => simp [Token.source]

theorem readTokens_flatMap_source {tokens : List Token} (starless : Token.literal '*' ∉ tokens) :
    readTokens (tokens.flatMap Token.source) = tokens := by
  induction tokens with
  | nil => rfl
  | cons token tokens ih =>
    have later := List.not_mem_of_not_mem_cons starless
    rw [List.flatMap_cons]
    cases token with
    | single => rw [readTokens_single (head?_flatMap_source later), ih later]
    | literal c => rw [readTokens_literal, ih later]
    | _ => simp [Token.source, readTokens, ih later]

/-! ### Sources -/

theorem globOf?_source (glob : Text) : globOf? (source glob) = some glob := by
  have starless : Token.literal '*' ∉ scan glob := fun member =>
    (ne_wildcard_of_mem_scan member).1 rfl
  have within : (source glob).tail.dropLast = (scan glob).flatMap Token.source := by
    simp [source, sourceOf]
  have read : (readTokens (source glob).tail.dropLast).flatMap Token.text = glob := by
    rw [within, readTokens_flatMap_source starless, flatMap_text_scan]
  unfold globOf?
  rw [read]
  exact if_pos rfl

/-- No two globs have the same source, and `globOf?` finds the glob of every source and none for any
other text. -/
theorem source_determines_glob :
    Function.Injective source ∧ ∀ text glob, globOf? text = some glob ↔ source glob = text := by
  refine ⟨fun glob other same => ?_, fun text glob => ⟨fun found => ?_, ?_⟩⟩
  · have found := globOf?_source glob
    rw [same, globOf?_source other] at found
    exact (Option.some.inj found).symm
  · simp only [globOf?] at found
    split at found
    · next spelled => rw [← Option.some.inj found, spelled]
    · cases found
  · rintro rfl
    exact globOf?_source glob

-- The fragments of `**` and of a separator are no source when they stand side by side.
example : globOf? "^.*/$".toList = none ∧ globOf? "^[^/][^/]*$".toList = some "?*".toList := by
  decide

end PathRules.Glob
