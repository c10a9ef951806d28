import PathRules.Proofs.Glob.Cutting
import PathRules.Proofs.Glob.Expression
import PathRules.Proofs.Glob.Scanning

/-!
# Reading sources back

The source of a glob spells one expression for each of its tokens, between the two anchors, and
can be read in no other way. What it then matches is what the compiled glob accepts
(`source_spells_tokens`).
-/

namespace PathRules.Glob

open Expression (Spells concat)

/-- What a token is written as. -/
def Token.expression : Token → Expression
  | .directories =>
    .repeated .optional (.group (concat [.repeated .plus .any, .literal '/']))
  | .anything => .repeated .star .any
  | .run => .repeated .star .notSeparator
  | .single => .notSeparator
  | .literal c => .literal c

/-- The anchored expression of tokens. -/
def anchored (tokens : List Token) : List Expression :=
  .start :: tokens.map Token.expression ++ [.stop]

/-! ### Spelling -/

theorem spells_literal {c : Char} (star : c ≠ '*') (question : c ≠ '?') :
    Spells .item (Token.literal c).source (.literal c) := by
  show Spells .item (if c ∈ metaCharacters then ['\\', c] else [c]) (.literal c)
  split
  · next member =>
    have punctuation : metaCharacters.all Expression.isPunctuation = true := by decide
    exact .unmarked (.escaped (List.all_eq_true.mp punctuation c member))
  · next free =>
    have plain : c ∉ Expression.reserved := by
      intro member
      -- All reserved characters are escaped, but for two, which are wildcards and no literals.
      have wildcards : ∀ d ∈ Expression.reserved, d ∈ metaCharacters ∨ d = '*' ∨ d = '?' := by
        simp [Expression.reserved, metaCharacters]
      rcases wildcards c member with meaning | same | same
      · exact free meaning
      · exact star same
      · exact question same
    exact .unmarked (.plain plain)

theorem spells_directories : Spells .item Token.directories.source Token.directories.expression := by
  have directory : Spells .item ['.', '+'] (.repeated .plus .any) := .marked .plus .any
  have separator : Spells .item ['/'] (.literal '/') := .unmarked (.plain (by decide))
  have body := Expression.spells_concat (.cons directory (.cons separator .nil))
  exact .marked .optional (.group body)

theorem spells_token {glob : Text} {token : Token} (member : token ∈ scan glob) :
    Spells .item token.source token.expression := by
  cases token with
  | directories => exact spells_directories
  | anything => exact .marked .star .any
  | run => exact .marked .star .notSeparator
  | single => exact .unmarked .notSeparator
  | literal c =>
    obtain ⟨star, question⟩ := ne_wildcard_of_mem_scan member
    exact spells_literal star question

/-- The parts of a source: the anchors, and one part for each token. -/
def parts (tokens : List Token) : List Text := ['^'] :: tokens.map Token.source ++ [['$']]

theorem flatten_parts (tokens : List Token) : (parts tokens).flatten = sourceOf tokens := by
  simp [parts, sourceOf, List.flatMap]

theorem spells_parts (glob : Text) :
    List.Forall₂ (Spells .item) (parts (scan glob)) (anchored (scan glob)) := by
  have tokens : List.Forall₂ (Spells .item) ((scan glob).map Token.source)
      ((scan glob).map Token.expression) := by
    rw [List.forall₂_map_left_iff, List.forall₂_map_right_iff, List.forall₂_same]
    exact fun token member => spells_token member
  have stop : List.Forall₂ (Spells .item) [['$']] [.stop] := .cons (.unmarked .stop) .nil
  exact .cons (.unmarked .start) (List.rel_append tokens stop)

theorem spells_source (glob : Text) :
    Spells .sequence (source glob) (concat (anchored (scan glob))) := by
  have spelled := Expression.spells_concat (spells_parts glob)
  rwa [flatten_parts] at spelled

/-! ### Matching -/

theorem matches_directories_iff {before piece after : Text} :
    Token.directories.expression.Matches before piece after ↔ Token.directories.Fits piece := by
  constructor
  · intro matched
    cases matched with
    | none => exact .inl rfl
    | one inner =>
      cases inner with
      | group body =>
        obtain ⟨dirs, _, rfl, directory, rest⟩ := Expression.matches_sequence_iff.mp body
        obtain ⟨_, _, rfl, separator, nothing⟩ := Expression.matches_sequence_iff.mp rest
        obtain ⟨nonempty, inside⟩ :=
          (Expression.matches_plus_iff Expression.single_any).mp directory
        cases separator
        cases nothing
        exact .inr ⟨dirs, nonempty, by simpa [inLine] using inside, rfl⟩
  · rintro (rfl | ⟨dirs, nonempty, inside, rfl⟩)
    · exact .none
    · have directory : (Expression.repeated .plus .any).Matches before dirs ('/' :: after) :=
        (Expression.matches_plus_iff Expression.single_any).mpr
          ⟨nonempty, by simpa [inLine] using inside⟩
      exact .one (.group (.sequence directory (.sequence .literal .empty)))

/-- A token matches the pieces that fit it, whatever stands around them. -/
theorem matches_token_iff {token : Token} {before piece after : Text} :
    token.expression.Matches before piece after ↔ token.Fits piece := by
  cases token with
  | directories => exact matches_directories_iff
  | anything =>
    apply (Expression.matches_star_iff Expression.single_any).trans
    simp [Token.Fits, inLine]
  | run =>
    apply (Expression.matches_star_iff Expression.single_notSeparator).trans
    simp [Token.Fits, inSegment]
  | single =>
    apply (Expression.single_notSeparator before piece after).trans
    simp [Token.Fits, inSegment]
  | literal c =>
    apply (Expression.single_literal c before piece after).trans
    simp [Token.Fits]

theorem matches_tokens_iff {tokens : List Token} {before piece after : Text} :
    (concat (tokens.map Token.expression ++ [.stop])).Matches before piece after ↔
      Covers tokens piece ∧ after = [] := by
  induction tokens generalizing before piece with
  | nil =>
    show (Expression.sequence .stop .empty).Matches before piece after ↔ _
    rw [Expression.matches_sequence_iff, covers_nil_iff]
    constructor
    · rintro ⟨_, _, rfl, stop, nothing⟩
      cases nothing
      cases stop
      exact ⟨rfl, rfl⟩
    · rintro ⟨rfl, rfl⟩
      exact ⟨[], [], rfl, .stop, .empty⟩
  | cons token tokens ih =>
    show (Expression.sequence token.expression
      (concat (tokens.map Token.expression ++ [.stop]))).Matches before piece after ↔ _
    rw [Expression.matches_sequence_iff, covers_cons_iff]
    constructor
    · rintro ⟨piece, later, rfl, head, tail⟩
      obtain ⟨covered, last⟩ := ih.mp tail
      exact ⟨⟨piece, later, rfl, matches_token_iff.mp head, covered⟩, last⟩
    · rintro ⟨⟨piece, later, rfl, fits, covered⟩, last⟩
      exact ⟨piece, later, rfl, matches_token_iff.mpr fits, ih.mpr ⟨covered, last⟩⟩

/-- Between the anchors, tokens match the whole path or nothing. -/
theorem finds_anchored_iff {tokens : List Token} {path : Text} :
    (concat (anchored tokens)).Finds path ↔ Covers tokens path := by
  constructor
  · rintro ⟨before, _, after, rfl, matched⟩
    obtain ⟨_, piece, rfl, start, rest⟩ := Expression.matches_sequence_iff.mp matched
    cases start
    obtain ⟨covered, rfl⟩ := matches_tokens_iff.mp rest
    simpa using covered
  · intro covered
    have rest : (concat (tokens.map Token.expression ++ [.stop])).Matches [] path [] :=
      matches_tokens_iff.mpr ⟨covered, rfl⟩
    exact ⟨[], path, [], by simp, Expression.matches_sequence_iff.mpr ⟨[], path, rfl, .start, rest⟩⟩

/-- The source of a glob spells its tokens between the anchors, each part of it being one item, and
nothing else; and what it finds is what the compiled glob accepts. -/
theorem source_spells_tokens (glob : Text) :
    (∀ e, Spells .sequence (source glob) e ↔ e = concat (anchored (scan glob))) ∧
    (∀ texts items, texts.flatten = source glob ∧ List.Forall₂ (Spells .item) texts items ↔
      texts = parts (scan glob) ∧ items = anchored (scan glob)) ∧
    ∀ m, compile glob = .ok m → m.source = source glob ∧
      ∀ path, m.accepts path = true ↔ ∃ e, Spells .sequence m.source e ∧ e.Finds path := by
  have reading : ∀ e, Spells .sequence (source glob) e ↔ e = concat (anchored (scan glob)) := by
    intro e
    constructor
    · intro spelled
      exact (spelled.unique (spells_source glob) (.inl rfl) (.inl rfl) rfl).2
    · rintro rfl
      exact spells_source glob
  refine ⟨reading, fun texts items => ?_, fun m compiled => ?_⟩
  · constructor
    · rintro ⟨whole, each⟩
      apply Expression.items_unique each (spells_parts glob)
      rw [whole, flatten_parts]
      rfl
    · rintro ⟨rfl, rfl⟩
      exact ⟨flatten_parts _, spells_parts glob⟩
  · have same : m.source = source glob := by
      show sourceOf m.tokens = sourceOf (scan glob)
      rw [(compile_eq_ok compiled).2]
    refine ⟨same, fun path => ?_⟩
    rw [accepts_iff_covers compiled, ← finds_anchored_iff, same]
    simp only [reading, exists_eq_left]

theorem source_of_escaped_literals_finds :
    ∃ m, compile "**/?[.*".toList = .ok m ∧
      m.source = "^(?:.+/)?[^/]\\[\\.[^/]*$".toList ∧
      ∃ e, Spells .sequence m.source e ∧ e.Finds "x/y[.a".toList := by
  have compiled : compile "**/?[.*".toList = .ok ⟨_, _, rfl⟩ := rfl
  obtain ⟨_, _, found⟩ := source_spells_tokens "**/?[.*".toList
  obtain ⟨same, accepted⟩ := found _ compiled
  refine ⟨_, compiled, by rw [same]; decide, (accepted _).mp (by decide)⟩

end PathRules.Glob
