import PathRules.Proofs.Glob.Cutting
import PathRules.Proofs.Glob.Scanning

/-!
# Globs in a row

Where no wildcard goes on over the seam, one glob behind another has the expressions of both in a
row, and accepts what the one accepts followed by what the other accepts
(`append_of_clearSeam`). So a literal directory in front of a glob stands in front of all paths.
-/

namespace PathRules.Glob

/-- The source of a glob between its anchors. -/
def innerSource (glob : Text) : Text := (source glob).tail.dropLast

theorem innerSource_eq (glob : Text) : innerSource glob = (scan glob).flatMap Token.source := by
  simp [innerSource, source, sourceOf]

theorem source_append {glob other : Text} (clear : ClearSeam glob other) :
    source (glob ++ other) = '^' :: (innerSource glob ++ innerSource other) ++ ['$'] := by
  rw [source, sourceOf, scan_append clear, List.flatMap_append, innerSource_eq, innerSource_eq]

/-! ### Literal starts -/

/-- A text without wildcards, which stands for itself. -/
def Literal (start : Text) : Prop := '*' ∉ start ∧ '?' ∉ start

theorem Literal.clearSeam {start : Text} (literal : Literal start) (glob : Text) :
    ClearSeam start glob :=
  .inl fun star => literal.1 (List.mem_of_getLast? star)

theorem scan_literal {start : Text} (literal : Literal start) :
    scan start = start.map Token.literal := by
  induction start with
  | nil => rfl
  | cons c start ih =>
    obtain ⟨noStar, noQuestion⟩ := literal
    have star : c ≠ '*' := (List.ne_of_not_mem_cons noStar).symm
    have question : c ≠ '?' := (List.ne_of_not_mem_cons noQuestion).symm
    rw [scan_cons_of_ne_star star, Token.ofChar_of_plain star question, List.map_cons,
      ih ⟨List.not_mem_of_not_mem_cons noStar, List.not_mem_of_not_mem_cons noQuestion⟩]

theorem covers_literals_iff {start part : Text} :
    Covers (start.map Token.literal) part ↔ part = start := by
  induction start generalizing part with
  | nil => exact covers_nil_iff
  | cons c start ih =>
    rw [List.map_cons, covers_cons_iff]
    constructor
    · rintro ⟨_, rest, rfl, rfl, covered⟩
      rw [ih.mp covered]
      rfl
    · rintro rfl
      exact ⟨[c], start, rfl, rfl, ih.mpr rfl⟩

theorem accepts_literal_iff {start : Text} (literal : Literal start) {m : Matcher}
    (compiled : compile start = .ok m) (path : Text) : m.accepts path = true ↔ path = start := by
  rw [accepts_iff_covers compiled, scan_literal literal, covers_literals_iff]

/-! ### What the whole glob accepts -/

/-- Over a clear seam, the source of the whole glob is put together from those of its parts, and so
is each path that it accepts. A literal start, such as a directory, is the start of each path. -/
theorem append_of_clearSeam {glob other : Text} (clear : ClearSeam glob other) :
    source (glob ++ other) = '^' :: (innerSource glob ++ innerSource other) ++ ['$'] ∧
      ∀ first last whole, compile glob = .ok first → compile other = .ok last →
        compile (glob ++ other) = .ok whole →
        (∀ path, whole.accepts path = true ↔
          ∃ u v, path = u ++ v ∧ first.accepts u = true ∧ last.accepts v = true) ∧
        (Literal glob → ∀ path, whole.accepts path = true ↔
          ∃ v, path = glob ++ v ∧ last.accepts v = true) := by
  refine ⟨source_append clear, fun first last whole compiledFirst compiledLast compiled => ?_⟩
  have both (path : Text) : whole.accepts path = true ↔
      ∃ u v, path = u ++ v ∧ first.accepts u = true ∧ last.accepts v = true := by
    simp only [accepts_iff_covers compiledFirst, accepts_iff_covers compiledLast,
      accepts_iff_covers compiled, scan_append clear, covers_append_iff]
  refine ⟨both, fun literal path => (both path).trans ?_⟩
  simp only [accepts_literal_iff literal compiledFirst]
  constructor
  · rintro ⟨_, v, cut, rfl, accepted⟩
    exact ⟨v, cut, accepted⟩
  · rintro ⟨v, cut, accepted⟩
    exact ⟨glob, v, cut, rfl, accepted⟩

/-- Stars in front of a seam and a literal directory. -/
theorem append_of_clearSeam_behind_stars :
    (ClearSeam "a/**".toList "?b".toList ∧
      ∃ whole, compile ("a/**".toList ++ "?b".toList) = .ok whole ∧
        whole.accepts "a/x/yb".toList = true) ∧
    Literal "a.b/".toList ∧
      ∃ whole, compile ("a.b/".toList ++ "*/c".toList) = .ok whole ∧
        whole.accepts "a.b/\n/c".toList = true := by
  have clear : ClearSeam "a/**".toList "?b".toList := .inr (by decide)
  have literal : Literal "a.b/".toList := by unfold Literal; decide
  refine ⟨⟨clear, _, rfl, ?_⟩, literal, _, rfl, ?_⟩
  · obtain ⟨_, alike⟩ := append_of_clearSeam clear
    exact ((alike _ _ _ rfl rfl rfl).1 _).mpr
      ⟨"a/x/".toList, "yb".toList, by decide, by decide +kernel, by decide +kernel⟩
  · obtain ⟨_, alike⟩ := append_of_clearSeam (literal.clearSeam "*/c".toList)
    exact ((alike _ _ _ rfl rfl rfl).2 literal _).mpr ⟨"\n/c".toList, by decide, by decide +kernel⟩

end PathRules.Glob
