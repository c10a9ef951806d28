import PathRules.Glob.Covering
import PathRules.Glob.Matcher
import Mathlib.Data.List.Forall2

/-!
# Cutting a path

A compiled glob accepts a path just if the whole path can be cut into pieces in a row, one for
each token of the glob, that fit their tokens. `accepts_iff_cut` says so for every path.
-/

namespace PathRules.Glob

/-- `pieces` is a way to cut a path into pieces that fit tokens. -/
structure Cut (tokens : List Token) (path : Text) (pieces : List Text) : Prop where
  flatten_eq : pieces.flatten = path
  fit : List.Forall₂ Token.Fits tokens pieces

theorem covers_iff_cut {tokens : List Token} {path : Text} :
    Covers tokens path ↔ ∃ pieces, Cut tokens path pieces := by
  constructor
  · intro covered
    induction covered with
    | nil => exact ⟨[], rfl, .nil⟩
    | @cons token tokens piece rest fits _ ih =>
      obtain ⟨pieces, whole, fit⟩ := ih
      refine ⟨piece :: pieces, ?_, .cons fits fit⟩
      rw [List.flatten_cons, whole]
  · rintro ⟨pieces, whole, fit⟩
    subst whole
    induction fit with
    | nil => exact .nil
    | cons fits _ ih =>
      rw [List.flatten_cons]
      exact .cons fits ih

theorem forall_inLine_iff {piece : Text} : (∀ c ∈ piece, inLine c = true) ↔ '\n' ∉ piece := by
  simp only [inLine, bne_iff_ne, ne_eq, List.forall_mem_ne']

theorem forall_inSegment_iff {piece : Text} :
    (∀ c ∈ piece, inSegment c = true) ↔ '/' ∉ piece := by
  simp only [inSegment, bne_iff_ne, ne_eq, List.forall_mem_ne']

theorem covers_nil_iff {path : Text} : Covers [] path ↔ path = [] := by
  constructor
  · rintro ⟨⟩
    rfl
  · rintro rfl
    exact .nil

theorem covers_cons_iff {token : Token} {tokens : List Token} {path : Text} :
    Covers (token :: tokens) path ↔
      ∃ piece rest, path = piece ++ rest ∧ token.Fits piece ∧ Covers tokens rest := by
  constructor
  · intro covered
    cases covered with
    | cons fits covered => exact ⟨_, _, rfl, fits, covered⟩
  · rintro ⟨piece, rest, rfl, fits, covered⟩
    exact .cons fits covered

theorem covers_append_iff {tokens others : List Token} {path : Text} :
    Covers (tokens ++ others) path ↔
      ∃ part rest, path = part ++ rest ∧ Covers tokens part ∧ Covers others rest := by
  induction tokens generalizing path with
  | nil =>
    constructor
    · intro covered
      exact ⟨[], path, rfl, .nil, covered⟩
    · rintro ⟨part, rest, rfl, nothing, covered⟩
      rw [covers_nil_iff.mp nothing]
      exact covered
  | cons token tokens ih =>
    constructor
    · intro covered
      obtain ⟨piece, _, rfl, fits, covered⟩ := covers_cons_iff.mp covered
      obtain ⟨part, rest, rfl, inner, outer⟩ := ih.mp covered
      exact ⟨piece ++ part, rest, (List.append_assoc ..).symm, .cons fits inner, outer⟩
    · rintro ⟨part, rest, rfl, inner, outer⟩
      obtain ⟨piece, part, rfl, fits, inner⟩ := covers_cons_iff.mp inner
      rw [List.append_assoc]
      exact .cons fits (ih.mpr ⟨part, rest, rfl, inner, outer⟩)

theorem compile_eq_ok {glob : Text} {m : Matcher} (compiled : compile glob = .ok m) :
    m.glob = glob ∧ m.tokens = scan glob := by
  unfold compile at compiled
  split at compiled
  · have same := Except.ok.inj compiled
    subst m
    exact ⟨rfl, rfl⟩
  · exact absurd compiled (by simp)

theorem accepts_iff_covers {glob : Text} {m : Matcher} (compiled : compile glob = .ok m)
    (path : Text) : m.accepts path = true ↔ Covers (scan glob) path := by
  unfold Matcher.accepts
  rw [(compile_eq_ok compiled).2]
  exact covers_iff

/-- A compiled glob accepts exactly the paths that can be cut to fit its tokens. -/
theorem accepts_iff_cut {glob : Text} {m : Matcher} (compiled : compile glob = .ok m)
    (path : Text) : m.accepts path = true ↔ ∃ pieces, Cut (scan glob) path pieces := by
  have tokens := (compile_eq_ok compiled).2
  unfold Matcher.accepts
  rw [tokens, covers_iff, covers_iff_cut]

theorem accepts_run_over_line_feed :
    ∃ m, compile ['*', '*', '/', '*', 'x'] = .ok m ∧ m.accepts ['a', '/', '\n', 'x'] = true := by
  have compiled : compile ['*', '*', '/', '*', 'x'] = .ok ⟨_, _, rfl⟩ := rfl
  refine ⟨_, compiled, (accepts_iff_cut compiled _).mpr ⟨[['a', '/'], ['\n'], ['x']], rfl, ?_⟩⟩
  refine .cons ?_ (.cons ?_ (.cons rfl .nil))
  · exact .inr ⟨['a'], by simp, by simp [inLine], rfl⟩
  · intro c member
    simp_all [inSegment]

end PathRules.Glob
