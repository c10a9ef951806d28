import PathRules.Proofs.Glob.Cutting
import PathRules.Proofs.Glob.Scanning
import PathRules.Proofs.Text.Splitting
import Mathlib.Data.List.Infix

/-!
# Matching segment by segment

Where `**` stands in a glob only as an entire segment, a path can be matched without looking at
its characters across separators. `fitsSegments` does so, and `accepts_eq_fitsSegments` says that
a compiled glob accepts the same normal paths.
-/

namespace PathRules.Glob

def doubleStar : Text := ['*', '*']

/-- `**` stands in the glob only as an entire segment. -/
def WholeSegments (glob : Text) : Prop :=
  ∀ segment ∈ Text.split '/' glob, doubleStar <:+: segment → segment = doubleStar

structure Normal (path : Text) : Prop where
  nonempty : path ≠ []
  no_empty_segment : [] ∉ Text.split '/' path
  one_line : '\n' ∉ path

/-! ### The matcher of segments -/

/-- Whether a segment of a glob matches a segment of a path: `*` stands for any run of characters
and `?` for one. -/
def fitsSegment : (glob segment : Text) → Bool
  | [], segment => segment.isEmpty
  | c :: glob, segment =>
    if c = '*' then segment.tails.any (fitsSegment glob)
    else match segment with
      | [] => false
      | d :: segment => (c == '?' || c == d) && fitsSegment glob segment

/-- Whether the segments of a glob match those of a path: `**` stands for any number of them, but
at the end for one or more. -/
def fitsSegments : (globs segments : List Text) → Bool
  | [], segments => segments.isEmpty
  | glob :: globs, segments =>
    if glob = doubleStar then
      if globs = [] then !segments.isEmpty else segments.tails.any (fitsSegments globs)
    else match segments with
      | [] => false
      | segment :: segments => fitsSegment glob segment && fitsSegments globs segments

theorem fitsSegment_star (glob segment : Text) :
    fitsSegment ('*' :: glob) segment = segment.tails.any (fitsSegment glob) := by
  cases segment <;> simp [fitsSegment]

theorem fitsSegment_cons_nil {c : Char} (star : c ≠ '*') (glob : Text) :
    fitsSegment (c :: glob) [] = false := by
  simp [fitsSegment, star]

theorem fitsSegment_cons_cons {c : Char} (star : c ≠ '*') (d : Char) (glob segment : Text) :
    fitsSegment (c :: glob) (d :: segment) =
      ((c == '?' || c == d) && fitsSegment glob segment) := by
  simp [fitsSegment, star]

theorem fitsSegments_last (segments : List Text) :
    fitsSegments [doubleStar] segments = !segments.isEmpty := by
  cases segments <;> rfl

theorem fitsSegments_many {globs : List Text} (more : globs ≠ []) (segments : List Text) :
    fitsSegments (doubleStar :: globs) segments = segments.tails.any (fitsSegments globs) := by
  cases segments <;> simp [fitsSegments, more]

theorem fitsSegments_cons {glob : Text} (one : glob ≠ doubleStar) (globs : List Text)
    (segment : Text) (segments : List Text) :
    fitsSegments (glob :: globs) (segment :: segments) =
      (fitsSegment glob segment && fitsSegments globs segments) := by
  simp [fitsSegments, one]

theorem fitsSegments_nil {globs : List Text} (nonempty : globs ≠ []) :
    fitsSegments globs [] = false := by
  induction globs with
  | nil => exact absurd rfl nonempty
  | cons glob globs ih =>
    by_cases many : glob = doubleStar
    · subst many
      by_cases last : globs = []
      · rw [last, fitsSegments_last]
        rfl
      · rw [fitsSegments_many last]
        simpa using ih last
    · simp [fitsSegments, many]

/-! ### Tokens of one segment -/

theorem fits_ofChar_of_ne_star {c : Char} (star : c ≠ '*') (slash : c ≠ '/') {piece : Text} :
    (Token.ofChar c).Fits piece ↔ ∃ d, d ≠ '/' ∧ (c = '?' ∨ c = d) ∧ piece = [d] := by
  unfold Token.ofChar
  rw [if_neg star]
  split
  · next question => simp [Token.Fits, inSegment, question]
  · next question =>
    constructor
    · rintro rfl
      exact ⟨c, slash, .inr rfl, rfl⟩
    · rintro ⟨d, _, same, rfl⟩
      rw [same.resolve_left question]
      rfl

/-- The tokens of a segment's characters cover just what the segment matches. -/
def AgreesWithin (glob : Text) : Prop :=
  ∀ part, Covers (glob.map Token.ofChar) part ↔ '/' ∉ part ∧ fitsSegment glob part = true

theorem agreesWithin_nil : AgreesWithin [] := by
  intro part
  rw [List.map_nil, covers_nil_iff]
  constructor
  · rintro rfl
    exact ⟨List.not_mem_nil, rfl⟩
  · rintro ⟨_, nothing⟩
    exact List.isEmpty_iff.mp nothing

section OneMore

variable {glob : Text} (agrees : AgreesWithin glob)
include agrees

theorem agreesWithin_star : AgreesWithin ('*' :: glob) := by
  intro part
  rw [List.map_cons, covers_cons_iff, fitsSegment_star, List.any_eq_true]
  constructor
  · rintro ⟨piece, rest, rfl, fits, covered⟩
    obtain ⟨clear, inner⟩ := (agrees rest).mp covered
    have before := forall_inSegment_iff.mp fits
    refine ⟨?_, rest, (List.mem_tails _ _).mpr (List.suffix_append _ _), inner⟩
    rw [List.mem_append, not_or]
    exact ⟨before, clear⟩
  · rintro ⟨clear, rest, tail, inner⟩
    obtain ⟨piece, rfl⟩ := (List.mem_tails _ _).mp tail
    rw [List.mem_append, not_or] at clear
    have fits : Token.run.Fits piece := forall_inSegment_iff.mpr clear.1
    exact ⟨piece, rest, rfl, fits, (agrees rest).mpr ⟨clear.2, inner⟩⟩

theorem agreesWithin_cons {c : Char} (star : c ≠ '*') (slash : c ≠ '/') :
    AgreesWithin (c :: glob) := by
  intro part
  rw [List.map_cons, covers_cons_iff]
  constructor
  · rintro ⟨piece, rest, rfl, fits, covered⟩
    obtain ⟨clear, inner⟩ := (agrees rest).mp covered
    obtain ⟨d, ne, same, rfl⟩ := (fits_ofChar_of_ne_star star slash).mp fits
    refine ⟨List.not_mem_cons_of_ne_of_not_mem ne.symm clear, ?_⟩
    rw [List.singleton_append, fitsSegment_cons_cons star]
    simpa using ⟨same, inner⟩
  · rintro ⟨clear, inner⟩
    cases part with
    | nil =>
      rw [fitsSegment_cons_nil star] at inner
      cases inner
    | cons d part =>
      rw [fitsSegment_cons_cons star] at inner
      have ne : d ≠ '/' := (List.ne_of_not_mem_cons clear).symm
      obtain ⟨same, inner⟩ : (c = '?' ∨ c = d) ∧ fitsSegment glob part = true := by
        simpa using inner
      refine ⟨[d], part, rfl, (fits_ofChar_of_ne_star star slash).mpr ⟨d, ne, same, rfl⟩, ?_⟩
      exact (agrees part).mpr ⟨List.not_mem_of_not_mem_cons clear, inner⟩

end OneMore

theorem agreesWithin_of_not_mem {glob : Text} (free : '/' ∉ glob) : AgreesWithin glob := by
  induction glob with
  | nil => exact agreesWithin_nil
  | cons c glob ih =>
    have slash : c ≠ '/' := (List.ne_of_not_mem_cons free).symm
    have agrees := ih (List.not_mem_of_not_mem_cons free)
    by_cases star : c = '*'
    · rw [star]
      exact agreesWithin_star agrees
    · exact agreesWithin_cons agrees star slash

/-! ### Whole segments of a path -/

/-- In a normal path, what `**` and a separator leave starts with a segment of the path. -/
theorem fits_directories_iff {path rest : Text} (normal : Normal path) :
    (∃ piece, path = piece ++ rest ∧ Token.directories.Fits piece) ↔
      Text.split '/' rest <:+ Text.split '/' path := by
  rw [Text.split_suffix_iff]
  constructor
  · rintro ⟨piece, rfl, rfl | ⟨front, _, _, rfl⟩⟩
    · exact .inl rfl
    · exact .inr ⟨front, by simp⟩
  · rintro (rfl | ⟨front, rfl⟩)
    · exact ⟨[], rfl, .inl rfl⟩
    · -- Something stands in front of the separator, as no segment is empty, and it is in one line.
      have nonempty : front ≠ [] := by
        rintro rfl
        apply normal.no_empty_segment
        rw [List.nil_append, Text.split_cons_self]
        exact List.mem_cons_self
      have one_line : '\n' ∉ front := fun member =>
        normal.one_line (List.mem_append_left _ member)
      exact ⟨front ++ ['/'], by simp, .inr ⟨front, nonempty, forall_inLine_iff.mpr one_line, rfl⟩⟩

theorem Normal.of_suffix {path rest : Text} (normal : Normal path)
    (sub : Text.split '/' rest <:+ Text.split '/' path) : Normal rest where
  nonempty := by
    rintro rfl
    exact normal.no_empty_segment (sub.subset List.mem_cons_self)
  no_empty_segment member := normal.no_empty_segment (sub.subset member)
  one_line member := by
    rcases Text.split_suffix_iff.mp sub with rfl | ⟨front, rfl⟩
    · exact normal.one_line member
    · exact normal.one_line (List.mem_append_right _ (List.mem_cons_of_mem _ member))

/-! ### Tokens of a path's segments -/

theorem covers_directories_iff {tokens : List Token} {path : Text} (normal : Normal path) :
    Covers (.directories :: tokens) path ↔
      ∃ rest, Text.split '/' rest <:+ Text.split '/' path ∧ Covers tokens rest := by
  rw [covers_cons_iff]
  constructor
  · rintro ⟨piece, rest, cut, fits, covered⟩
    exact ⟨rest, (fits_directories_iff normal).mp ⟨piece, cut, fits⟩, covered⟩
  · rintro ⟨rest, sub, covered⟩
    obtain ⟨piece, cut, fits⟩ := (fits_directories_iff normal).mpr sub
    exact ⟨piece, rest, cut, fits, covered⟩

theorem covers_anything {path : Text} (one_line : '\n' ∉ path) : Covers [.anything] path := by
  have fits : Token.anything.Fits path := forall_inLine_iff.mpr one_line
  exact covers_cons_iff.mpr ⟨path, [], (List.append_nil _).symm, fits, .nil⟩

theorem covers_segment_iff {glob segment : Text} (free : '/' ∉ glob) (clear : '/' ∉ segment)
    {tokens : List Token} {rest : Text} :
    Covers (glob.map Token.ofChar ++ .literal '/' :: tokens) (segment ++ '/' :: rest) ↔
      fitsSegment glob segment = true ∧ Covers tokens rest := by
  rw [covers_append_iff]
  constructor
  · rintro ⟨first, _, cut, before, after⟩
    obtain ⟨_, others, rfl, rfl, covered⟩ := covers_cons_iff.mp after
    obtain ⟨clear_first, fits⟩ := (agreesWithin_of_not_mem free _).mp before
    obtain ⟨rfl, rfl⟩ := Text.append_cons_inj clear clear_first cut
    exact ⟨fits, covered⟩
  · rintro ⟨fits, covered⟩
    have after : Covers (.literal '/' :: tokens) ('/' :: rest) :=
      covers_cons_iff.mpr ⟨['/'], rest, rfl, rfl, covered⟩
    exact ⟨segment, _, rfl, (agreesWithin_of_not_mem free _).mpr ⟨clear, fits⟩, after⟩

theorem not_covers_segment {glob path : Text} (clear : '/' ∉ path)
    {tokens : List Token} :
    ¬ Covers (glob.map Token.ofChar ++ .literal '/' :: tokens) path := by
  intro covered
  obtain ⟨_, _, rfl, _, after⟩ := covers_append_iff.mp covered
  obtain ⟨_, _, rfl, rfl, _⟩ := covers_cons_iff.mp after
  exact clear (by simp)

/-! ### Agreement -/

/-- The tokens of the joined segments cover the normal paths whose segments match. -/
def Agrees (globs : List Text) : Prop :=
  ∀ path, Normal path →
    (Covers (scan (Text.join '/' globs)) path ↔ fitsSegments globs (Text.split '/' path) = true)

theorem agrees_last_double_star : Agrees [doubleStar] := by
  intro path normal
  rw [fitsSegments_last]
  have remains : (!(Text.split '/' path).isEmpty) = true := by
    simpa using Text.split_ne_nil '/' path
  exact iff_of_true (covers_anything normal.one_line) remains

theorem agrees_double_star {globs : List Text} (more : globs ≠ []) (agrees : Agrees globs) :
    Agrees (doubleStar :: globs) := by
  intro path normal
  rw [fitsSegments_many more, List.any_eq_true, Text.join_cons more]
  show Covers (scan ('*' :: '*' :: '/' :: Text.join '/' globs)) path ↔ _
  rw [scan_star_star_slash, covers_directories_iff normal]
  constructor
  · rintro ⟨rest, sub, covered⟩
    have fits := (agrees rest (normal.of_suffix sub)).mp covered
    exact ⟨_, (List.mem_tails _ _).mpr sub, fits⟩
  · rintro ⟨segments, tail, fits⟩
    have sub := (List.mem_tails _ _).mp tail
    have remain : segments ≠ [] := by
      rintro rfl
      rw [fitsSegments_nil more] at fits
      cases fits
    -- What remains of the segments is what a path is split into: the one they join to.
    have joined : Text.split '/' (Text.join '/' segments) = segments :=
      Text.split_join remain fun segment member => Text.not_mem_of_mem_split (sub.subset member)
    rw [← joined] at sub fits
    exact ⟨_, sub, (agrees _ (normal.of_suffix sub)).mpr fits⟩

section OneSegment

variable {glob : Text} (free : '/' ∉ glob) (apart : ¬ doubleStar <:+: glob)
include free apart

theorem agrees_last : Agrees [glob] := by
  intro path _
  have one : glob ≠ doubleStar := fun same => apart (same ▸ List.infix_refl _)
  show Covers (scan glob) path ↔ _
  rw [scan_eq_map apart, agreesWithin_of_not_mem free path]
  rcases Text.split_cases '/' path with ⟨clear, whole⟩ | ⟨segment, rest, _, cut, parts⟩
  · rw [whole, fitsSegments_cons one]
    simp [fitsSegments, clear]
  · rw [parts, fitsSegments_cons one]
    simp [fitsSegments, cut, Text.split_ne_nil]

theorem agrees_cons {globs : List Text} (more : globs ≠ []) (agrees : Agrees globs) :
    Agrees (glob :: globs) := by
  intro path normal
  have one : glob ≠ doubleStar := fun same => apart (same ▸ List.infix_refl _)
  rw [Text.join_cons more, scan_append_slash apart]
  rcases Text.split_cases '/' path with ⟨clear, whole⟩ | ⟨segment, rest, clear, cut, parts⟩
  · rw [whole, fitsSegments_cons one, fitsSegments_nil more]
    exact iff_of_false (not_covers_segment clear) (by simp)
  · have inner : Normal rest := normal.of_suffix (parts ▸ List.suffix_cons _ _)
    rw [parts, cut, fitsSegments_cons one, Bool.and_eq_true, covers_segment_iff free clear,
      agrees rest inner]

end OneSegment

theorem agrees_of_whole {globs : List Text} (nonempty : globs ≠ [])
    (free : ∀ glob ∈ globs, '/' ∉ glob)
    (whole : ∀ glob ∈ globs, doubleStar <:+: glob → glob = doubleStar) : Agrees globs := by
  induction globs with
  | nil => exact absurd rfl nonempty
  | cons glob globs ih =>
    have first : glob = doubleStar ∨ ¬ doubleStar <:+: glob := by
      by_cases within : doubleStar <:+: glob
      · exact .inl (whole glob List.mem_cons_self within)
      · exact .inr within
    have free_first := free glob List.mem_cons_self
    by_cases last : globs = []
    · subst last
      rcases first with rfl | apart
      · exact agrees_last_double_star
      · exact agrees_last free_first apart
    · have agrees := ih last (fun other member => free other (List.mem_cons_of_mem _ member))
        (fun other member => whole other (List.mem_cons_of_mem _ member))
      rcases first with rfl | apart
      · exact agrees_double_star last agrees
      · exact agrees_cons free_first apart last agrees

/-- Segment by segment, a compiled glob with whole segments accepts the same normal paths. -/
theorem accepts_eq_fitsSegments {glob : Text} {m : Matcher} (compiled : compile glob = .ok m)
    (whole : WholeSegments glob) {path : Text} (normal : Normal path) :
    m.accepts path = fitsSegments (Text.split '/' glob) (Text.split '/' path) := by
  have agrees : Agrees (Text.split '/' glob) :=
    agrees_of_whole (Text.split_ne_nil '/' glob)
      (fun _ member => Text.not_mem_of_mem_split member) whole
  have alike := agrees path normal
  rw [Text.join_split] at alike
  rw [Bool.eq_iff_iff, accepts_iff_covers compiled, alike]

theorem accepts_directories_between_segments :
    ∃ m, compile "a/**/b?/*".toList = .ok m ∧ WholeSegments "a/**/b?/*".toList ∧
      Normal "a/x/y/b1/c".toList ∧ m.accepts "a/x/y/b1/c".toList = true := by
  have compiled : compile "a/**/b?/*".toList = .ok ⟨_, _, rfl⟩ := rfl
  have whole : WholeSegments "a/**/b?/*".toList := by unfold WholeSegments; decide
  have normal : Normal "a/x/y/b1/c".toList := ⟨by decide, by decide, by decide⟩
  refine ⟨_, compiled, whole, normal, ?_⟩
  rw [accepts_eq_fitsSegments compiled whole normal]
  decide

end PathRules.Glob
