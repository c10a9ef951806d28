import PathRules.Text
import Mathlib.Data.List.Forall2

/-!
# Expressions

The dialect of regular expressions that globs are written in: its grammar (`Spells`) and what its
expressions match (`Matches`). A text spells one expression at most (`Spells.unique`).
-/

namespace PathRules.Glob

/-- What stands after an expression and tells how often it is matched. -/
inductive Mark where
  | star
  | plus
  | optional
  deriving DecidableEq, Repr

def Mark.sign : Mark → Char
  | .star => '*'
  | .plus => '+'
  | .optional => '?'

theorem Mark.sign_injective {a b : Mark} (same : a.sign = b.sign) : a = b := by
  cases a <;> cases b <;> first | rfl | exact absurd same (by decide)

inductive Expression where
  | start
  | stop
  | any
  | notSeparator
  | literal (c : Char)
  | group (body : Expression)
  | repeated (mark : Mark) (body : Expression)
  | empty
  | sequence (first rest : Expression)
  deriving DecidableEq, Repr

namespace Expression

/-- The expressions one after the other. -/
def concat (items : List Expression) : Expression := items.foldr sequence empty

/-! ### Grammar -/

/-- The characters that are no literals by themselves. -/
def reserved : List Char :=
  ['.', '+', '*', '?', '^', '$', '\x7b', '\x7d', '(', ')', '|', '\\', '[', ']']

def isPunctuation (c : Char) : Bool :=
  ('!' ≤ c && c ≤ '/') || (':' ≤ c && c ≤ '@') || ('[' ≤ c && c ≤ '\x60') ||
    ('\x7b' ≤ c && c ≤ '~')

inductive Phrase where
  | atom
  | item
  | sequence

/-- The text spells the expression. An item is an atom with at most one mark, and a sequence is any
number of items. -/
inductive Spells : Phrase → Text → Expression → Prop where
  | start : Spells .atom ['^'] .start
  | stop : Spells .atom ['$'] .stop
  | any : Spells .atom ['.'] .any
  | notSeparator : Spells .atom ['[', '^', '/', ']'] .notSeparator
  | escaped {c : Char} : isPunctuation c = true → Spells .atom ['\\', c] (.literal c)
  | plain {c : Char} : c ∉ reserved → Spells .atom [c] (.literal c)
  | group {text : Text} {body : Expression} : Spells .sequence text body →
      Spells .atom ('(' :: '?' :: ':' :: text ++ [')']) (.group body)
  | unmarked {text : Text} {body : Expression} : Spells .atom text body → Spells .item text body
  | marked {text : Text} {body : Expression} (mark : Mark) : Spells .atom text body →
      Spells .item (text ++ [mark.sign]) (.repeated mark body)
  | empty : Spells .sequence [] .empty
  | sequence {text later : Text} {first rest : Expression} : Spells .item text first →
      Spells .sequence later rest → Spells .sequence (text ++ later) (.sequence first rest)

/-- What may stand after a phrase for it to end there. -/
def Ends : Phrase → Text → Prop
  | .atom, _ => True
  | .item, rest => ∀ mark : Mark, rest.head? ≠ some mark.sign
  | .sequence, rest => rest = [] ∨ rest.head? = some ')'

theorem Spells.head {phrase : Phrase} {text : Text} {e : Expression}
    (spelled : Spells phrase text e) (shorter : phrase ≠ .sequence) :
    ∃ c rest, text = c :: rest ∧ c ≠ ')' ∧ ∀ mark : Mark, c ≠ mark.sign := by
  induction spelled with
  | @plain c free =>
    refine ⟨c, [], rfl, ?_, fun mark => ?_⟩
    · rintro rfl
      exact free (by decide)
    · rintro rfl
      exact free (by cases mark <;> decide)
  | unmarked _ ih => exact ih (by simp)
  | marked mark _ ih =>
    obtain ⟨c, rest, rfl, closing, signs⟩ := ih (by simp)
    exact ⟨c, rest ++ [mark.sign], rfl, closing, signs⟩
  | empty | sequence => exact absurd rfl shorter
  | _ => exact ⟨_, _, rfl, by decide, fun mark => by cases mark <;> decide⟩

theorem Spells.ends_item {text rest : Text} {e : Expression} (spelled : Spells .sequence text e)
    (ends : Ends .sequence rest) : Ends .item (text ++ rest) := by
  intro mark
  cases spelled with
  | empty =>
    rcases ends with rfl | closing
    · simp
    · rw [List.nil_append, closing]
      cases mark <;> decide
  | sequence first _ =>
    obtain ⟨c, others, rfl, _, signs⟩ := first.head (by simp)
    simpa using signs mark

theorem Spells.not_closed {text rest : Text} {e : Expression} (spelled : Spells .item text e) :
    ¬ Ends .sequence (text ++ rest) := by
  obtain ⟨c, others, rfl, closing, _⟩ := spelled.head (by simp)
  rintro (nothing | closed)
  · cases nothing
  · exact closing (Option.some.inj closed)

theorem ne_of_plain {c d : Char} {rest last : Text} (meaning : c ∈ reserved) (free : d ∉ reserved) :
    c :: rest ≠ [d] ++ last := by
  intro same
  exact free ((List.cons.inj same).1 ▸ meaning)

/-- A text with something after it spells one phrase at most, and in one place only. -/
theorem Spells.unique {phrase : Phrase} {s t rest last : Text} {e f : Expression}
    (first : Spells phrase s e) (second : Spells phrase t f) (ends : Ends phrase rest)
    (ends_too : Ends phrase last) (same : s ++ rest = t ++ last) : s = t ∧ e = f := by
  -- The first character tells atoms apart. Whether a mark or a further item belongs to the phrase
  -- is told by the character after it, and there `Ends` leaves one answer.
  induction first generalizing t f rest last with
  | start | stop | any | notSeparator | escaped =>
    cases second with
    | plain free => exact absurd same (ne_of_plain (by decide) free)
    | _ => simp_all
  | plain free =>
    cases second with
    | plain => simp_all
    | _ => exact absurd same.symm (ne_of_plain (by decide) free)
  | @group text body inner ih =>
    cases second with
    | @group other _ inner_too =>
      have bodies : text ++ ')' :: rest = other ++ ')' :: last := by simpa using same
      obtain ⟨rfl, rfl⟩ := ih inner_too (.inr rfl) (.inr rfl) bodies
      exact ⟨rfl, rfl⟩
    | plain free => exact absurd same (ne_of_plain (by decide) free)
    | _ => simp_all
  | @unmarked text body atom ih =>
    cases second with
    | unmarked atom_too => exact ih atom_too trivial trivial same
    | @marked other _ mark atom_too =>
      rw [List.append_assoc] at same
      obtain ⟨rfl, _⟩ := ih atom_too trivial trivial same
      have next := List.append_cancel_left same
      rw [next] at ends
      exact absurd rfl (ends mark)
  | @marked text body mark atom ih =>
    rw [List.append_assoc] at same
    cases second with
    | unmarked atom_too =>
      obtain ⟨rfl, _⟩ := ih atom_too trivial trivial same
      have next := List.append_cancel_left same
      rw [← next] at ends_too
      exact absurd rfl (ends_too mark)
    | @marked other _ mark_too atom_too =>
      rw [List.append_assoc] at same
      obtain ⟨rfl, rfl⟩ := ih atom_too trivial trivial same
      have signs := (List.cons.inj (List.append_cancel_left same)).1
      obtain rfl := Mark.sign_injective signs
      exact ⟨rfl, rfl⟩
  | empty =>
    cases second with
    | empty => exact ⟨rfl, rfl⟩
    | sequence item _ =>
      rw [List.nil_append, List.append_assoc] at same
      rw [same] at ends
      exact absurd ends item.not_closed
  | @sequence text later _ _ item items ih ih_items =>
    rw [List.append_assoc] at same
    cases second with
    | empty =>
      rw [List.nil_append] at same
      rw [← same] at ends_too
      exact absurd ends_too item.not_closed
    | sequence item_too items_too =>
      rw [List.append_assoc] at same
      obtain ⟨rfl, rfl⟩ := ih item_too (items.ends_item ends) (items_too.ends_item ends_too) same
      obtain ⟨rfl, rfl⟩ := ih_items items_too ends ends_too (List.append_cancel_left same)
      exact ⟨rfl, rfl⟩

/-- Items in a row spell a sequence. -/
theorem spells_concat {texts : List Text} {items : List Expression}
    (each : List.Forall₂ (Spells .item) texts items) :
    Spells .sequence texts.flatten (concat items) := by
  induction each with
  | nil => exact .empty
  | cons first _ ih => exact .sequence first ih

/-- A text can be cut into items in one way at most. -/
theorem items_unique {texts others : List Text} {items more : List Expression}
    (first : List.Forall₂ (Spells .item) texts items)
    (second : List.Forall₂ (Spells .item) others more) (same : texts.flatten = others.flatten) :
    texts = others ∧ items = more := by
  induction first generalizing others more with
  | nil =>
    cases second with
    | nil => exact ⟨rfl, rfl⟩
    | cons item _ =>
      have closed : Ends .sequence ([] : Text) := .inl rfl
      rw [List.flatten_nil, List.flatten_cons] at same
      rw [same] at closed
      exact absurd closed item.not_closed
  | cons item later ih =>
    have ends := (spells_concat later).ends_item (.inl rfl)
    rw [List.flatten_cons] at same
    cases second with
    | nil =>
      have closed : Ends .sequence ([] : Text) := .inl rfl
      rw [List.flatten_nil] at same
      rw [← same] at closed
      exact absurd closed item.not_closed
    | cons item_too later_too =>
      have ends_too := (spells_concat later_too).ends_item (.inl rfl)
      rw [List.append_nil] at ends ends_too
      rw [List.flatten_cons] at same
      obtain ⟨rfl, rfl⟩ := item.unique item_too ends ends_too same
      obtain ⟨rfl, rfl⟩ := ih later_too (List.append_cancel_left same)
      exact ⟨rfl, rfl⟩

/-! ### Matching -/

/-- The expression matches the piece that stands between the text before and the text after it. -/
inductive Matches : Expression → (before piece after : Text) → Prop where
  | start {after : Text} : Matches .start [] [] after
  | stop {before : Text} : Matches .stop before [] []
  | any {before after : Text} {c : Char} : c ≠ '\n' → Matches .any before [c] after
  | notSeparator {before after : Text} {c : Char} : c ≠ '/' →
      Matches .notSeparator before [c] after
  | literal {before after : Text} {c : Char} : Matches (.literal c) before [c] after
  | group {body : Expression} {before piece after : Text} : Matches body before piece after →
      Matches (.group body) before piece after
  | none {body : Expression} {before after : Text} :
      Matches (.repeated .optional body) before [] after
  | one {body : Expression} {before piece after : Text} : Matches body before piece after →
      Matches (.repeated .optional body) before piece after
  | stopped {body : Expression} {before after : Text} :
      Matches (.repeated .star body) before [] after
  | again {body : Expression} {before piece later after : Text} :
      Matches body before piece (later ++ after) →
      Matches (.repeated .star body) (before ++ piece) later after →
      Matches (.repeated .star body) before (piece ++ later) after
  | first {body : Expression} {before piece later after : Text} :
      Matches body before piece (later ++ after) →
      Matches (.repeated .star body) (before ++ piece) later after →
      Matches (.repeated .plus body) before (piece ++ later) after
  | empty {before after : Text} : Matches .empty before [] after
  | sequence {first rest : Expression} {before piece later after : Text} :
      Matches first before piece (later ++ after) → Matches rest (before ++ piece) later after →
      Matches (.sequence first rest) before (piece ++ later) after

/-- The expression matches somewhere in the path. -/
def Finds (e : Expression) (path : Text) : Prop :=
  ∃ before piece after, path = before ++ piece ++ after ∧ e.Matches before piece after

theorem matches_sequence_iff {first rest : Expression} {before whole after : Text} :
    (sequence first rest).Matches before whole after ↔
      ∃ piece later, whole = piece ++ later ∧ first.Matches before piece (later ++ after) ∧
        rest.Matches (before ++ piece) later after := by
  constructor
  · intro matched
    cases matched with
    | sequence head tail => exact ⟨_, _, rfl, head, tail⟩
  · rintro ⟨piece, later, rfl, head, tail⟩
    exact .sequence head tail

section OneCharacter

/-- The expression matches just one character of a class. -/
def Single (e : Expression) (p : Char → Prop) : Prop :=
  ∀ before piece after, e.Matches before piece after ↔ ∃ c, p c ∧ piece = [c]

theorem single_any : Single .any (· ≠ '\n') := by
  intro before piece after
  constructor
  · rintro ⟨⟩
    exact ⟨_, ‹_›, rfl⟩
  · rintro ⟨c, ne, rfl⟩
    exact .any ne

theorem single_notSeparator : Single .notSeparator (· ≠ '/') := by
  intro before piece after
  constructor
  · rintro ⟨⟩
    exact ⟨_, ‹_›, rfl⟩
  · rintro ⟨c, ne, rfl⟩
    exact .notSeparator ne

theorem single_literal (c : Char) : Single (.literal c) (· = c) := by
  intro before piece after
  constructor
  · rintro ⟨⟩
    exact ⟨c, rfl, rfl⟩
  · rintro ⟨_, rfl, rfl⟩
    exact .literal

variable {body : Expression} {p : Char → Prop} (single : body.Single p)
include single

theorem matches_star_iff {before piece after : Text} :
    (repeated .star body).Matches before piece after ↔ ∀ c ∈ piece, p c := by
  constructor
  · intro matched
    generalize whole : repeated .star body = e at matched
    induction matched with
    | stopped => simp
    | again head _ _ ih =>
      cases whole
      obtain ⟨c, fits, rfl⟩ := (single _ _ _).mp head
      simpa [fits] using ih rfl
    | _ => cases whole
  · intro fits
    induction piece generalizing before with
    | nil => exact .stopped
    | cons c piece ih =>
      have head : body.Matches before [c] (piece ++ after) :=
        (single _ _ _).mpr ⟨c, fits c List.mem_cons_self, rfl⟩
      exact .again head (ih fun d member => fits d (List.mem_cons_of_mem _ member))

theorem matches_plus_iff {before piece after : Text} :
    (repeated .plus body).Matches before piece after ↔ piece ≠ [] ∧ ∀ c ∈ piece, p c := by
  constructor
  · intro matched
    cases matched with
    | first head tail =>
      obtain ⟨c, fits, rfl⟩ := (single _ _ _).mp head
      have later := (matches_star_iff single).mp tail
      exact ⟨by simp, by simpa [fits] using later⟩
  · rintro ⟨nonempty, fits⟩
    cases piece with
    | nil => exact absurd rfl nonempty
    | cons c piece =>
      have head : body.Matches before [c] (piece ++ after) :=
        (single _ _ _).mpr ⟨c, fits c List.mem_cons_self, rfl⟩
      have tail : (repeated .star body).Matches (before ++ [c]) piece after :=
        (matches_star_iff single).mpr fun d member => fits d (List.mem_cons_of_mem _ member)
      exact .first head tail

end OneCharacter

end Expression
end PathRules.Glob
