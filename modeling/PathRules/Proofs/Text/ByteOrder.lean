import PathRules.Text
import Mathlib.Data.Char
import Mathlib.Data.List.Lex

/-!
# Byte order of texts

Texts are compared by their code points. `bytes_lt_iff` shows that this is the order of their
bytes in UTF-8.
-/

namespace PathRules.Text

/-- The bytes of a text in UTF-8. -/
def bytes (text : Text) : List UInt8 := text.flatMap String.utf8EncodeChar

theorem encode_lt {c d : Char} (h : c < d) (u v : List UInt8) :
    String.utf8EncodeChar c ++ u < String.utf8EncodeChar d ++ v := by
  have less : c.val.toNat < d.val.toNat := h
  have bound : d.val.toNat < 1114112 := by
    rcases d.valid with low | high
    · have small := low; omega
    · exact high.2
  unfold String.utf8EncodeChar
  generalize c.val.toNat = m at less
  generalize d.val.toNat = n at less bound
  dsimp only
  repeat' split
  all_goals
    simp only [List.cons_append, List.nil_append, List.cons_lt_cons_iff, UInt8.lt_iff_toNat_lt,
      ← UInt8.toNat_inj, UInt8.toNat_ofNat']
    try omega
  -- Both take four bytes, and the first digit to the base 64 that differs decides.
  rcases Nat.lt_or_ge (m / 262144) (n / 262144) with first | same
  · exact .inl (by omega)
  refine .inr ⟨by omega, ?_⟩
  rcases Nat.lt_or_ge (m / 4096) (n / 4096) with second | same
  · exact .inl (by omega)
  exact .inr ⟨by omega, by omega⟩

theorem bytes_lt_of_lt {a b : Text} (h : a < b) : bytes a < bytes b := by
  induction a generalizing b with
  | nil =>
    cases b with
    | nil => exact absurd h (List.not_lt_nil _)
    | cons d b =>
      obtain ⟨first, others, encoded⟩ :=
        List.exists_cons_of_ne_nil (String.utf8EncodeChar_ne_nil (c := d))
      rw [bytes, bytes, List.flatMap_cons, encoded]
      exact List.nil_lt_cons _ _
  | cons c a ih =>
    cases b with
    | nil => exact absurd h (List.not_lt_nil _)
    | cons d b =>
      rw [bytes, bytes, List.flatMap_cons, List.flatMap_cons]
      rcases List.cons_lt_cons_iff.mp h with less | ⟨rfl, less⟩
      · exact encode_lt less _ _
      · exact List.append_left_lt (ih less)

theorem bytes_lt_iff {a b : Text} : bytes a < bytes b ↔ a < b := by
  constructor
  · intro h
    rcases lt_trichotomy a b with less | rfl | more
    · exact less
    · exact absurd h (List.lt_irrefl _)
    · exact absurd (List.lt_trans h (bytes_lt_of_lt more)) (List.lt_irrefl _)
  · exact bytes_lt_of_lt

/-- The texts stand in strict byte order. -/
abbrev Ascending (texts : List Text) : Prop := texts.Pairwise fun a b => bytes a < bytes b

namespace Ascending

theorem nodup {texts : List Text} (ascending : Ascending texts) : texts.Nodup := by
  refine List.Pairwise.imp ?_ ascending
  rintro a _ less rfl
  exact List.lt_irrefl _ less

/-- What is below a text stands before it. -/
theorem mem_before {before after : List Text} {text : Text}
    (ascending : Ascending (before ++ text :: after)) (other : Text) :
    other ∈ before ↔ other ∈ before ++ text :: after ∧ bytes other < bytes text := by
  obtain ⟨_, later, earlier⟩ := List.pairwise_append.mp ascending
  constructor
  · intro member
    exact ⟨List.mem_append_left _ member, earlier other member text List.mem_cons_self⟩
  · rintro ⟨member, less⟩
    rcases List.mem_append.mp member with member | member
    · exact member
    rcases List.mem_cons.mp member with rfl | member
    · exact absurd less (List.lt_irrefl _)
    · exact absurd less (List.lt_asymm ((List.pairwise_cons.mp later).1 other member))

theorem eq_of_mem_iff {texts others : List Text} (ascending : Ascending texts)
    (ascending_too : Ascending others) (same : ∀ text, text ∈ texts ↔ text ∈ others) :
    texts = others := by
  have perm := (List.perm_ext_iff_of_nodup ascending.nodup ascending_too.nodup).mpr same
  refine perm.eq_of_pairwise ?_ ascending ascending_too
  intro a b _ _ less more
  exact absurd more (List.lt_asymm less)

end Ascending

theorem le_iff {a b : Text} : le a b = true ↔ ¬ bytes b < bytes a := by
  rw [bytes_lt_iff]
  induction a generalizing b with
  | nil => simp [le]
  | cons c a ih =>
    cases b with
    | nil => simp [le]
    | cons d b =>
      rw [le, List.cons_lt_cons_iff, Bool.or_eq_true, Bool.and_eq_true, beq_iff_eq, ih,
        decide_eq_true_eq]
      rcases lt_trichotomy c d with less | rfl | more
      · simp [less, less.le, less.ne']
      · simp
      · simp [more, more.le, more.ne']

/-- Sorting texts that are all different puts them in strict byte order. -/
theorem pairwise_bytes_mergeSort {texts : List Text} (different : texts.Nodup) :
    Ascending (texts.mergeSort le) := by
  have ordered : (texts.mergeSort le).Pairwise fun a b => le a b = true := by
    apply List.pairwise_mergeSort
    · intro a b c ab bc
      rw [le_iff, bytes_lt_iff] at ab bc ⊢
      exact fun ca => bc (lt_of_lt_of_le ca (not_lt.mp ab))
    · intro a b
      rw [Bool.or_eq_true, le_iff, le_iff]
      by_cases less : bytes b < bytes a
      · exact .inr (List.lt_asymm less)
      · exact .inl less
  have sorted : (texts.mergeSort le).Nodup := (List.mergeSort_perm texts le).nodup_iff.mpr different
  apply (ordered.and sorted).imp
  rintro a b ⟨notAfter, ne⟩
  rw [le_iff, bytes_lt_iff] at notAfter
  rw [bytes_lt_iff]
  rcases lt_trichotomy a b with less | same | more
  · exact less
  · exact absurd same ne
  · exact absurd more notAfter

end PathRules.Text
