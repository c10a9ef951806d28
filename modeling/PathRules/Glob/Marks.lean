import PathRules.Text

/-!
# Marked characters

The characters of a path that belong to a class are marked in a number: its bit `n` stands for
the character after `n` others. `testBit_marks` says so. The number is put together from ever
longer blocks of bits, so that a long path costs little more than its length.
-/

namespace PathRules.Glob

/-! ### Joining blocks -/

/-- The blocks of bits one after the other, each of one width, the lowest first. -/
def joined (width : Nat) : List Nat → Nat
  | [] => 0
  | block :: blocks => block ||| joined width blocks <<< width

def joinPairs (width : Nat) : List Nat → List Nat
  | a :: b :: blocks => (a ||| b <<< width) :: joinPairs width blocks
  | blocks => blocks

/-- The blocks joined in rounds, each of which halves their number. -/
def joinAll : (rounds width : Nat) → List Nat → Nat
  | 0, width, blocks => joined width blocks
  | rounds + 1, width, blocks => joinAll rounds (2 * width) (joinPairs width blocks)

theorem joined_joinPairs (width : Nat) (blocks : List Nat) :
    joined (2 * width) (joinPairs width blocks) = joined width blocks := by
  fun_induction joinPairs width blocks with
  | case1 a b blocks ih =>
    rw [joined, ih, joined, joined, Nat.shiftLeft_or_distrib, ← Nat.shiftLeft_add, Nat.or_assoc,
      Nat.two_mul]
  | case2 blocks short =>
    match blocks with
    | [] => rfl
    | [block] => simp [joined]
    | a :: b :: rest => exact absurd rfl (short a b rest)

theorem joinAll_eq_joined (rounds width : Nat) (blocks : List Nat) :
    joinAll rounds width blocks = joined width blocks := by
  induction rounds generalizing width blocks with
  | zero => rfl
  | succ rounds ih => rw [joinAll, ih, joined_joinPairs]

/-! ### Marks -/

def marks (p : Char → Bool) (path : Text) : Nat :=
  joinAll (path.length.log2 + 1) 1 (path.map fun c => (p c).toNat)

/-- A bit is set if there is such a character and it belongs to the class. -/
theorem testBit_marks (p : Char → Bool) (path : Text) (n : Nat) :
    (marks p path).testBit n = path[n]?.any p := by
  rw [marks, joinAll_eq_joined]
  induction path generalizing n with
  | nil => simp [joined]
  | cons c path ih =>
    rw [List.map_cons, joined, Nat.testBit_or, Nat.testBit_shiftLeft, Nat.testBit_bool_toNat]
    cases n with
    | zero => simp
    | succ n => simp [ih]

/-- The character after `before` is marked if it belongs to the class. -/
theorem testBit_marks_append (p : Char → Bool) (before : Text) (c : Char) (rest : Text) :
    (marks p (before ++ c :: rest)).testBit before.length = p c := by
  simp [testBit_marks]

end PathRules.Glob
