/-!
# Text

Text is a list of code points, so that its laws are laws of lists. Trimming goes by the Unicode
property White_Space, and `join_split` says that cutting a text at a character loses nothing.
-/

namespace PathRules

/-- A text: its code points in order. -/
abbrev Text := List Char

namespace Text

/-! ### Blank characters -/

/-- The characters with the Unicode property White_Space. -/
def isBlank (c : Char) : Bool :=
  let n := c.toNat
  (0x9 ≤ n && n ≤ 0xD) || n == 0x20 || n == 0x85 || n == 0xA0 || n == 0x1680 ||
  (0x2000 ≤ n && n ≤ 0x200A) || n == 0x2028 || n == 0x2029 || n == 0x202F || n == 0x205F ||
  n == 0x3000

def trimStart (s : Text) : Text := s.dropWhile isBlank

def trimEnd (s : Text) : Text := (s.reverse.dropWhile isBlank).reverse

def trim (s : Text) : Text := trimEnd (trimStart s)

/-! ### Cutting at a character -/

/-- The maximal parts of a text that do not hold `c`, in order; the empty text has one part. -/
def split (c : Char) : Text → List Text
  | [] => [[]]
  | x :: s =>
    if x = c then [] :: split c s
    else match split c s with
      | [] => [[x]]
      | part :: parts => (x :: part) :: parts

def join (c : Char) : List Text → Text
  | [] => []
  | [part] => part
  | part :: parts => part ++ c :: join c parts

theorem split_ne_nil (c : Char) (s : Text) : split c s ≠ [] := by
  cases s with
  | nil => simp [split]
  | cons x s => unfold split; repeat' split
                all_goals simp

theorem join_cons {c : Char} {part : Text} {parts : List Text} (h : parts ≠ []) :
    join c (part :: parts) = part ++ c :: join c parts := by
  cases parts with
  | nil => exact absurd rfl h
  | cons => rfl

theorem join_split (c : Char) (s : Text) : join c (split c s) = s := by
  induction s with
  | nil => rfl
  | cons x s ih =>
    rw [split]
    split
    · next h => rw [join_cons (split_ne_nil c s), ih, h, List.nil_append]
    · split
      · next h => exact absurd h (split_ne_nil c s)
      · next part parts h =>
        rw [h] at ih
        cases parts with
        | nil => simp only [join] at ih ⊢; rw [ih]
        | cons => simp only [join, List.cons_append] at ih ⊢; rw [ih]

/-- The lines of a text: its parts between line feeds. -/
def lines (s : Text) : List Text := split '\n' s

/-! ### Bytes -/

def byteLength (s : Text) : Nat := s.foldl (fun n c => n + c.utf8Size) 0

theorem byteLength_append (s t : Text) :
    byteLength (s ++ t) = byteLength s + byteLength t := by
  have shift (start : Nat) : t.foldl (fun n c => n + c.utf8Size) start = start + byteLength t := by
    unfold byteLength
    induction t generalizing start with
    | nil => simp
    | cons c t ih =>
      rw [List.foldl_cons, List.foldl_cons, ih, ih (0 + c.utf8Size)]
      omega
  rw [byteLength, List.foldl_append, shift]
  rfl

theorem byteLength_cons (c : Char) (s : Text) :
    byteLength (c :: s) = c.utf8Size + byteLength s := by
  have first : byteLength [c] = c.utf8Size := by simp [byteLength]
  rw [← List.singleton_append, byteLength_append, first]

theorem byteLength_pos {s : Text} (something : s ≠ []) : 0 < byteLength s := by
  obtain ⟨c, rest, rfl⟩ := List.exists_cons_of_ne_nil something
  have size := c.utf8Size_pos
  rw [byteLength_cons]
  omega

/-- The text after so many bytes, unless they end within a character or there are fewer. -/
def dropBytes? : (count : Nat) → Text → Option Text
  | 0, s => some s
  | _ + 1, [] => none
  | count + 1, c :: s =>
    if c.utf8Size ≤ count + 1 then dropBytes? (count + 1 - c.utf8Size) s else none

/-- The first so many bytes of a text, unless they end within a character or there are fewer. -/
def takeBytes? : (count : Nat) → Text → Option Text
  | 0, _ => some []
  | _ + 1, [] => none
  | count + 1, c :: s =>
    if c.utf8Size ≤ count + 1 then (takeBytes? (count + 1 - c.utf8Size) s).map (c :: ·) else none

/-- The text that bytes encode, if they are UTF-8. -/
def ofUtf8? (bytes : ByteArray) : Option Text := (String.fromUTF8? bytes).map String.toList

/-! ### Wordings -/

/-- The text of a wording. It is not unfolded unasked, so that a wording stays as it is in a proof;
`of_eq` opens it. -/
@[irreducible] def of (wording : String) : Text := wording.toList

theorem of_eq (wording : String) : of wording = wording.toList := by
  unfold of
  rfl

/-! ### Digits -/

def isDigit (c : Char) : Bool := '0' ≤ c && c ≤ '9'

def isHexDigit (c : Char) : Bool :=
  isDigit c || ('a' ≤ c && c ≤ 'f') || ('A' ≤ c && c ≤ 'F')

def digitValue (c : Char) : Nat :=
  if isDigit c then c.toNat - '0'.toNat
  else if 'a' ≤ c && c ≤ 'f' then c.toNat - 'a'.toNat + 10
  else c.toNat - 'A'.toNat + 10

def ofDigits (base : Nat) (digits : Text) : Nat :=
  digits.foldl (fun n c => n * base + digitValue c) 0

/-- The number that digits write in a base. Digits are left out once it has reached a bound, and so
it stays short however many digits there are. -/
def ofDigitsUpTo (bound base : Nat) (digits : Text) : Nat :=
  digits.foldl (fun n c => if n < bound then n * base + digitValue c else n) 0

/-- The character of a number, unless it is a surrogate or too large. -/
def scalar? (n : Nat) : Option Char :=
  if n.isValidChar then some (Char.ofNat n) else none

def ofNat (n : Nat) : Text := Nat.toDigits 10 n

/-- The decimal digits of an integer, after a minus sign if it is negative. -/
def ofInt : Int → Text
  | .ofNat n => ofNat n
  | .negSucc n => '-' :: ofNat (n + 1)

def hexDigit (n : Nat) : Char :=
  if n < 10 then Char.ofNat ('0'.toNat + n) else Char.ofNat ('a'.toNat + (n - 10))

/-! ### Order -/

/-- Whether `a` comes before `b`, or is `b`, in the order of code points (which is that of UTF-8
bytes). -/
def le : (a b : Text) → Bool
  | [], _ => true
  | _ :: _, [] => false
  | c :: a, d :: b => c < d || (c == d && le a b)

end Text
end PathRules
