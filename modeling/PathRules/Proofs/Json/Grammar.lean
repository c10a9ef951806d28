import PathRules.Report.Json

/-!
# Grammar of JSON

`Reads` says which value stands at the start of a text, and what is left of the text after it. A
text is read in one way at most (`Reads.unique`).
-/

namespace PathRules.Json

/-- A value of any kind. A number is kept as it is written. -/
inductive Value where
  | null
  | boolean (value : Bool)
  | number (written : Text)
  | string (text : Text)
  | array (items : List Value)
  | object (members : List (Text × Value))

/-! ### Blanks -/

def isSpace (c : Char) : Bool := c == ' ' || c == '\t' || c == '\n' || c == '\r'

/-- Blanks stand at the start of the text, and the rest follows them. -/
inductive Blanks : Text → Text → Prop where
  | none {rest : Text} : Blanks rest rest
  | more {c : Char} {s rest : Text} : isSpace c = true → Blanks s rest → Blanks (c :: s) rest

theorem Blanks.unique {s rest last : Text} (first : Blanks s rest) (second : Blanks s last)
    (ends : rest.head?.any isSpace = false) (ends_too : last.head?.any isSpace = false) :
    rest = last := by
  induction first with
  | none =>
    cases second with
    | none => rfl
    | more space _ => exact absurd ends (by simp [space])
  | more space _ ih =>
    cases second with
    | none => exact absurd ends_too (by simp [space])
    | more _ later => exact ih later ends

/-! ### Numbers -/

def IsDigits (s : Text) : Prop := s ≠ [] ∧ ∀ c ∈ s, Text.isDigit c = true

/-- An integer without superfluous zeros, and then perhaps a fraction and an exponent. -/
def IsNumber (s : Text) : Prop :=
  ∃ sign whole fraction exponent, s = sign ++ whole ++ fraction ++ exponent ∧
    (sign = [] ∨ sign = ['-']) ∧
    IsDigits whole ∧ (whole.head? = some '0' → whole = ['0']) ∧
    (fraction = [] ∨ ∃ digits, IsDigits digits ∧ fraction = '.' :: digits) ∧
    (exponent = [] ∨ ∃ mark sign digits, (mark = 'e' ∨ mark = 'E') ∧
      (sign = [] ∨ sign = ['+'] ∨ sign = ['-']) ∧ IsDigits digits ∧
      exponent = mark :: (sign ++ digits))

/-- The characters that stand in numbers. -/
def inNumber (c : Char) : Bool := Text.isDigit c || ['-', '+', '.', 'e', 'E'].contains c

theorem IsNumber.forall_inNumber {s : Text} (number : IsNumber s) : ∀ c ∈ s, inNumber c = true := by
  obtain ⟨sign, whole, fraction, exponent, rfl, signed, ⟨_, whole_digits⟩, _, fractional,
    exponential⟩ := number
  have digit {c : Char} (isDigit : Text.isDigit c = true) : inNumber c = true := by
    simp [inNumber, isDigit]
  have sign_all : ∀ c ∈ sign, inNumber c = true := by
    rcases signed with rfl | rfl <;> exact List.all_eq_true.mp rfl
  have fraction_all : ∀ c ∈ fraction, inNumber c = true := by
    rcases fractional with rfl | ⟨digits, ⟨_, all⟩, rfl⟩
    · simp
    · exact List.forall_mem_cons.mpr ⟨by decide, fun c member => digit (all c member)⟩
  have exponent_all : ∀ c ∈ exponent, inNumber c = true := by
    rcases exponential with rfl | ⟨mark, sign, digits, marked, signed, ⟨_, all⟩, rfl⟩
    · simp
    · have mark_in : inNumber mark = true := by rcases marked with rfl | rfl <;> decide
      have sign_in : ∀ c ∈ sign, inNumber c = true := by
        rcases signed with rfl | rfl | rfl <;> exact List.all_eq_true.mp rfl
      refine List.forall_mem_cons.mpr ⟨mark_in, List.forall_mem_append.mpr ⟨sign_in, ?_⟩⟩
      exact fun c member => digit (all c member)
  simp only [List.forall_mem_append]
  exact ⟨⟨⟨sign_all, fun c member => digit (whole_digits c member)⟩, fraction_all⟩, exponent_all⟩

theorem IsNumber.head {s : Text} (number : IsNumber s) :
    ∃ c t, s = c :: t ∧ (c = '-' ∨ Text.isDigit c = true) := by
  obtain ⟨sign, whole, fraction, exponent, rfl, signed, ⟨some_digits, all⟩, _⟩ := number
  obtain ⟨c, digits, rfl⟩ := List.exists_cons_of_ne_nil some_digits
  rcases signed with rfl | rfl
  · exact ⟨c, _, rfl, .inr (all c List.mem_cons_self)⟩
  · exact ⟨'-', _, rfl, .inl rfl⟩

theorem IsNumber.starts {written rest s : Text} {c : Char} (number : IsNumber written)
    (same : written ++ rest = c :: s) : c = '-' ∨ Text.isDigit c = true := by
  obtain ⟨d, t, rfl, first⟩ := number.head
  obtain ⟨rfl, _⟩ := List.cons.inj same
  exact first

theorem takeWhile_number {digits rest : Text} (number : IsNumber digits)
    (ends : rest.head?.any inNumber = false) : (digits ++ rest).takeWhile inNumber = digits := by
  have stopped : rest.takeWhile inNumber = [] := by
    cases rest with
    | nil => rfl
    | cons c rest => exact List.takeWhile_cons_of_neg (by simpa using ends)
  rw [List.takeWhile_append_of_pos number.forall_inNumber, stopped, List.append_nil]

/-! ### Strings -/

/-- What a character stands for after a backslash. -/
def escaped? : Char → Option Char
  | '"' => some '"'
  | '\\' => some '\\'
  | '/' => some '/'
  | 'b' => some '\x08'
  | 'f' => some '\x0c'
  | 'n' => some '\n'
  | 'r' => some '\r'
  | 't' => some '\t'
  | _ => none

def isUnescaped (c : Char) : Bool := c != '"' && c != '\\' && 0x20 ≤ c.toNat

/-- The number that hexadecimal digits write. -/
def unit? (digits : Text) : Option Nat :=
  if digits.all Text.isHexDigit then some (Text.ofDigits 16 digits) else none

/-- A character of a string stands at the start of the text, and the rest follows it. -/
inductive Character : Text → Char → Text → Prop where
  | plain {c : Char} {rest : Text} : isUnescaped c = true → Character (c :: rest) c rest
  | escaped {mark c : Char} {rest : Text} : escaped? mark = some c →
      Character ('\\' :: mark :: rest) c rest
  | unit {d₁ d₂ d₃ d₄ c : Char} {n : Nat} {rest : Text} :
      unit? [d₁, d₂, d₃, d₄] = some n → Text.scalar? n = some c →
      Character ('\\' :: 'u' :: d₁ :: d₂ :: d₃ :: d₄ :: rest) c rest
  | pair {d₁ d₂ d₃ d₄ e₁ e₂ e₃ e₄ c : Char} {high low : Nat} {rest : Text} :
      unit? [d₁, d₂, d₃, d₄] = some high → 0xD800 ≤ high → high < 0xDC00 →
      unit? [e₁, e₂, e₃, e₄] = some low → 0xDC00 ≤ low → low < 0xE000 →
      Text.scalar? (0x10000 + (high - 0xD800) * 0x400 + (low - 0xDC00)) = some c →
      Character ('\\' :: 'u' :: d₁ :: d₂ :: d₃ :: d₄ :: '\\' :: 'u' :: e₁ :: e₂ :: e₃ :: e₄ :: rest)
        c rest

/-- The characters of a string stand at the start of the text up to a quote, and the rest follows
the quote. -/
inductive Characters : Text → Text → Text → Prop where
  | closed {rest : Text} : Characters ('"' :: rest) [] rest
  | more {c : Char} {s t text rest : Text} : Character s c t → Characters t text rest →
      Characters s (c :: text) rest

theorem scalar?_surrogate {n : Nat} (low : 0xD800 ≤ n) (high : n < 0xE000) :
    Text.scalar? n = none := by
  unfold Text.scalar?
  rw [if_neg]
  unfold Nat.isValidChar
  omega

theorem Character.head {s rest : Text} {c : Char} (first : Character s c rest) :
    s.head? ≠ some '"' := by
  cases first with
  | plain unescaped =>
    intro same
    rw [Option.some.inj same] at unescaped
    cases unescaped
  | _ => simp

theorem Character.unique {s rest last : Text} {c d : Char} (first : Character s c rest)
    (second : Character s d last) : c = d ∧ rest = last := by
  cases first with
  | plain unescaped =>
    cases second with
    | plain => exact ⟨rfl, rfl⟩
    | _ => cases unescaped
  | escaped means =>
    cases second with
    | plain unescaped => cases unescaped
    | escaped means_too => exact ⟨Option.some.inj (means.symm.trans means_too), rfl⟩
    | _ => cases means
  | unit value scalar =>
    cases second with
    | plain unescaped => cases unescaped
    | escaped means => cases means
    | unit value_too scalar_too =>
      obtain rfl := Option.some.inj (value.symm.trans value_too)
      exact ⟨Option.some.inj (scalar.symm.trans scalar_too), rfl⟩
    | pair high above below =>
      obtain rfl := Option.some.inj (value.symm.trans high)
      rw [scalar?_surrogate above (by omega)] at scalar
      cases scalar
  | pair high above below low _ _ scalar =>
    cases second with
    | plain unescaped => cases unescaped
    | escaped means => cases means
    | unit value scalar_too =>
      obtain rfl := Option.some.inj (value.symm.trans high)
      rw [scalar?_surrogate above (by omega)] at scalar_too
      cases scalar_too
    | pair high_too _ _ low_too _ _ scalar_too =>
      obtain rfl := Option.some.inj (high.symm.trans high_too)
      obtain rfl := Option.some.inj (low.symm.trans low_too)
      exact ⟨Option.some.inj (scalar.symm.trans scalar_too), rfl⟩

theorem Characters.unique {s text other rest last : Text} (first : Characters s text rest)
    (second : Characters s other last) : text = other ∧ rest = last := by
  induction first generalizing other with
  | closed =>
    cases second with
    | closed => exact ⟨rfl, rfl⟩
    | more character _ => exact absurd rfl character.head
  | more character _ ih =>
    cases second with
    | closed => exact absurd rfl character.head
    | more character_too later =>
      obtain ⟨rfl, rfl⟩ := character.unique character_too
      obtain ⟨rfl, rfl⟩ := ih later
      exact ⟨rfl, rfl⟩

/-! ### Values -/

/-- What encloses the elements of a value. -/
inductive Bracket where
  | square
  | curly

namespace Bracket

def opening : Bracket → Char
  | .square => '['
  | .curly => '\x7b'

def closing : Bracket → Char
  | .square => ']'
  | .curly => '\x7d'

/-- The value of brackets around no element. -/
def hollow : Bracket → Value
  | .square => .array []
  | .curly => .object []

end Bracket

/-- The elements of a value, and then those of another one. -/
def Value.followedBy : Value → Value → Value
  | .array items, .array more => .array (items ++ more)
  | .object members, .object more => .object (members ++ more)
  | first, _ => first

inductive Phrase where
  | value
  | element (bracket : Bracket)
  | padded (bracket : Bracket)
  | elements (bracket : Bracket)

/-- The phrase stands at the start of the text, and the rest follows it. One or more elements are
read as a value that has just these elements. -/
inductive Reads : Phrase → Text → Value → Text → Prop where
  | null {rest : Text} : Reads .value ('n' :: 'u' :: 'l' :: 'l' :: rest) .null rest
  | isTrue {rest : Text} : Reads .value ('t' :: 'r' :: 'u' :: 'e' :: rest) (.boolean true) rest
  | isFalse {rest : Text} :
      Reads .value ('f' :: 'a' :: 'l' :: 's' :: 'e' :: rest) (.boolean false) rest
  | number {written rest : Text} : IsNumber written →
      Reads .value (written ++ rest) (.number written) rest
  | string {s text rest : Text} : Characters s text rest →
      Reads .value ('"' :: s) (.string text) rest
  | hollow (bracket : Bracket) {s rest : Text} : Blanks s (bracket.closing :: rest) →
      Reads .value (bracket.opening :: s) bracket.hollow rest
  | enclosed (bracket : Bracket) {s rest : Text} {v : Value} :
      Reads (.elements bracket) s v (bracket.closing :: rest) →
      Reads .value (bracket.opening :: s) v rest
  | item {s rest : Text} {v : Value} : Reads .value s v rest →
      Reads (.element .square) s (.array [v]) rest
  | member {s name t u w rest : Text} {v : Value} : Characters s name t → Blanks t (':' :: u) →
      Blanks u w → Reads .value w v rest →
      Reads (.element .curly) ('"' :: s) (.object [(name, v)]) rest
  | padded {bracket : Bracket} {s t u rest : Text} {v : Value} : Blanks s t →
      Reads (.element bracket) t v u → Blanks u rest → Reads (.padded bracket) s v rest
  | last {bracket : Bracket} {s rest : Text} {v : Value} : Reads (.padded bracket) s v rest →
      Reads (.elements bracket) s v rest
  | more {bracket : Bracket} {s t rest : Text} {v w : Value} :
      Reads (.padded bracket) s v (',' :: t) → Reads (.elements bracket) t w rest →
      Reads (.elements bracket) s (v.followedBy w) rest

/-! ### One way to read -/

/-- A value or an element may start with the character. -/
def Opens (c : Char) : Prop := c ∉ [' ', '\t', '\n', '\r', ',', ']', '\x7d']

theorem Opens.not_space {c : Char} (opens : Opens c) : isSpace c = false := by
  unfold Opens at opens
  simp_all [isSpace]

theorem not_opens_closing (bracket : Bracket) : ¬ Opens bracket.closing := by
  cases bracket <;> simp [Opens, Bracket.closing]

theorem opens_of_digit {c : Char} (digit : c = '-' ∨ Text.isDigit c = true) : Opens c := by
  unfold Opens
  intro member
  simp only [List.mem_cons, List.not_mem_nil, or_false] at member
  rcases member with rfl | rfl | rfl | rfl | rfl | rfl | rfl <;> exact absurd digit (by decide)

theorem Reads.head {s rest : Text} {v : Value} (read : Reads .value s v rest) :
    ∃ c t, s = c :: t ∧ Opens c := by
  cases read with
  | number number =>
    obtain ⟨c, t, rfl, first⟩ := number.head
    exact ⟨c, _, rfl, opens_of_digit first⟩
  | hollow bracket | enclosed bracket =>
    refine ⟨bracket.opening, _, rfl, ?_⟩
    cases bracket <;> simp [Opens, Bracket.opening]
  | _ => exact ⟨_, _, rfl, by unfold Opens; decide⟩

theorem Reads.head_element {bracket : Bracket} {s rest : Text} {v : Value}
    (read : Reads (.element bracket) s v rest) : ∃ c t, s = c :: t ∧ Opens c := by
  cases read with
  | item read => exact read.head
  | member => exact ⟨'"', _, rfl, by unfold Opens; decide⟩

theorem Reads.head_elements {bracket : Bracket} {s rest : Text} {v : Value}
    (read : Reads (.elements bracket) s v rest) : ∃ c t, Blanks s (c :: t) ∧ Opens c := by
  have padded {w : Value} {last : Text} (first : Reads (.padded bracket) s w last) :
      ∃ c t, Blanks s (c :: t) ∧ Opens c := by
    cases first with
    | padded before element _ =>
      obtain ⟨c, t, rfl, opens⟩ := element.head_element
      exact ⟨c, t, before, opens⟩
  cases read with
  | last first => exact padded first
  | more first _ => exact padded first

/-- What may follow a phrase for it to end there. -/
def Ends : Phrase → Text → Prop
  | .value, rest | .element _, rest => rest.head?.any inNumber = false
  | .padded bracket, rest => rest.head? = some ',' ∨ rest.head? = some bracket.closing
  | .elements bracket, rest => rest.head? = some bracket.closing

theorem Ends.not_space {bracket : Bracket} {rest : Text} (ends : Ends (.padded bracket) rest) :
    rest.head?.any isSpace = false := by
  rcases ends with comma | closing
  · rw [comma]
    rfl
  · rw [closing]
    cases bracket <;> rfl

theorem Ends.of_blanks {bracket : Bracket} {s rest : Text} (blanks : Blanks s rest)
    (ends : Ends (.padded bracket) rest) : Ends (.element bracket) s := by
  change s.head?.any inNumber = false
  cases blanks with
  | none =>
    rcases ends with comma | closing
    · rw [comma]
      rfl
    · rw [closing]
      cases bracket <;> rfl
  | @more c _ _ space _ =>
    simp only [isSpace, Bool.or_eq_true, beq_iff_eq] at space
    rcases space with ((rfl | rfl) | rfl) | rfl <;> rfl

theorem not_ends_comma (bracket : Bracket) (rest : Text) :
    ¬ Ends (.elements bracket) (',' :: rest) := by
  cases bracket <;> simp [Ends, Bracket.closing]

theorem Bracket.closing_not_space (bracket : Bracket) : isSpace bracket.closing = false := by
  cases bracket <;> rfl

theorem Reads.not_hollow {bracket : Bracket} {s rest last : Text} {v : Value}
    (elements : Reads (.elements bracket) s v rest) : ¬ Blanks s (bracket.closing :: last) := by
  intro blanks
  obtain ⟨c, t, before, opens⟩ := elements.head_elements
  have both := blanks.unique before bracket.closing_not_space opens.not_space
  rw [← (List.cons.inj both).1] at opens
  exact not_opens_closing bracket opens

theorem Bracket.opening_injective {a b : Bracket} (same : a.opening = b.opening) : a = b := by
  cases a <;> cases b <;> first | rfl | exact absurd same (by decide)

/-! The first character of a value tells its kind. -/

section

variable {s rest : Text} {v : Value}

theorem Reads.at_letter {c : Char} (letter : c ∈ ['n', 't', 'f'])
    (read : Reads .value (c :: s) v rest) :
    c = 'n' ∧ v = .null ∧ s = 'u' :: 'l' :: 'l' :: rest ∨
    c = 't' ∧ v = .boolean true ∧ s = 'r' :: 'u' :: 'e' :: rest ∨
    c = 'f' ∧ v = .boolean false ∧ s = 'a' :: 'l' :: 's' :: 'e' :: rest := by
  generalize whole : c :: s = text at read
  cases read with
  | number number =>
    have digit := number.starts whole.symm
    simp only [List.mem_cons, List.not_mem_nil, or_false] at letter
    rcases letter with rfl | rfl | rfl <;> exact absurd digit (by decide)
  | hollow bracket | enclosed bracket =>
    rw [(List.cons.inj whole).1] at letter
    cases bracket <;> exact absurd letter (by decide)
  | string =>
    rw [(List.cons.inj whole).1] at letter
    exact absurd letter (by decide)
  | null => exact .inl ⟨(List.cons.inj whole).1, rfl, (List.cons.inj whole).2⟩
  | isTrue => exact .inr (.inl ⟨(List.cons.inj whole).1, rfl, (List.cons.inj whole).2⟩)
  | isFalse => exact .inr (.inr ⟨(List.cons.inj whole).1, rfl, (List.cons.inj whole).2⟩)

theorem Reads.at_quote (read : Reads .value ('"' :: s) v rest) :
    ∃ text, v = .string text ∧ Characters s text rest := by
  generalize whole : '"' :: s = text at read
  cases read with
  | string characters =>
    obtain ⟨_, rfl⟩ := List.cons.inj whole
    exact ⟨_, rfl, characters⟩
  | number number => exact absurd (number.starts whole.symm) (by decide)
  | hollow bracket | enclosed bracket => cases bracket <;> simp [Bracket.opening] at whole
  | _ => simp at whole

theorem Reads.at_digit {c : Char} (digit : c = '-' ∨ Text.isDigit c = true)
    (read : Reads .value (c :: s) v rest) :
    ∃ written, v = .number written ∧ IsNumber written ∧ c :: s = written ++ rest := by
  generalize whole : c :: s = text at read
  cases read with
  | number number => exact ⟨_, rfl, number, rfl⟩
  | hollow bracket | enclosed bracket =>
    rw [(List.cons.inj whole).1] at digit
    cases bracket <;> exact absurd digit (by decide)
  | _ =>
    rw [(List.cons.inj whole).1] at digit
    exact absurd digit (by decide)

theorem Reads.at_opening {bracket : Bracket} (read : Reads .value (bracket.opening :: s) v rest) :
    v = bracket.hollow ∧ Blanks s (bracket.closing :: rest) ∨
    Reads (.elements bracket) s v (bracket.closing :: rest) := by
  generalize whole : bracket.opening :: s = text at read
  cases read with
  | hollow other blanks =>
    obtain ⟨opening, rfl⟩ := List.cons.inj whole
    obtain rfl := Bracket.opening_injective opening
    exact .inl ⟨rfl, blanks⟩
  | enclosed other elements =>
    obtain ⟨opening, rfl⟩ := List.cons.inj whole
    obtain rfl := Bracket.opening_injective opening
    exact .inr elements
  | number number => cases bracket <;> exact absurd (number.starts whole.symm) (by decide)
  | _ => cases bracket <;> simp [Bracket.opening] at whole

end

/-- A phrase is read in one way at most, if what follows it cannot belong to it. -/
theorem Reads.unique {phrase : Phrase} {s rest last : Text} {v w : Value}
    (first : Reads phrase s v rest) (second : Reads phrase s w last) (ends : Ends phrase rest)
    (ends_too : Ends phrase last) : v = w ∧ rest = last := by
  -- In a list of elements the character after an element tells whether another one follows.
  induction first generalizing w last with
  | null | isTrue | isFalse =>
    have word := second.at_letter (by decide)
    simp_all
  | string characters =>
    obtain ⟨text, rfl, characters_too⟩ := second.at_quote
    obtain ⟨rfl, rfl⟩ := characters.unique characters_too
    exact ⟨rfl, rfl⟩
  | @number _ rest number =>
    obtain ⟨c, t, rfl, digit⟩ := number.head
    obtain ⟨other, rfl, number_too, same⟩ := second.at_digit digit
    change c :: t ++ rest = other ++ last at same
    have both := congrArg (List.takeWhile inNumber) same
    rw [takeWhile_number number ends, takeWhile_number number_too ends_too] at both
    subst both
    exact ⟨rfl, List.append_cancel_left same⟩
  | hollow bracket blanks =>
    rcases second.at_opening with ⟨rfl, blanks_too⟩ | elements
    · have both := blanks.unique blanks_too bracket.closing_not_space bracket.closing_not_space
      exact ⟨rfl, (List.cons.inj both).2⟩
    · exact absurd blanks elements.not_hollow
  | enclosed bracket elements ih =>
    rcases second.at_opening with ⟨_, blanks⟩ | elements_too
    · exact absurd blanks elements.not_hollow
    · obtain ⟨rfl, both⟩ := ih elements_too rfl rfl
      exact ⟨rfl, (List.cons.inj both).2⟩
  | item _ ih =>
    cases second with
    | item value =>
      obtain ⟨rfl, rfl⟩ := ih value ends ends_too
      exact ⟨rfl, rfl⟩
  | member characters before after value ih =>
    cases second with
    | member characters_too before_too after_too value_too =>
      obtain ⟨rfl, rfl⟩ := characters.unique characters_too
      have colon := before.unique before_too rfl rfl
      obtain ⟨_, rfl⟩ := List.cons.inj colon
      obtain ⟨c, x, rfl, opens⟩ := value.head
      obtain ⟨d, y, rfl, opens_too⟩ := value_too.head
      have start := after.unique after_too opens.not_space opens_too.not_space
      rw [← start] at value_too
      obtain ⟨rfl, rfl⟩ := ih value_too ends ends_too
      exact ⟨rfl, rfl⟩
  | padded before element after ih =>
    cases second with
    | padded before_too element_too after_too =>
      obtain ⟨c, x, rfl, opens⟩ := element.head_element
      obtain ⟨d, y, rfl, opens_too⟩ := element_too.head_element
      have start := before.unique before_too opens.not_space opens_too.not_space
      rw [← start] at element_too
      obtain ⟨rfl, rfl⟩ := ih element_too (.of_blanks after ends) (.of_blanks after_too ends_too)
      exact ⟨rfl, after.unique after_too ends.not_space ends_too.not_space⟩
  | @last bracket _ _ _ _ ih =>
    cases second with
    | last element_too => exact ih element_too (.inr ends) (.inr ends_too)
    | more element_too _ =>
      obtain ⟨_, rfl⟩ := ih element_too (.inr ends) (.inl rfl)
      exact absurd ends (not_ends_comma bracket _)
  | @more bracket _ _ _ _ _ _ _ ih ih_later =>
    cases second with
    | last element_too =>
      obtain ⟨_, rfl⟩ := ih element_too (.inl rfl) (.inr ends_too)
      exact absurd ends_too (not_ends_comma bracket _)
    | more element_too later_too =>
      obtain ⟨rfl, comma⟩ := ih element_too (.inl rfl) (.inl rfl)
      obtain ⟨_, rfl⟩ := List.cons.inj comma
      obtain ⟨rfl, rfl⟩ := ih_later later_too ends ends_too
      exact ⟨rfl, rfl⟩

end PathRules.Json
