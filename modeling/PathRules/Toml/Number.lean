import PathRules.Toml.Reader
import PathRules.Toml.Value

/-!
# Numbers and dates of TOML

Integers have 64 bits. A float may not be so large that it would round to infinity, a negative
one apart. Dates are checked against the calendar.
-/

namespace PathRules.Toml

open Reader
open Text (isDigit isHexDigit ofDigits ofDigitsUpTo)

/-! ### Digits -/

def isOctalDigit (c : Char) : Bool := '0' ≤ c && c ≤ '7'

def isBinaryDigit (c : Char) : Bool := c == '0' || c == '1'

/-- More digits of a class, an underscore allowed before each. -/
def moreDigits (p : Char → Bool) : Reader Text :=
  many do
    let _ ← maybe (char '_')
    one p

/-- Digits of a class, an underscore allowed between any two. -/
def digits (p : Char → Bool) : Reader Text := do
  let first ← one p
  pure (first :: (← moreDigits p))

def digitCount : Nat → Reader Text
  | 0 => pure []
  | n + 1 => do
    let first ← one isDigit
    pure (first :: (← digitCount n))

/-- Decimal digits that start with a zero only if it is the only one. -/
def wholeDigits : Reader Text := do
  let first ← one isDigit
  if first == '0' then pure [first] else pure (first :: (← moreDigits isDigit))

/-- A sign, of which the answer is whether it is a minus. -/
def sign : Reader Bool := do
  match ← maybe (one fun c => c == '+' || c == '-') with
  | some c => pure (c == '-')
  | none => pure false

/-! ### Integers -/

/-- The numbers from here on have no place in 64 bits, whatever their sign. -/
def integerLimit : Nat := Nat.pow 2 64

def fits64 (n : Int) : Bool := -0x8000000000000000 ≤ n && n < 0x8000000000000000

def decimal : Reader Int := do
  let negative ← sign
  let n : Int := ofDigitsUpTo integerLimit 10 (← wholeDigits)
  pure (if negative then -n else n)

/-- An integer in another base, after the mark of the base. -/
def based (mark : Text) (base : Nat) (p : Char → Bool) : Reader Int := do
  word mark
  pure (ofDigitsUpTo integerLimit base (← digits p))

def integer : Reader Int :=
  check (either (based (Text.of "0x") 16 isHexDigit) (either (based (Text.of "0o") 8 isOctalDigit)
    (either (based (Text.of "0b") 2 isBinaryDigit) decimal))) fits64

/-! ### Floats -/

/-- The least number that rounds to infinity in the format of 64 bits. -/
def floatLimit : Nat := Nat.pow 2 1024 - Nat.pow 2 970

/-- The number of digits of `floatLimit`. -/
def limitLength : Nat := 309

/-- Whether the size of a float would round to infinity. How many digits stand in front of the point
decides, and the digits themselves if there are as many as in the limit. -/
def Decimal.isHuge (x : Decimal) : Bool :=
  let significant := x.digits.dropWhile (· == '0')
  let length : Int := significant.length + x.exponent
  if significant.isEmpty || length < limitLength then false
  else if limitLength < length then true
  else
    let whole := (significant ++ List.replicate limitLength '0').take limitLength
    floatLimit ≤ ofDigits 10 whole

def fraction : Reader Text := do
  char '.'
  digits isDigit

/-- An exponent of this size is not told from larger ones. -/
def exponentLimit : Nat := Nat.pow 2 16

def exponent : Reader Int := do
  let _ ← one fun c => c == 'e' || c == 'E'
  let negative ← sign
  let n : Int := ofDigitsUpTo exponentLimit 10 (← digits isDigit)
  pure (if negative then -n else n)

/-- A float in digits, with a fraction or an exponent or both. -/
def decimalFloat : Reader Decimal := do
  let negative ← sign
  let whole ← wholeDigits
  match ← maybe fraction with
  | some places =>
    let power ← maybe exponent
    pure ⟨negative, whole ++ places, power.getD 0 - places.length⟩
  | none =>
    let power ← exponent
    pure ⟨negative, whole, power⟩

/-- A float: one in digits, infinity, or what is no number. -/
def float : Reader FloatValue :=
  either (do pure (.decimal (← check decimalFloat fun x => x.negative || !x.isHuge))) do
    let negative ← sign
    either
      (do word (Text.of "inf")
          pure (.infinity negative))
      (do word (Text.of "nan")
          pure (.notANumber negative))

/-! ### Dates and times -/

def daysIn (year month : Nat) : Nat :=
  if month = 2 then
    if year % 4 = 0 ∧ (year % 100 ≠ 0 ∨ year % 400 = 0) then 29 else 28
  else if month = 4 ∨ month = 6 ∨ month = 9 ∨ month = 11 then 30
  else 31

def field (count low high : Nat) : Reader Nat :=
  check (do pure (ofDigits 10 (← digitCount count))) fun n => low ≤ n && n ≤ high

def date : Reader Date := do
  let year ← field 4 0 9999
  char '-'
  let month ← field 2 1 12
  char '-'
  let day ← field 2 1 (daysIn year month)
  pure { year, month, day }

/-- A time of the day, a leap second included. -/
def time : Reader Time := do
  let hour ← field 2 0 23
  char ':'
  let minute ← field 2 0 59
  char ':'
  let second ← field 2 0 60
  let fraction ← maybe do
    char '.'
    check (span isDigit) (!·.isEmpty)
  pure { hour, minute, second, fraction := fraction.getD [] }

def offset : Reader Offset :=
  either
    (do let _ ← one fun c => c == 'Z' || c == 'z'
        pure .universal)
    (do let negative ← one fun c => c == '+' || c == '-'
        let hour ← field 2 0 23
        char ':'
        let minute ← field 2 0 59
        pure (if negative == '-' then .behind hour minute else .ahead hour minute))

/-- A date, a time, or both, a distance from universal time only with both. -/
def datetime : Reader Datetime :=
  either
    (do let date ← date
        let time ← maybe do
          let _ ← one fun c => c == 'T' || c == 't' || c == ' '
          let time ← time
          pure (time, ← maybe offset)
        pure (match time with
          | none => .date date
          | some (time, offset) => .both date time offset))
    (do pure (.time (← time)))

/-- The date or time that a text writes, and nothing else. -/
def datetime? (text : Text) : Option Datetime :=
  ((do
    let value ← datetime
    atEnd
    pure value : Reader Datetime) text).map Prod.fst

end PathRules.Toml
