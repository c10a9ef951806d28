import PathRules.Proofs.Json.Grammar
import Mathlib.Data.List.Forall2

/-!
# Layout of JSON

A value that is laid out is read back, whatever follows it (`reads_render`).
-/

namespace PathRules.Json

/-! ### Values by the grammar -/

mutual

def toValue : Json → Value
  | .string text => .string text
  | .array items => .array (itemValues items)
  | .object fields => .object (fieldValues fields)

def itemValues : List Json → List Value
  | [] => []
  | item :: items => item.toValue :: itemValues items

def fieldValues : List (Text × Json) → List (Text × Value)
  | [] => []
  | (name, value) :: fields => (name, value.toValue) :: fieldValues fields

end

theorem itemValues_map {α : Type} (f : α → Json) (items : List α) :
    itemValues (items.map f) = items.map fun item => (f item).toValue := by
  induction items with
  | nil => rfl
  | cons item items ih => rw [List.map_cons, itemValues, ih, List.map_cons]

/-! ### Strings -/

theorem hexDigits_of_control :
    ∀ n < 0x20, unit? ['0', '0', Text.hexDigit (n / 16), Text.hexDigit (n % 16)] = some n := by
  decide

theorem scalar?_toNat (c : Char) : Text.scalar? c.toNat = some c := by
  have valid : c.toNat.isValidChar := c.valid
  unfold Text.scalar?
  rw [if_pos valid, Char.ofNat_toNat]

theorem character_escape (c : Char) (rest : Text) : Character (escape c ++ rest) c rest := by
  unfold escape
  split
  · next same => exact .escaped (by rw [same]; rfl)
  next notQuote =>
  split
  · next same => exact .escaped (by rw [same]; rfl)
  next notBackslash =>
  iterate 5
    split
    · next same => exact .escaped (by rw [same]; rfl)
  split
  · next control => exact .unit (hexDigits_of_control c.toNat control) (scalar?_toNat c)
  · next visible =>
    have large : 0x20 ≤ c.toNat := Nat.not_lt.mp visible
    exact .plain (by simp [isUnescaped, notQuote, notBackslash, large])

theorem characters_escape (text rest : Text) :
    Characters (text.flatMap escape ++ '"' :: rest) text rest := by
  induction text with
  | nil => exact .closed
  | cons c text ih =>
    rw [List.flatMap_cons, List.append_assoc]
    exact .more (character_escape c _) ih

theorem quote_append (text rest : Text) :
    quote text ++ rest = '"' :: (text.flatMap escape ++ '"' :: rest) := by
  simp [quote]

/-! ### Elements -/

theorem blanks_append {s : Text} (space : ∀ c ∈ s, isSpace c = true) (rest : Text) :
    Blanks (s ++ rest) rest := by
  induction s with
  | nil => exact .none
  | cons c s ih =>
    obtain ⟨first, later⟩ := List.forall_mem_cons.mp space
    exact .more first (ih later)

theorem blanks_lineBreak (level : Nat) (rest : Text) : Blanks (lineBreak level ++ rest) rest := by
  apply blanks_append
  intro c member
  unfold lineBreak at member
  rcases List.mem_cons.mp member with rfl | indent
  · rfl
  · rw [List.eq_of_mem_replicate indent]
    rfl

/-- The value that elements are read as together. -/
def Bracket.whole (bracket : Bracket) : List Value → Value
  | [] => bracket.hollow
  | [v] => v
  | v :: vs => v.followedBy (bracket.whole vs)

theorem whole_map {α : Type} {bracket : Bracket} {together : List α → Value}
    (hollow : bracket.hollow = together [])
    (more : ∀ first later, (together [first]).followedBy (together later) = together (first :: later))
    (elements : List α) :
    bracket.whole (elements.map fun element => together [element]) = together elements := by
  induction elements with
  | nil => exact hollow
  | cons first later ih =>
    cases later with
    | nil => rfl
    | cons second later =>
      rw [List.map_cons] at ih
      rw [List.map_cons, List.map_cons, Bracket.whole, ih, more]
      simp

theorem whole_items (items : List Value) :
    Bracket.square.whole (items.map fun v => .array [v]) = .array items :=
  whole_map rfl (fun _ _ => rfl) items

theorem whole_members (members : List (Text × Value)) :
    Bracket.curly.whole (members.map fun member => .object [member]) = .object members :=
  whole_map rfl (fun _ _ => rfl) members

/-- The part is read as the element, whatever follows it. -/
def Spells (bracket : Bracket) (part : Text) (v : Value) : Prop :=
  ∀ rest, Reads (.element bracket) (part ++ rest) v rest

theorem reads_elements {bracket : Bracket} (level : Nat) {part : Text} {parts : List Text}
    {v : Value} {vs : List Value}
    (first : Spells bracket part v) (later : List.Forall₂ (Spells bracket) parts vs) (rest : Text) :
    Reads (.elements bracket)
      (lineBreak (level + 1) ++ (part ++ ((parts.flatMap fun next =>
        ',' :: lineBreak (level + 1) ++ next) ++ (lineBreak level ++ bracket.closing :: rest))))
      (bracket.whole (v :: vs)) (bracket.closing :: rest) := by
  induction later generalizing part v with
  | nil => exact .last (.padded (blanks_lineBreak _ _) (first _) (blanks_lineBreak _ _))
  | @cons next w parts ws second _ ih =>
    rw [List.flatMap_cons, List.append_assoc, List.cons_append, List.cons_append,
      List.append_assoc]
    exact .more (.padded (blanks_lineBreak _ _) (first _) .none) (ih second)

theorem getLast?_bracketed (opening closing : Char) (level : Nat) (parts : List Text) :
    (bracketed opening closing level parts).getLast? = some closing := by
  cases parts with
  | nil => rfl
  | cons part parts => exact List.getLast?_concat

theorem reads_bracketed (bracket : Bracket) (level : Nat) {parts : List Text} {vs : List Value}
    (each : List.Forall₂ (Spells bracket) parts vs) (rest : Text) :
    Reads .value (bracketed bracket.opening bracket.closing level parts ++ rest)
      (bracket.whole vs) rest := by
  cases each with
  | nil => exact .hollow bracket .none
  | cons first later =>
    have read := Reads.enclosed bracket (reads_elements level first later rest)
    unfold bracketed
    simpa only [List.append_assoc, List.cons_append, List.nil_append] using read

/-! ### Values -/

mutual

theorem reads_render : ∀ (json : Json) (level : Nat) (rest : Text),
    Reads .value (json.render level ++ rest) json.toValue rest
  | .string text, level, rest => by
    rw [render, toValue, quote_append]
    exact .string (characters_escape text rest)
  | .array items, level, rest => by
    rw [render, toValue, ← whole_items]
    exact reads_bracketed .square level (spells_items items (level + 1)) rest
  | .object fields, level, rest => by
    rw [render, toValue, ← whole_members]
    exact reads_bracketed .curly level (spells_fields fields (level + 1)) rest

theorem spells_items : ∀ (items : List Json) (level : Nat),
    List.Forall₂ (Spells .square) (renderItems level items)
      ((itemValues items).map fun v => .array [v])
  | [], _ => .nil
  | item :: items, level =>
    .cons (fun rest => .item (reads_render item level rest)) (spells_items items level)

theorem spells_fields : ∀ (fields : List (Text × Json)) (level : Nat),
    List.Forall₂ (Spells .curly) (renderFields level fields)
      ((fieldValues fields).map fun member => .object [member])
  | [], _ => .nil
  | (name, value) :: fields, level => by
    refine .cons (fun rest => ?_) (spells_fields fields level)
    have colon : Blanks (' ' :: (value.render level ++ rest)) (value.render level ++ rest) :=
      .more rfl .none
    simp only [List.append_assoc]
    rw [quote_append]
    exact .member (characters_escape name _) .none colon (reads_render value level rest)

end

end PathRules.Json
