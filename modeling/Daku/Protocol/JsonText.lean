import Daku.Base.Decimal
import Daku.Protocol.Json

/-!
# Compact JSON

What `serde_json::to_string` writes for a value without floats whose strings have no control
characters, and a reader of that layout. Readers of payloads take the parser of the library as an
argument; what they may rely on is that it reads back what was written.
-/

namespace Daku.Protocol

open Daku.Base

namespace Value

mutual

/-- A value that is read back as it was written: no floats, and objects whose keys are in order. -/
def Plain : Value → Prop
  | .number (.negInt n) => n < 0
  | .number (.float _) => False
  | .array items => PlainItems items
  | .object fields => (fields.map Prod.fst).Pairwise (· < ·) ∧ PlainFields fields
  | _ => True

def PlainItems : List Value → Prop
  | [] => True
  | item :: items => Plain item ∧ PlainItems items

def PlainFields : List (String × Value) → Prop
  | [] => True
  | (_, value) :: fields => Plain value ∧ PlainFields fields

end

theorem plainItems_iff {items : List Value} : PlainItems items ↔ ∀ item ∈ items, item.Plain := by
  induction items with
  | nil => simp [PlainItems]
  | cons item items ih => simp [PlainItems, ih]

end Value

/-- The library reads back an object that it has written: the same fields, in an order of its
own. -/
def ReadsBack (fromStr : FromStr) (toText : Value → String) : Prop :=
  ∀ fields : List (String × Value), (fields.map Prod.fst).Nodup → Value.PlainFields fields →
    ∃ value, fromStr (toText (.object fields)) = some value ∧
      ∀ key, value.get key = (Value.object fields).get key

namespace JsonText

/-- A character inside a JSON string. -/
def escape (c : Char) : List Char := if c = '"' ∨ c = '\\' then ['\\', c] else [c]

/-- The rest of a JSON string after its first quote. -/
def closing (s : List Char) : List Char := s.flatMap escape ++ ['"']

/-- Read the rest of a JSON string. -/
def unquote : List Char → Option (List Char × List Char)
  | [] => none
  | '"' :: rest => some ([], rest)
  | '\\' :: c :: rest => (unquote rest).map fun (s, rest) ↦ (c :: s, rest)
  | c :: rest => (unquote rest).map fun (s, rest) ↦ (c :: s, rest)

/-- The characters that come next, and what follows them. -/
def expect : List Char → List Char → Option (List Char)
  | [], l => some l
  | _ :: _, [] => none
  | c :: cs, d :: l => if c = d then expect cs l else none

/-- Read a number. -/
def readNumber (l : List Char) : Option (ℕ × List Char) :=
  (digitsValue (l.takeWhile Char.isDigit)).map fun n ↦ (n, l.dropWhile Char.isDigit)

mutual

/-- A value; a float has no text here but `null`. -/
def print : Value → List Char
  | .null => ['n', 'u', 'l', 'l']
  | .bool true => ['t', 'r', 'u', 'e']
  | .bool false => ['f', 'a', 'l', 's', 'e']
  | .number (.posInt n) => Nat.toDigits 10 n
  | .number (.negInt n) => '-' :: Nat.toDigits 10 n.natAbs
  | .number (.float _) => ['n', 'u', 'l', 'l']
  | .string text => '"' :: closing text.toList
  | .array [] => ['[', ']']
  | .array (item :: items) => '[' :: (print item ++ printItems items)
  | .object [] => ['{', '}']
  | .object ((key, value) :: fields) =>
    '{' :: '"' :: (closing key.toList ++ ':' :: (print value ++ printFields fields))

/-- The items that follow one, with the last bracket. -/
def printItems : List Value → List Char
  | [] => [']']
  | item :: items => ',' :: (print item ++ printItems items)

/-- The fields that follow one, with the last brace. -/
def printFields : List (String × Value) → List Char
  | [] => ['}']
  | (key, value) :: fields =>
    ',' :: '"' :: (closing key.toList ++ ':' :: (print value ++ printFields fields))

end

mutual

/-- Read a value, with so much fuel. -/
def read : ℕ → List Char → Option (Value × List Char)
  | 0, _ => none
  | _ + 1, [] => none
  | fuel + 1, c :: l =>
    if c = '"' then (unquote l).map fun (text, l) ↦ (.string (String.ofList text), l)
    else if c = '[' then
      if l.head? = some ']' then some (.array [], l.tail)
      else (readItems fuel l).map fun (items, l) ↦ (.array items, l)
    else if c = '{' then
      if l.head? = some '}' then some (.object [], l.tail)
      else (readFields fuel l).map fun (fields, l) ↦ (.object fields, l)
    else if c = '-' then (readNumber l).map fun (n, l) ↦ (.number (.negInt (-n)), l)
    else if c = 'n' then (expect ['u', 'l', 'l'] l).map fun l ↦ (.null, l)
    else if c = 't' then (expect ['r', 'u', 'e'] l).map fun l ↦ (.bool true, l)
    else if c = 'f' then (expect ['a', 'l', 's', 'e'] l).map fun l ↦ (.bool false, l)
    else (readNumber (c :: l)).map fun (n, l) ↦ (.number (.posInt n), l)

/-- Read the items of an array that has some. -/
def readItems : ℕ → List Char → Option (List Value × List Char)
  | 0, _ => none
  | fuel + 1, l => do
    let (item, l) ← read fuel l
    match l with
    | ',' :: l => (readItems fuel l).map fun (items, l) ↦ (item :: items, l)
    | ']' :: l => some ([item], l)
    | _ => none

/-- Read the fields of an object that has some. -/
def readFields : ℕ → List Char → Option (List (String × Value) × List Char)
  | 0, _ => none
  | fuel + 1, l => do
    let l ← expect ['"'] l
    let (key, l) ← unquote l
    let l ← expect [':'] l
    let (value, l) ← read fuel l
    let field := (String.ofList key, value)
    match l with
    | ',' :: l => (readFields fuel l).map fun (fields, l) ↦ (field :: fields, l)
    | '}' :: l => some ([field], l)
    | _ => none

end

/-- `serde_json::to_string`. -/
def toText (value : Value) : String := String.ofList (print value)

/-- `serde_json::from_str`. -/
def fromStr : FromStr := fun text ↦
  match read text.length text.toList with
  | some (value, []) => some value
  | _ => none

theorem unquote_closing (s rest : List Char) : unquote (closing s ++ rest) = some (s, rest) := by
  rw [closing, List.append_assoc]
  induction s with
  | nil => rfl
  | cons c s ih =>
    rw [List.flatMap_cons, escape]
    split
    · show (unquote (s.flatMap escape ++ (['"'] ++ rest))).map _ = _
      rw [ih]
      rfl
    · next hc =>
      obtain ⟨hquote, hbackslash⟩ := not_or.mp hc
      show unquote (c :: (s.flatMap escape ++ (['"'] ++ rest))) = _
      rw [unquote.eq_4 c _ hquote (fun _ _ h _ ↦ hbackslash h), ih]
      rfl

theorem expect_append (cs rest : List Char) : expect cs (cs ++ rest) = some rest := by
  induction cs with
  | nil => rfl
  | cons c cs ih => rw [List.cons_append, expect, if_pos rfl, ih]

/-- Digits are read up to what is none. -/
theorem readNumber_append (n : ℕ) (rest : List Char) (hrest : ∀ c ∈ rest.head?, ¬ c.isDigit) :
    readNumber (Nat.toDigits 10 n ++ rest) = some (n, rest) := by
  have hdigits : ∀ c ∈ Nat.toDigits 10 n, c.isDigit = true := fun _ ↦ isDigit_of_mem_toDigits
  have hstop : rest.takeWhile Char.isDigit = [] ∧ rest.dropWhile Char.isDigit = rest := by
    cases rest with
    | nil => exact ⟨rfl, rfl⟩
    | cons c rest =>
      have hc := hrest c rfl
      exact ⟨List.takeWhile_cons_of_neg hc, List.dropWhile_cons_of_neg hc⟩
  rw [readNumber, List.takeWhile_append_of_pos hdigits, List.dropWhile_append_of_pos hdigits,
    hstop.1, hstop.2, List.append_nil, digitsValue_toDigits, Option.map_some]

/-- A number begins with a digit. -/
theorem exists_toDigits (n : ℕ) : ∃ c cs, Nat.toDigits 10 n = c :: cs ∧ c.isDigit = true := by
  cases hdigits : Nat.toDigits 10 n with
  | nil => exact absurd hdigits Nat.toDigits_ne_nil
  | cons c cs =>
    exact ⟨c, cs, rfl, isDigit_of_mem_toDigits (hdigits ▸ List.mem_cons_self)⟩

/-- A value begins with none of the closing brackets. -/
theorem head?_print (value : Value) :
    (print value).head?.any fun c ↦ c ≠ ']' ∧ c ≠ '}' := by
  cases value with
  | bool b => cases b <;> rfl
  | number n =>
    cases n with
    | posInt n =>
      obtain ⟨c, cs, hdigits, hc⟩ := exists_toDigits n
      rw [print, hdigits]
      show decide (c ≠ ']' ∧ c ≠ '}') = true
      refine decide_eq_true ⟨?_, ?_⟩ <;>
        rintro rfl <;> cases hc
    | negInt n => rfl
    | float q => rfl
  | array items => cases items <;> rfl
  | object fields => cases fields <;> rfl
  | _ => rfl

section RoundTrip

variable {fuel : ℕ} {rest : List Char}

/-- What stands after a value. -/
def Follows (rest : List Char) : Prop := ∀ c ∈ rest.head?, ¬ c.isDigit

theorem follows_cons {c : Char} (h : c.isDigit = false) (rest : List Char) :
    Follows (c :: rest) := by
  rintro _ ⟨⟩
  rw [h]
  exact Bool.false_ne_true

theorem read_number (n : ℕ) (hrest : Follows rest) :
    read (fuel + 1) (Nat.toDigits 10 n ++ rest) = some (.number (.posInt n), rest) := by
  obtain ⟨c, cs, hdigits, hc⟩ := exists_toDigits n
  have hne : ∀ d : Char, d.isDigit = false → c ≠ d := by
    rintro d hd rfl
    rw [hd] at hc
    cases hc
  have hnumber := readNumber_append n rest hrest
  rw [hdigits, List.cons_append] at hnumber ⊢
  rw [read, if_neg (hne _ rfl), if_neg (hne _ rfl), if_neg (hne _ rfl), if_neg (hne _ rfl),
    if_neg (hne _ rfl), if_neg (hne _ rfl), if_neg (hne _ rfl), hnumber]
  rfl

mutual

/-- A value is read back, and what follows it is left. -/
theorem read_print (value : Value) (h : value.Plain) (fuel : ℕ)
    (hfuel : (print value).length ≤ fuel) (rest : List Char) (hrest : Follows rest) :
    read fuel (print value ++ rest) = some (value, rest) := by
  cases fuel with
  | zero =>
    have hhead := head?_print value
    rw [List.length_eq_zero_iff.mp (Nat.le_zero.mp hfuel)] at hhead
    cases hhead
  | succ fuel =>
    match value, h with
    | .null, _ => rfl
    | .bool true, _ => rfl
    | .bool false, _ => rfl
    | .number (.posInt n), _ => exact read_number n hrest
    | .number (.negInt n), h =>
      show (readNumber (Nat.toDigits 10 n.natAbs ++ rest)).map _ = _
      rw [readNumber_append _ rest hrest, Option.map_some]
      have habs : -(n.natAbs : Int) = n := by
        have hneg : n < 0 := h
        omega
      simp only [habs]
    | .string text, _ =>
      show (unquote (closing text.toList ++ rest)).map _ = _
      rw [unquote_closing, Option.map_some]
      simp only [String.ofList_toList]
    | .array [], _ => rfl
    | .array (item :: items), h =>
      have hitems := readItems_print item items h.1 h.2 fuel (Nat.le_of_succ_le_succ hfuel) rest
      have hhead : (print item ++ printItems items ++ rest).head? ≠ some ']' := by
        have hbegin := head?_print item
        rw [List.append_assoc, List.head?_append]
        intro hclose
        cases hfirst : (print item).head? with
        | none =>
          rw [hfirst] at hbegin
          cases hbegin
        | some c =>
          rw [hfirst] at hbegin hclose
          cases Option.some.inj hclose
          cases hbegin
      show (if (print item ++ printItems items ++ rest).head? = some ']' then _
        else (readItems fuel (print item ++ printItems items ++ rest)).map _) = _
      rw [if_neg hhead, hitems]
      rfl
    | .object fields, h => exact read_object fields h.2 (fuel + 1) hfuel rest
termination_by 2 * fuel + 1

/-- So is an object, whatever the order of its keys. -/
theorem read_object (fields : List (String × Value)) (h : Value.PlainFields fields) (fuel : ℕ)
    (hfuel : (print (.object fields)).length ≤ fuel) (rest : List Char) :
    read fuel (print (.object fields) ++ rest) = some (.object fields, rest) := by
  match fuel, fields, h with
  | 0, [], _ => simp [print] at hfuel
  | 0, _ :: _, _ => simp [print] at hfuel
  | fuel + 1, [], _ => rfl
  | fuel + 1, (key, value) :: fields, h =>
    have hfields := readFields_print key value fields h.1 h.2 fuel
      (Nat.le_of_succ_le_succ hfuel) rest
    show (readFields fuel
      ('"' :: (closing key.toList ++ ':' :: (print value ++ printFields fields) ++ rest))).map _ = _
    rw [hfields]
    rfl
termination_by 2 * fuel

theorem readItems_print (item : Value) (items : List Value) (h : item.Plain)
    (hs : Value.PlainItems items) (fuel : ℕ) (hfuel : (print item ++ printItems items).length ≤ fuel)
    (rest : List Char) :
    readItems fuel (print item ++ printItems items ++ rest) = some (item :: items, rest) := by
  rw [List.length_append] at hfuel
  cases fuel with
  | zero => cases items <;> simp [printItems] at hfuel
  | succ fuel =>
    rw [List.append_assoc, readItems]
    match items, hs with
    | [], _ =>
      simp only [printItems, List.length_singleton] at hfuel
      have hread : read fuel (print item ++ (printItems [] ++ rest)) = some (item, ']' :: rest) :=
        read_print item h fuel (by omega) _ (follows_cons rfl rest)
      rw [hread]
      rfl
    | next :: items, hs =>
      simp only [printItems, List.length_cons] at hfuel
      have hread : read fuel (print item ++ (printItems (next :: items) ++ rest)) =
          some (item, ',' :: (print next ++ printItems items ++ rest)) :=
        read_print item h fuel (by omega) _ (follows_cons rfl _)
      rw [hread]
      show (readItems fuel (print next ++ printItems items ++ rest)).map _ = _
      rw [readItems_print next items hs.1 hs.2 fuel (by omega) rest]
      rfl
termination_by 2 * fuel

theorem readFields_print (key : String) (value : Value) (fields : List (String × Value))
    (h : value.Plain) (hs : Value.PlainFields fields) (fuel : ℕ)
    (hfuel : ('"' :: (closing key.toList ++ ':' :: (print value ++ printFields fields))).length ≤
      fuel) (rest : List Char) :
    readFields fuel
        ('"' :: (closing key.toList ++ ':' :: (print value ++ printFields fields) ++ rest)) =
      some ((key, value) :: fields, rest) := by
  simp only [List.length_append, List.length_cons] at hfuel
  cases fuel with
  | zero => omega
  | succ fuel =>
    rw [List.append_assoc, List.cons_append, List.append_assoc]
    show (unquote (closing key.toList ++ ':' :: (print value ++ (printFields fields ++ rest)))).bind
      _ = _
    rw [unquote_closing]
    show (read fuel (print value ++ (printFields fields ++ rest))).bind _ = _
    match fields, hs with
    | [], _ =>
      simp only [printFields, List.length_singleton] at hfuel
      have hread : read fuel (print value ++ (printFields [] ++ rest)) = some (value, '}' :: rest) :=
        read_print value h fuel (by omega) _ (follows_cons rfl rest)
      rw [hread]
      simp only [String.ofList_toList]
      rfl
    | (next, value') :: fields, hs =>
      simp only [printFields, List.length_cons, List.length_append] at hfuel
      have hread : read fuel (print value ++ (printFields ((next, value') :: fields) ++ rest)) =
          some (value, ',' :: '"' :: (closing next.toList ++
            ':' :: (print value' ++ printFields fields) ++ rest)) :=
        read_print value h fuel (by omega) _ (follows_cons rfl _)
      rw [hread]
      have hfields := readFields_print next value' fields hs.1 hs.2 fuel
        (by simp only [List.length_cons, List.length_append]; omega) rest
      show (readFields fuel ('"' :: (closing next.toList ++
        ':' :: (print value' ++ printFields fields) ++ rest))).map _ = _
      rw [hfields]
      simp only [String.ofList_toList]
      rfl
termination_by 2 * fuel

end

end RoundTrip

/-- What is written is read back. -/
theorem readsBack : ReadsBack fromStr toText := by
  intro fields _ hplain
  have hread := read_object fields hplain (print (.object fields)).length (Nat.le_refl _) []
  refine ⟨.object fields, ?_, fun _ ↦ rfl⟩
  rw [List.append_nil] at hread
  rw [fromStr, toText, ← String.length_toList, String.toList_ofList, hread]

end JsonText

end Daku.Protocol
