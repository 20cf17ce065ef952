import Daku.Base.Cuts

/-!
# Forms

The decoder of `application/x-www-form-urlencoded`: pieces between `&`, each cut at its first `=`,
with `+` for a space and `%` for a byte in hexadecimal. Any other character stands for its UTF-8.
-/

namespace Daku.Base

/-- Value of a hexadecimal digit. -/
def hexValue (c : Char) : Option Nat :=
  if c.isDigit then some (c.toNat - 48)
  else if 'A' ≤ c ∧ c ≤ 'F' then some (c.toNat - 55)
  else if 'a' ≤ c ∧ c ≤ 'f' then some (c.toNat - 87)
  else none

/-- The byte of two hexadecimal digits. -/
def hexByte (high low : Char) : Option UInt8 := do
  let high ← hexValue high
  let low ← hexValue low
  pure (UInt8.ofNat (16 * high + low))

/-- The bytes that a text stands for; a `%` without digits stands for itself. -/
def percentDecode : List Char → List UInt8
  | [] => []
  | c :: cs =>
    if c = '+' then 0x20 :: percentDecode cs
    else if c = '%' then
      match cs with
      | high :: low :: rest =>
        match hexByte high low with
        | some byte => byte :: percentDecode rest
        | none => 0x25 :: percentDecode (high :: low :: rest)
      | rest => 0x25 :: percentDecode rest
    else String.utf8EncodeChar c ++ percentDecode cs

/-- The text of a name or a value, if its bytes are UTF-8. -/
def decodeText (cs : List Char) : Option String :=
  String.fromUTF8? (percentDecode cs).toByteArray

/-- Names and values of a form, empty pieces left out. -/
def decodePairs (cs : List Char) : List (Option String × Option String) :=
  ((splitChars '&' cs).filter fun piece ↦ !piece.isEmpty).map fun piece ↦
    (decodeText (cutAt '=' piece).1, decodeText ((cutAt '=' piece).2.getD []))

/-- The pairs of a body. -/
def decodeForm (body : String) : List (Option String × Option String) := decodePairs body.toList

example : decodeForm "a=1%262&b=+%C3%A9" = [(some "a", some "1&2"), (some "b", some " é")] := by
  decide +kernel

section Decoding

variable {cs name value rest : List Char}

theorem percentDecode_escape {high low : Char} {byte : UInt8}
    (h : hexByte high low = some byte) :
    percentDecode ('%' :: high :: low :: cs) = byte :: percentDecode cs := by
  rw [percentDecode, if_neg (by decide), if_pos rfl, h]

theorem percentDecode_plain {c : Char} (hplus : c ≠ '+') (hpercent : c ≠ '%') :
    percentDecode (c :: cs) = String.utf8EncodeChar c ++ percentDecode cs := by
  rw [percentDecode.eq_def]
  dsimp only
  rw [if_neg hplus, if_neg hpercent]

/-- Bytes that are those of a text decode to it. -/
theorem decodeText_eq {s : String} (h : percentDecode cs = s.toByteArray.data.toList) :
    decodeText cs = some s := by
  have hbytes : (percentDecode cs).toByteArray = s.toByteArray := by
    apply ByteArray.ext
    apply Array.toList_inj.mp
    rw [List.toList_data_toByteArray, h]
  rw [decodeText, hbytes, String.fromUTF8?, dif_pos s.isValidUTF8]
  rfl

/-- A text with neither `+` nor `%` decodes to itself. -/
theorem decodeText_plain {s : String} (hplus : '+' ∉ s.toList) (hpercent : '%' ∉ s.toList) :
    decodeText s.toList = some s := by
  have hplain : ∀ cs : List Char, '+' ∉ cs → '%' ∉ cs →
      percentDecode cs = cs.flatMap String.utf8EncodeChar := by
    intro cs
    induction cs with
    | nil => exact fun _ _ ↦ rfl
    | cons c cs ih =>
      intro hplus hpercent
      rw [List.mem_cons, not_or] at hplus hpercent
      rw [percentDecode_plain (Ne.symm hplus.1) (Ne.symm hpercent.1), ih hplus.2 hpercent.2]
      rfl
  have hbytes : s.toByteArray = (s.toList.flatMap String.utf8EncodeChar).toByteArray := by
    rw [← List.utf8Encode, ← String.toByteArray_ofList, String.ofList_toList]
  apply decodeText_eq
  rw [hplain _ hplus hpercent, hbytes, List.toList_data_toByteArray]

/-- A piece with a name and a value. -/
private theorem decode_piece (hname : '=' ∉ name) :
    (decodeText (cutAt '=' (name ++ '=' :: value)).1,
        decodeText ((cutAt '=' (name ++ '=' :: value)).2.getD [])) =
      (decodeText name, decodeText value) := by
  have hcut := cutAt_append hname (some value)
  rw [follow] at hcut
  rw [hcut]
  rfl

theorem decodePairs_single (hname : '=' ∉ name) (hpiece : '&' ∉ name ++ '=' :: value) :
    decodePairs (name ++ '=' :: value) = [(decodeText name, decodeText value)] := by
  rw [decodePairs, splitChars_of_notMem hpiece, List.filter_cons_of_pos (by simp), List.filter_nil,
    List.map_cons, List.map_nil, decode_piece hname]

/-- Nothing that follows a piece changes what it decodes to. -/
theorem decodePairs_append (hname : '=' ∉ name) (hpiece : '&' ∉ name ++ '=' :: value) :
    decodePairs (name ++ '=' :: value ++ '&' :: rest) =
      (decodeText name, decodeText value) :: decodePairs rest := by
  rw [decodePairs, splitChars_append hpiece, List.filter_cons_of_pos (by simp), List.map_cons,
    decode_piece hname, decodePairs]

end Decoding

end Daku.Base
