import Mathlib.Data.List.Basic

namespace Json

abbrev Chars := List Char

def isNumeric (c : Char) : Bool := c.isDigit || c = '-' || c = '+' || c = '.' || c = 'e' || c = 'E'

def Stops (rest : Chars) : Prop := ∀ c ∈ rest.head?, isNumeric c = false

def escape (c : Char) : Chars :=
  if c = '"' then ['\\', '"']
  else if c = '\\' then ['\\', '\\']
  else if c.toNat = 8 then ['\\', 'b']
  else if c.toNat = 9 then ['\\', 't']
  else if c.toNat = 10 then ['\\', 'n']
  else if c.toNat = 12 then ['\\', 'f']
  else if c.toNat = 13 then ['\\', 'r']
  else if c.toNat < 32 then ['\\', 'u', '0', '0', Nat.digitChar (c.toNat / 16), Nat.digitChar (c.toNat % 16)]
  else [c]

def utf16 (c : Char) : List Nat :=
  if c.toNat < 0x10000 then [c.toNat]
  else [0xd800 + (c.toNat - 0x10000) / 0x400, 0xdc00 + (c.toNat - 0x10000) % 0x400]

def units (s : Chars) : List Nat := s.flatMap utf16

def fromUtf16 : List Nat → Option (Char × List Nat)
  | [] => none
  | u :: rest =>
    if 0xd800 ≤ u ∧ u < 0xdc00 then
      match rest with
      | [] => none
      | v :: rest => some (Char.ofNat (0x10000 + ((u - 0xd800) * 0x400 + (v - 0xdc00))), rest)
    else some (Char.ofNat u, rest)

theorem fromUtf16_utf16 (c : Char) (rest : List Nat) : fromUtf16 (utf16 c ++ rest) = some (c, rest) := by
  have valid : c.toNat < 0xd800 ∨ 0xdfff < c.toNat ∧ c.toNat < 0x110000 := c.valid
  unfold utf16
  split
  · have plain : ¬ (0xd800 ≤ c.toNat ∧ c.toNat < 0xdc00) := by omega
    simp only [List.cons_append, List.nil_append, fromUtf16, if_neg plain, Char.ofNat_toNat]
  · have surrogate : 0xd800 ≤ 0xd800 + (c.toNat - 0x10000) / 0x400 ∧
        0xd800 + (c.toNat - 0x10000) / 0x400 < 0xdc00 := by omega
    have whole : 0x10000 + ((0xd800 + (c.toNat - 0x10000) / 0x400 - 0xd800) * 0x400 +
        (0xdc00 + (c.toNat - 0x10000) % 0x400 - 0xdc00)) = c.toNat := by omega
    simp only [List.cons_append, List.nil_append, fromUtf16, if_pos surrogate, whole, Char.ofNat_toNat]

theorem units_injective : Function.Injective units := by
  have cons (c : Char) (s : Chars) : units (c :: s) = utf16 c ++ units s := rfl
  intro s t same
  induction s generalizing t with
  | nil =>
    cases t with
    | nil => rfl
    | cons d t =>
      have read := congrArg fromUtf16 same
      rw [cons, fromUtf16_utf16] at read
      cases read
  | cons c s ih =>
    cases t with
    | nil =>
      have read := congrArg fromUtf16 same
      rw [cons, fromUtf16_utf16] at read
      cases read
    | cons d t =>
      have read := congrArg fromUtf16 same
      rw [cons, cons, fromUtf16_utf16, fromUtf16_utf16] at read
      obtain ⟨rfl, rest⟩ := Prod.mk.inj (Option.some.inj read)
      rw [ih rest]

/-- A string of UTF-16 code units. Surrogates need not come in pairs. -/
abbrev Units := List UInt16

def charUnits (c : Char) : Units := (utf16 c).map UInt16.ofNat

def unitsOf (s : Chars) : Units := s.flatMap charUnits

theorem toNat_charUnits (c : Char) : (charUnits c).map UInt16.toNat = utf16 c := by
  have valid : c.toNat < 0xd800 ∨ 0xdfff < c.toNat ∧ c.toNat < 0x110000 := c.valid
  have back {n : Nat} (small : n < 0x10000) : (UInt16.ofNat n).toNat = n := UInt16.toNat_ofNat_of_lt' small
  unfold charUnits utf16
  split
  · rename_i small
    rw [List.map_singleton, List.map_singleton, back small]
  · rw [List.map_cons, List.map_singleton, List.map_cons, List.map_singleton, back (by omega), back (by omega)]

theorem toNat_unitsOf (s : Chars) : (unitsOf s).map UInt16.toNat = units s := by
  rw [unitsOf, List.map_flatMap, funext toNat_charUnits]
  rfl

theorem unitsOf_injective : Function.Injective unitsOf := by
  intro s t same
  apply units_injective
  rw [← toNat_unitsOf, same, toNat_unitsOf]

end Json
