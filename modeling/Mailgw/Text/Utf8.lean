import Mathlib.Data.List.Basic

namespace Text

def replacement : Char := Char.ofNat 0xfffd

def tailByte (b : UInt8) : Bool := 0x80 ≤ b && b ≤ 0xbf

def leadOfThree (a b : UInt8) : Bool :=
  if a = 0xe0 then 0xa0 ≤ b && b ≤ 0xbf
  else if a = 0xed then 0x80 ≤ b && b ≤ 0x9f
  else 0xe1 ≤ a && a ≤ 0xef && tailByte b

def leadOfFour (a b : UInt8) : Bool :=
  if a = 0xf0 then 0x90 ≤ b && b ≤ 0xbf
  else if a = 0xf4 then 0x80 ≤ b && b ≤ 0x8f
  else 0xf1 ≤ a && a ≤ 0xf3 && tailByte b

def decodeRune : List UInt8 → Char × Nat
  | [] => (replacement, 0)
  | a :: rest =>
    if a < 0x80 then (Char.ofNat a.toNat, 1)
    else
      match rest with
      | [] => (replacement, 1)
      | b :: rest =>
        if 0xc2 ≤ a && a ≤ 0xdf && tailByte b then (Char.ofNat (a.toNat % 32 * 64 + b.toNat % 64), 2)
        else
          match rest with
          | [] => (replacement, 1)
          | c :: rest =>
            if leadOfThree a b && tailByte c then
              (Char.ofNat ((a.toNat % 16 * 64 + b.toNat % 64) * 64 + c.toNat % 64), 3)
            else
              match rest with
              | [] => (replacement, 1)
              | d :: _ =>
                if leadOfFour a b && tailByte c && tailByte d then
                  (Char.ofNat (((a.toNat % 8 * 64 + b.toNat % 64) * 64 + c.toNat % 64) * 64 + d.toNat % 64), 4)
                else (replacement, 1)

def runesFrom : Nat → List UInt8 → List Char
  | _, [] => []
  | skip + 1, _ :: rest => runesFrom skip rest
  | 0, a :: rest => (decodeRune (a :: rest)).1 :: runesFrom ((decodeRune (a :: rest)).2 - 1) rest

def runes (s : List UInt8) : List Char := runesFrom 0 s

example : runes ("Grüße €😀".toList.flatMap String.utf8EncodeChar ++ [0xff, 0xe2, 0x82]) =
    "Grüße €😀\ufffd\ufffd\ufffd".toList := by decide

section Encoding
variable {c d : Char} {b : UInt8}

theorem toNat_of_mem_utf8 (small : b.toNat < 128) (member : b ∈ String.utf8EncodeChar c) : c.toNat = b.toNat := by
  have high (n m : Nat) (most : n < m) (fits : 128 + m ≤ 256) (k : Nat) (least : 128 ≤ k) (bound : k + m ≤ 256) :
      b ≠ UInt8.ofNat (n + k) := by
    rintro rfl
    rw [UInt8.toNat_ofNat'] at small
    omega
  have value : c.val.toNat = c.toNat := rfl
  simp only [String.utf8EncodeChar, value] at member
  split at member
  · rw [List.mem_singleton] at member
    rw [member, UInt8.toNat_ofNat']
    omega
  · have six (n : Nat) : b ≠ UInt8.ofNat (n % 64 + 128) := high _ 64 (Nat.mod_lt _ (by decide)) (by decide) _ (by decide) (by decide)
    split at member
    · have lead (n : Nat) := high _ 32 (Nat.mod_lt n (by decide)) (by decide) 192 (by decide) (by decide)
      simp only [List.mem_cons, List.not_mem_nil, lead, six, or_self] at member
    · split at member
      · have lead (n : Nat) := high _ 16 (Nat.mod_lt n (by decide)) (by decide) 224 (by decide) (by decide)
        simp only [List.mem_cons, List.not_mem_nil, lead, six, or_self] at member
      · have lead (n : Nat) := high _ 8 (Nat.mod_lt n (by decide)) (by decide) 240 (by decide) (by decide)
        simp only [List.mem_cons, List.not_mem_nil, lead, six, or_self] at member

theorem eq_of_mem_utf8 (same : b.toNat = d.toNat) (small : b.toNat < 128) (member : b ∈ String.utf8EncodeChar c) : c = d :=
  Char.toNat_inj.mp ((toNat_of_mem_utf8 small member).trans same)

end Encoding

end Text
