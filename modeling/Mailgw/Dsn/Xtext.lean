import Mailgw.Dsn.Lines

namespace Mailgw.Dsn

open Deliver Text

def PLUS : UInt8 := 43
def EQUALS : UInt8 := 61

def hexByte (n : Nat) : UInt8 := UInt8.ofNat (hexDigit n).toNat

def xtextBytes (s : Bytes) : Bytes :=
  s.flatMap fun c =>
    if c < 33 ∨ 126 < c ∨ c = PLUS ∨ c = EQUALS then [PLUS, hexByte (c.toNat / 16), hexByte (c.toNat % 16)] else [c]

def Xchar (b : UInt8) : Prop := 33 ≤ b ∧ b ≤ 126 ∧ b ≠ PLUS ∧ b ≠ EQUALS

instance (b : UInt8) : Decidable (Xchar b) := inferInstanceAs (Decidable (_ ∧ _))

def upperHex (b : UInt8) : Option Nat :=
  if 48 ≤ b ∧ b ≤ 57 then some (b.toNat - 48)
  else if 65 ≤ b ∧ b ≤ 70 then some (b.toNat - 55)
  else none

/-- The grammar of xtext: characters that stand for themselves, and a plus sign before two upper-case hexadecimal digits. -/
inductive Xtext : Bytes → Prop where
  | nil : Xtext []
  | xchar {b : UInt8} {rest : Bytes} : Xchar b → Xtext rest → Xtext (b :: rest)
  | hexchar {h l : UInt8} {rest : Bytes} : (upperHex h).isSome → (upperHex l).isSome → Xtext rest →
      Xtext (PLUS :: h :: l :: rest)

/-- The reader of xtext. Anything outside the grammar is an error. -/
def decodeXtext : Bytes → Option Bytes
  | [] => some []
  | b :: rest =>
    if b = PLUS then
      match rest with
      | h :: l :: rest =>
        match upperHex h, upperHex l with
        | some n, some m => (decodeXtext rest).map (UInt8.ofNat (16 * n + m) :: ·)
        | _, _ => none
      | _ => none
    else if Xchar b then (decodeXtext rest).map (b :: ·)
    else none

theorem upperHex_hexByte : ∀ n < 16, upperHex (hexByte n) = some n := by decide

section Xtext
variable {b c : UInt8} {s rest : Bytes}

theorem xchar_of_plain (plain : ¬ (c < 33 ∨ 126 < c ∨ c = PLUS ∨ c = EQUALS)) : Xchar c := by
  simp only [not_or, UInt8.not_lt] at plain
  exact plain

theorem decodeXtext_xchar (own : Xchar b) (rest : Bytes) : decodeXtext (b :: rest) = (decodeXtext rest).map (b :: ·) := by
  rw [decodeXtext.eq_def]
  dsimp only
  rw [if_neg own.2.2.1, if_pos own]

theorem decodeXtext_hexchar (c : UInt8) (rest : Bytes) :
    decodeXtext (PLUS :: hexByte (c.toNat / 16) :: hexByte (c.toNat % 16) :: rest) = (decodeXtext rest).map (c :: ·) := by
  have small := c.toNat_lt
  have halves : 16 * (c.toNat / 16) + c.toNat % 16 = c.toNat := by omega
  rw [decodeXtext, if_pos rfl, upperHex_hexByte _ (by omega), upperHex_hexByte _ (by omega)]
  simp only [halves, UInt8.ofNat_toNat]

theorem decodeXtext_byte (c : UInt8) (rest : Bytes) :
    decodeXtext (xtextBytes [c] ++ rest) = (decodeXtext rest).map (c :: ·) := by
  simp only [xtextBytes, List.flatMap_cons, List.flatMap_nil, List.append_nil]
  split
  · exact decodeXtext_hexchar c rest
  · rename_i plain
    exact decodeXtext_xchar (xchar_of_plain plain) rest

theorem xtextBytes_cons (c : UInt8) (s : Bytes) : xtextBytes (c :: s) = xtextBytes [c] ++ xtextBytes s := by
  simp [xtextBytes]

theorem decodeXtext_xtextBytes (s : Bytes) : decodeXtext (xtextBytes s) = some s := by
  induction s with
  | nil => rfl
  | cons c s ih => rw [xtextBytes_cons, decodeXtext_byte, ih, Option.map_some]

theorem xtext_byte (c : UInt8) (rest : Bytes) (later : Xtext rest) : Xtext (xtextBytes [c] ++ rest) := by
  have small := c.toNat_lt
  simp only [xtextBytes, List.flatMap_cons, List.flatMap_nil, List.append_nil]
  split
  · apply Xtext.hexchar _ _ later
    · rw [upperHex_hexByte _ (by omega), Option.isSome_some]
    · rw [upperHex_hexByte _ (by omega), Option.isSome_some]
  · rename_i plain
    exact .xchar (xchar_of_plain plain) later

theorem xtext_xtextBytes (s : Bytes) : Xtext (xtextBytes s) := by
  induction s with
  | nil => exact .nil
  | cons c s ih =>
    rw [xtextBytes_cons]
    exact xtext_byte c _ ih

theorem printable_of_upperHex (digit : (upperHex b).isSome) : 33 ≤ b ∧ b ≤ 126 ∧ b ≠ EQUALS := by
  simp only [upperHex, UInt8.le_iff_toNat_le] at digit
  have range : 48 ≤ b.toNat ∧ b.toNat ≤ 57 ∨ 65 ≤ b.toNat ∧ b.toNat ≤ 70 := by
    by_contra outside
    rw [not_or] at outside
    simp [outside] at digit
  refine ⟨UInt8.le_iff_toNat_le.mpr ?_, UInt8.le_iff_toNat_le.mpr ?_, fun same => ?_⟩
  · show 33 ≤ b.toNat
    omega
  · show b.toNat ≤ 126
    omega
  · rw [same] at range
    exact absurd range (by decide)

theorem Xtext.printable (x : Xtext s) : ∀ b ∈ s, 33 ≤ b ∧ b ≤ 126 ∧ b ≠ EQUALS := by
  induction x with
  | nil => simp
  | xchar own _ ih => exact List.forall_mem_cons.mpr ⟨⟨own.1, own.2.1, own.2.2.2⟩, ih⟩
  | hexchar high low _ ih =>
    simp only [List.forall_mem_cons]
    exact ⟨by decide, printable_of_upperHex high, printable_of_upperHex low, ih⟩

/-- The xtext of a string is read as that string, and nothing in it can end a field or its line. -/
theorem xtext_invertible (s : Bytes) :
    decodeXtext (xtextBytes s) = some s ∧ Xtext (xtextBytes s) ∧
      ∀ b ∈ xtextBytes s, 33 ≤ b ∧ b ≤ 126 ∧ b ≠ EQUALS ∧ b ≠ SP ∧ b ≠ CR ∧ b ≠ LF := by
  refine ⟨decodeXtext_xtextBytes s, xtext_xtextBytes s, fun b member => ?_⟩
  obtain ⟨low, high, other⟩ := (xtext_xtextBytes s).printable b member
  refine ⟨low, high, other, ?_, ?_, ?_⟩
  all_goals
    rintro rfl
    exact absurd low (by decide)

theorem xtext_of_byte : ∀ n < 256,
    encode (if Char.ofNat n < '!' ∨ '~' < Char.ofNat n ∨ Char.ofNat n = '+' ∨ Char.ofNat n = '=' then
        ['+', hexDigit (n / 16), hexDigit (n % 16)] else [Char.ofNat n]) = xtextBytes [UInt8.ofNat n] := by
  decide +kernel

theorem encode_xtext (s : Chars) : encode (xtext s) = xtextBytes (encode s) := by
  rw [xtext]
  generalize encode s = bytes
  induction bytes with
  | nil => rfl
  | cons b bytes ih =>
    rw [List.flatMap_cons, encode_append, ih, xtextBytes_cons]
    have here := xtext_of_byte b.toNat b.toNat_lt
    rw [UInt8.ofNat_toNat] at here
    rw [here]

end Xtext

end Mailgw.Dsn
