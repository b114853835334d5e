import Mailgw.Text.Utf8

namespace Text

def utf8 (s : List Char) : List UInt8 := s.flatMap String.utf8EncodeChar

/-- A byte that continues a character, at most this far from the lowest and from the highest one. -/
def continues (low high : Nat) (b : UInt8) : Bool := low ≤ b.toNat && b.toNat ≤ high

def secondBounds (a : UInt8) : Nat × Nat :=
  (if a.toNat = 0xe0 then 0xa0 else if a.toNat = 0xf0 then 0x90 else 0x80,
    if a.toNat = 0xed then 0x9f else if a.toNat = 0xf4 then 0x8f else 0xbf)

/-- The character some bytes begin with, and how many of them it takes up. Bytes that only begin one stand for
    a replacement character together. -/
def readRune : List UInt8 → Char × Nat
  | [] => (replacement, 0)
  | a :: rest =>
    if a.toNat < 0x80 then (Char.ofNat a.toNat, 1)
    else if a.toNat < 0xc2 ∨ 0xf4 < a.toNat then (replacement, 1)
    else
      match rest with
      | [] => (replacement, 1)
      | b :: rest =>
        if !continues (secondBounds a).1 (secondBounds a).2 b then (replacement, 1)
        else if a.toNat < 0xe0 then (Char.ofNat (a.toNat % 32 * 64 + b.toNat % 64), 2)
        else
          match rest with
          | [] => (replacement, 2)
          | c :: rest =>
            if !continues 0x80 0xbf c then (replacement, 2)
            else if a.toNat < 0xf0 then (Char.ofNat ((a.toNat % 16 * 64 + b.toNat % 64) * 64 + c.toNat % 64), 3)
            else
              match rest with
              | [] => (replacement, 3)
              | d :: _ =>
                if !continues 0x80 0xbf d then (replacement, 3)
                else (Char.ofNat (((a.toNat % 8 * 64 + b.toNat % 64) * 64 + c.toNat % 64) * 64 + d.toNat % 64), 4)

def textFrom : Nat → List UInt8 → List Char
  | _, [] => []
  | skip + 1, _ :: rest => textFrom skip rest
  | 0, a :: rest => (readRune (a :: rest)).1 :: textFrom ((readRune (a :: rest)).2 - 1) rest

def fromUtf8 (s : List UInt8) : List Char := textFrom 0 s

def base64Digit (n : Nat) : Char :=
  if n < 26 then Char.ofNat (65 + n)
  else if n < 52 then Char.ofNat (71 + n)
  else if n < 62 then Char.ofNat (n - 4)
  else if n = 62 then '+'
  else '/'

/-- What a digit stands for. The alphabet of URLs is read too. -/
def base64Value (c : Char) : Option Nat :=
  if 'A' ≤ c ∧ c ≤ 'Z' then some (c.toNat - 65)
  else if 'a' ≤ c ∧ c ≤ 'z' then some (c.toNat - 71)
  else if '0' ≤ c ∧ c ≤ '9' then some (c.toNat + 4)
  else if c = '+' ∨ c = '-' then some 62
  else if c = '/' ∨ c = '_' then some 63
  else none

def toBase64 : List UInt8 → List Char
  | [] => []
  | [a] => [base64Digit (a.toNat / 4), base64Digit (a.toNat % 4 * 16), '=', '=']
  | [a, b] =>
    [base64Digit (a.toNat / 4), base64Digit (a.toNat % 4 * 16 + b.toNat / 16), base64Digit (b.toNat % 16 * 4), '=']
  | a :: b :: c :: rest =>
    base64Digit (a.toNat / 4) :: base64Digit (a.toNat % 4 * 16 + b.toNat / 16) ::
      base64Digit (b.toNat % 16 * 4 + c.toNat / 64) :: base64Digit (c.toNat % 64) :: toBase64 rest

/-- The bytes of groups of six bits. Bits that make no byte are dropped. -/
def fromSextets : List Nat → List UInt8
  | x :: y :: z :: w :: rest =>
    UInt8.ofNat (x * 4 + y / 16) :: UInt8.ofNat (y % 16 * 16 + z / 4) :: UInt8.ofNat (z % 4 * 64 + w) :: fromSextets rest
  | [x, y, z] => [UInt8.ofNat (x * 4 + y / 16), UInt8.ofNat (y % 16 * 16 + z / 4)]
  | [x, y] => [UInt8.ofNat (x * 4 + y / 16)]
  | _ => []

def fromBase64 (s : List Char) : List UInt8 := fromSextets (s.filterMap base64Value)

theorem base64Value_digit : ∀ n < 64, base64Value (base64Digit n) = some n := by decide

section Base64
variable {a b c : UInt8}

theorem fromBase64_toBase64 (s : List UInt8) : fromBase64 (toBase64 s) = s := by
  rw [fromBase64]
  fun_induction toBase64 s with
  | case1 => rfl
  | case2 a =>
    have small := a.toNat_lt
    have pad : base64Value '=' = none := by decide
    rw [List.filterMap_cons_some (base64Value_digit _ (by omega)), List.filterMap_cons_some (base64Value_digit _ (by omega)),
      List.filterMap_cons_none pad, List.filterMap_cons_none pad, List.filterMap_nil, fromSextets]
    have first : a.toNat / 4 * 4 + a.toNat % 4 * 16 / 16 = a.toNat := by omega
    rw [first, UInt8.ofNat_toNat]
  | case3 a b =>
    have small := a.toNat_lt
    have small' := b.toNat_lt
    have pad : base64Value '=' = none := by decide
    rw [List.filterMap_cons_some (base64Value_digit _ (by omega)), List.filterMap_cons_some (base64Value_digit _ (by omega)),
      List.filterMap_cons_some (base64Value_digit _ (by omega)), List.filterMap_cons_none pad, List.filterMap_nil, fromSextets]
    have first : a.toNat / 4 * 4 + (a.toNat % 4 * 16 + b.toNat / 16) / 16 = a.toNat := by omega
    have next : (a.toNat % 4 * 16 + b.toNat / 16) % 16 * 16 + b.toNat % 16 * 4 / 4 = b.toNat := by omega
    rw [first, next, UInt8.ofNat_toNat, UInt8.ofNat_toNat]
  | case4 a b c rest ih =>
    have small := a.toNat_lt
    have small' := b.toNat_lt
    have small'' := c.toNat_lt
    rw [List.filterMap_cons_some (base64Value_digit _ (by omega)), List.filterMap_cons_some (base64Value_digit _ (by omega)),
      List.filterMap_cons_some (base64Value_digit _ (by omega)), List.filterMap_cons_some (base64Value_digit _ (by omega)),
      fromSextets, ih]
    have first : a.toNat / 4 * 4 + (a.toNat % 4 * 16 + b.toNat / 16) / 16 = a.toNat := by omega
    have next : (a.toNat % 4 * 16 + b.toNat / 16) % 16 * 16 + (b.toNat % 16 * 4 + c.toNat / 64) / 4 = b.toNat := by omega
    have last : (b.toNat % 16 * 4 + c.toNat / 64) % 4 * 64 + c.toNat % 64 = c.toNat := by omega
    rw [first, next, last, UInt8.ofNat_toNat, UInt8.ofNat_toNat, UInt8.ofNat_toNat]

end Base64

section Utf8
variable {c : Char} {rest : List UInt8}

theorem textFrom_append (skipped rest : List UInt8) : textFrom skipped.length (skipped ++ rest) = textFrom 0 rest := by
  induction skipped with
  | nil => rfl
  | cons b skipped ih => exact ih

theorem toNat_byte {n : Nat} (small : n < 256) : (UInt8.ofNat n).toNat = n := by
  rw [UInt8.toNat_ofNat']
  exact Nat.mod_eq_of_lt small

theorem continues_of_bounds {low high : Nat} {b : UInt8} (above : low ≤ b.toNat) (below : b.toNat ≤ high) :
    continues low high b = true := by
  simp [continues, above, below]

theorem continues_second {a b : UInt8} (tail : 0x80 ≤ b.toNat ∧ b.toNat ≤ 0xbf) (three : a.toNat = 0xe0 → 0xa0 ≤ b.toNat)
    (four : a.toNat = 0xf0 → 0x90 ≤ b.toNat) (surrogate : a.toNat = 0xed → b.toNat ≤ 0x9f)
    (last : a.toNat = 0xf4 → b.toNat ≤ 0x8f) : continues (secondBounds a).1 (secondBounds a).2 b = true := by
  apply continues_of_bounds
  · simp only [secondBounds]
    split
    · exact three ‹_›
    · split
      · exact four ‹_›
      · exact tail.1
  · simp only [secondBounds]
    split
    · exact surrogate ‹_›
    · split
      · exact last ‹_›
      · exact tail.2

theorem readRune_encoded (c : Char) (rest : List UInt8) :
    ∃ b more, String.utf8EncodeChar c = b :: more ∧ readRune (b :: more ++ rest) = (c, more.length + 1) := by
  have valid : c.toNat < 0xd800 ∨ 0xdfff < c.toNat ∧ c.toNat < 0x110000 := c.valid
  have whole : Char.ofNat c.toNat = c := Char.ofNat_toNat c
  have value : c.val.toNat = c.toNat := rfl
  unfold String.utf8EncodeChar
  simp only [value]
  by_cases one : c.toNat ≤ 0x7f
  · rw [if_pos one]
    refine ⟨_, [], rfl, ?_⟩
    have lead := toNat_byte (show c.toNat < 256 by omega)
    have small : c.toNat < 0x80 := by omega
    simp [readRune, lead, small, whole]
  · rw [if_neg one]
    by_cases two : c.toNat ≤ 0x7ff
    · rw [if_pos two]
      refine ⟨_, [_], rfl, ?_⟩
      have lead := toNat_byte (show c.toNat / 64 % 32 + 192 < 256 by omega)
      have second := toNat_byte (show c.toNat % 64 + 128 < 256 by omega)
      have inside : continues (secondBounds (UInt8.ofNat (c.toNat / 64 % 32 + 192))).1
          (secondBounds (UInt8.ofNat (c.toNat / 64 % 32 + 192))).2 (UInt8.ofNat (c.toNat % 64 + 128)) = true :=
        continues_second (by omega) (by omega) (by omega) (by omega) (by omega)
      have back : (c.toNat / 64 % 32 + 192) % 32 * 64 + (c.toNat % 64 + 128) % 64 = c.toNat := by omega
      simp only [List.cons_append, List.nil_append, readRune, inside, lead, second, back, whole]
      rw [if_neg (by omega), if_neg (by omega), if_neg (by decide), if_pos (by omega)]
      rfl
    · rw [if_neg two]
      by_cases three : c.toNat ≤ 0xffff
      · rw [if_pos three]
        refine ⟨_, [_, _], rfl, ?_⟩
        have lead := toNat_byte (show c.toNat / 4096 % 16 + 224 < 256 by omega)
        have second := toNat_byte (show c.toNat / 64 % 64 + 128 < 256 by omega)
        have third := toNat_byte (show c.toNat % 64 + 128 < 256 by omega)
        have inside : continues (secondBounds (UInt8.ofNat (c.toNat / 4096 % 16 + 224))).1
            (secondBounds (UInt8.ofNat (c.toNat / 4096 % 16 + 224))).2 (UInt8.ofNat (c.toNat / 64 % 64 + 128)) = true :=
          continues_second (by omega) (by omega) (by omega) (by omega) (by omega)
        have inside' : continues 0x80 0xbf (UInt8.ofNat (c.toNat % 64 + 128)) = true :=
          continues_of_bounds (by omega) (by omega)
        have back : ((c.toNat / 4096 % 16 + 224) % 16 * 64 + (c.toNat / 64 % 64 + 128) % 64) * 64 + (c.toNat % 64 + 128) % 64 =
            c.toNat := by omega
        simp only [List.cons_append, List.nil_append, readRune, inside, inside', lead, second, third, back, whole]
        rw [if_neg (by omega), if_neg (by omega), if_neg (by decide), if_neg (by omega), if_neg (by decide), if_pos (by omega)]
        rfl
      · rw [if_neg three]
        refine ⟨_, [_, _, _], rfl, ?_⟩
        have lead := toNat_byte (show c.toNat / 262144 % 8 + 240 < 256 by omega)
        have second := toNat_byte (show c.toNat / 4096 % 64 + 128 < 256 by omega)
        have third := toNat_byte (show c.toNat / 64 % 64 + 128 < 256 by omega)
        have fourth := toNat_byte (show c.toNat % 64 + 128 < 256 by omega)
        have inside : continues (secondBounds (UInt8.ofNat (c.toNat / 262144 % 8 + 240))).1
            (secondBounds (UInt8.ofNat (c.toNat / 262144 % 8 + 240))).2 (UInt8.ofNat (c.toNat / 4096 % 64 + 128)) = true :=
          continues_second (by omega) (by omega) (by omega) (by omega) (by omega)
        have inside' : continues 0x80 0xbf (UInt8.ofNat (c.toNat / 64 % 64 + 128)) = true :=
          continues_of_bounds (by omega) (by omega)
        have inside'' : continues 0x80 0xbf (UInt8.ofNat (c.toNat % 64 + 128)) = true :=
          continues_of_bounds (by omega) (by omega)
        have back : (((c.toNat / 262144 % 8 + 240) % 8 * 64 + (c.toNat / 4096 % 64 + 128) % 64) * 64 +
            (c.toNat / 64 % 64 + 128) % 64) * 64 + (c.toNat % 64 + 128) % 64 = c.toNat := by omega
        simp only [List.cons_append, List.nil_append, readRune, inside, inside', inside'', lead, second, third, fourth, back, whole]
        rw [if_neg (by omega), if_neg (by omega), if_neg (by decide), if_neg (by omega), if_neg (by decide), if_neg (by omega),
          if_neg (by decide)]
        rfl

theorem fromUtf8_utf8 (s : List Char) : fromUtf8 (utf8 s) = s := by
  rw [fromUtf8]
  induction s with
  | nil => rfl
  | cons c s ih =>
    obtain ⟨b, more, split, read⟩ := readRune_encoded c (utf8 s)
    have whole : utf8 (c :: s) = b :: (more ++ utf8 s) := by
      rw [utf8, List.flatMap_cons, split]
      rfl
    rw [List.cons_append] at read
    rw [whole, textFrom, read, Nat.add_sub_cancel, textFrom_append, ih]

end Utf8

end Text
