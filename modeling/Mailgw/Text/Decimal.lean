import Mathlib.Data.Char
import Mathlib.Data.List.Lex
import Mathlib.Data.Nat.Digits.Defs

namespace Text

instance memDecidable (s : List Char) (texts : List (List Char)) : Decidable (s ∈ texts) :=
  List.instDecidableMemOfLawfulBEq s texts

/-- Decimal digits left-padded with zeros, as a fixed-width format verb prints them. -/
def padDecimal (width n : Nat) : List Char :=
  List.replicate (width - (Nat.toDigits 10 n).length) '0' ++ Nat.toDigits 10 n

/-- An unsigned decimal numeral: at least one character, nothing but digits. -/
def parseDigits (s : List Char) : Option Nat :=
  if s ≠ [] ∧ s.all Char.isDigit then some (Nat.ofDigitChars 10 s 0) else none

/-- A signed 64-bit decimal integer; anything outside the range is an error. -/
def parseInt64 (s : List Char) : Option Int :=
  let signed : Option Int := match s with
    | '-' :: ds => (parseDigits ds).map fun n => -(n : Int)
    | '+' :: ds => (parseDigits ds).map Int.ofNat
    | ds => (parseDigits ds).map Int.ofNat
  signed.filter fun i => -2 ^ 63 ≤ i ∧ i < 2 ^ 63

theorem isDigit_of_mem_padDecimal {width n : Nat} {c : Char} (member : c ∈ padDecimal width n) :
    c.isDigit = true := by
  rcases List.mem_append.mp member with zero | digit
  · rw [List.eq_of_mem_replicate zero]
    decide
  · exact Nat.isDigit_of_mem_toDigits (by decide) (by decide) digit

theorem length_padDecimal {width n : Nat} (positive : 0 < width) (fits : n < 10 ^ width) :
    (padDecimal width n).length = width := by
  have short := Nat.toDigits_length 10 n width positive fits
  simp only [padDecimal, List.length_append, List.length_replicate]
  omega

theorem padDecimal_ne_nil (width n : Nat) : padDecimal width n ≠ [] := by
  simp [padDecimal, Nat.toDigits_ne_nil]

@[simp] theorem ofDigitChars_padDecimal (width n : Nat) :
    Nat.ofDigitChars 10 (padDecimal width n) 0 = n := by
  simp [padDecimal, Nat.ofDigitChars_append]

@[simp] theorem parseDigits_padDecimal (width n : Nat) : parseDigits (padDecimal width n) = some n := by
  have digits : (padDecimal width n).all Char.isDigit = true :=
    List.all_eq_true.mpr fun _ member => isDigit_of_mem_padDecimal member
  simp [parseDigits, padDecimal_ne_nil, digits]

@[simp] theorem padDecimal_zero (n : Nat) : padDecimal 0 n = Nat.toDigits 10 n := by
  simp [padDecimal]

/-- A numeral never starts with a sign, so the signed parser reads it as it stands. -/
theorem parseInt64_of_digits {s : List Char} {n : Nat} (read : parseDigits s = some n)
    (range : n < 2 ^ 63) : parseInt64 s = some (n : Int) := by
  unfold parseInt64
  split
  · rename_i ds
    simp [parseDigits, show Char.isDigit '-' = false from rfl] at read
  · rename_i ds
    simp [parseDigits, show Char.isDigit '+' = false from rfl] at read
  · rw [read]
    simp only [Option.map_some, Option.filter]
    simp
    omega

theorem parseInt64_padDecimal (width n : Nat) (range : n < 2 ^ 63) :
    parseInt64 (padDecimal width n) = some (n : Int) :=
  parseInt64_of_digits (parseDigits_padDecimal width n) range

theorem padDecimal_injective {width m n : Nat} (same : padDecimal width m = padDecimal width n) :
    m = n := by
  have numbers := congrArg parseDigits same
  simpa using numbers

section Lex
variable {α : Type} [LinearOrder α] {s t x y : List α}

theorem append_lt_append (lower : s < t) (width : s.length = t.length) (x y : List α) : s ++ x < t ++ y := by
  induction s generalizing t with
  | nil =>
    rw [List.length_nil] at width
    rw [List.length_eq_zero_iff.mp width.symm] at lower
    exact absurd lower (lt_irrefl _)
  | cons c s ih =>
    cases t with
    | nil => cases width
    | cons d t =>
      rw [List.cons_append, List.cons_append, List.cons_lt_cons_iff]
      rcases List.cons_lt_cons_iff.mp lower with apart | ⟨same, later⟩
      · exact .inl apart
      · exact .inr ⟨same, ih later (Nat.succ.inj width)⟩

theorem le_of_append_le (order : s ++ x ≤ t ++ y) (width : s.length = t.length) : s ≤ t := by
  by_contra above
  exact absurd order (not_le.mpr (append_lt_append (not_le.mp above) width.symm y x))

end Lex

theorem ofDigitChars_lt {s : List Char} (digits : ∀ c ∈ s, c.isDigit = true) : Nat.ofDigitChars 10 s 0 < 10 ^ s.length := by
  induction s with
  | nil => decide
  | cons c s ih =>
    have digit : c.toNat - 48 ≤ 9 := by
      have bounds := digits c List.mem_cons_self
      simp only [Char.isDigit, Bool.and_eq_true, decide_eq_true_eq] at bounds
      have high : c.toNat ≤ 57 := bounds.2
      omega
    have rest := ih fun d member => digits d (List.mem_cons_of_mem c member)
    rw [Nat.ofDigitChars_cons, Nat.ofDigitChars_eq_ofDigitChars_zero, List.length_cons, Nat.pow_succ]
    have zero : '0'.toNat = 48 := rfl
    have step : 10 ^ s.length * (10 * 0 + (c.toNat - '0'.toNat)) ≤ 10 ^ s.length * 9 :=
      Nat.mul_le_mul_left _ (by omega)
    omega

theorem ofDigitChars_le {s t : List Char} (digits : ∀ c ∈ s, c.isDigit = true) (digits' : ∀ c ∈ t, c.isDigit = true)
    (width : s.length = t.length) (order : s ≤ t) : Nat.ofDigitChars 10 s 0 ≤ Nat.ofDigitChars 10 t 0 := by
  induction s generalizing t with
  | nil => exact Nat.zero_le _
  | cons c s ih =>
    cases t with
    | nil => cases width
    | cons d t =>
      have width' := Nat.succ.inj width
      have rest : ∀ e ∈ s, e.isDigit = true := fun e member => digits e (List.mem_cons_of_mem c member)
      have rest' : ∀ e ∈ t, e.isDigit = true := fun e member => digits' e (List.mem_cons_of_mem d member)
      have bounds := ofDigitChars_lt rest
      have low : 48 ≤ c.toNat := by
        have here := digits c List.mem_cons_self
        simp only [Char.isDigit, Bool.and_eq_true, decide_eq_true_eq] at here
        exact here.1
      have zero : '0'.toNat = 48 := rfl
      rw [Nat.ofDigitChars_cons, Nat.ofDigitChars_cons, Nat.ofDigitChars_eq_ofDigitChars_zero,
        Nat.ofDigitChars_eq_ofDigitChars_zero (l := t), ← width']
      have above : ¬ d :: t < c :: s := not_lt.mpr order
      rw [List.cons_lt_cons_iff, not_or, not_and] at above
      rcases lt_or_eq_of_le (not_lt.mp above.1) with apart | rfl
      · have apart : c.toNat < d.toNat := apart
        have step : 10 ^ s.length * (10 * 0 + (c.toNat - '0'.toNat) + 1) ≤ 10 ^ s.length * (10 * 0 + (d.toNat - '0'.toNat)) :=
          Nat.mul_le_mul_left _ (by omega)
        rw [Nat.mul_add] at step
        omega
      · have later : s ≤ t := not_lt.mp (above.2 rfl)
        exact Nat.add_le_add_left (ih rest rest' width' later) _

end Text
