import Mathlib.Data.Nat.Log
import Mathlib.Algebra.Order.Ring.Nat

namespace Numbers

/-- The whole number next to a fraction. Halfway between two it is the even one. -/
def halfEven (a b : Nat) : Nat := if 2 * (a % b) < b ∨ 2 * (a % b) = b ∧ a / b % 2 = 0 then a / b else a / b + 1

/-- How far apart the numbers of 53 binary digits are that are as large as this one. -/
def ulp (n : Nat) : Nat := 2 ^ (n.log2 - 52)

def round (a b : Nat) : Nat := halfEven a (b * ulp (a / b)) * ulp (a / b)

theorem ulp_pos (n : Nat) : 0 < ulp n := Nat.two_pow_pos _

theorem halfEven_mul (a b : Nat) {c : Nat} (positive : 0 < c) : halfEven (a * c) (b * c) = halfEven a b := by
  have less : 2 * (a % b * c) < b * c ↔ 2 * (a % b) < b := by
    rw [← Nat.mul_assoc]
    exact Nat.mul_lt_mul_right positive
  have half : 2 * (a % b * c) = b * c ↔ 2 * (a % b) = b := by
    rw [← Nat.mul_assoc]
    exact Nat.mul_left_inj (Nat.ne_of_gt positive)
  simp only [halfEven, Nat.mul_div_mul_right _ _ positive, Nat.mul_mod_mul_right, less, half]

theorem halfEven_mul_self (n : Nat) {b : Nat} (positive : 0 < b) : halfEven (n * b) b = n := by
  have none : n * b % b = 0 := Nat.mul_mod_left n b
  rw [halfEven, none, if_pos (.inl (by omega)), Nat.mul_div_cancel n positive]

theorem halfEven_le (a b : Nat) : halfEven a b ≤ a / b + 1 := by
  unfold halfEven
  split <;> omega

theorem round_mul (a b : Nat) {c : Nat} (positive : 0 < c) : round (a * c) (b * c) = round a b := by
  unfold round
  rw [Nat.mul_div_mul_right _ _ positive, Nat.mul_right_comm, halfEven_mul _ _ positive]

theorem round_zero {b : Nat} (positive : 0 < b) : round 0 b = 0 := by
  have positive' : 2 * 0 < b * ulp 0 := Nat.mul_pos positive (ulp_pos 0)
  rw [round, Nat.zero_div, halfEven, Nat.zero_mod, if_pos (.inl positive'), Nat.zero_div, Nat.zero_mul]

theorem round_one_iff {n : Nat} : round n 1 = n ↔ ulp n ∣ n := by
  unfold round
  rw [Nat.div_one, Nat.one_mul]
  constructor
  · intro same
    exact ⟨_, (same.symm.trans (Nat.mul_comm _ _))⟩
  · intro divides
    obtain ⟨m, whole⟩ := divides
    have turned : n = m * ulp n := whole.trans (Nat.mul_comm _ _)
    have rounded : halfEven n (ulp n) = m := by
      calc halfEven n (ulp n) = halfEven (m * ulp n) (ulp n) := by rw [← turned]
        _ = m := halfEven_mul_self m (ulp_pos n)
    rw [rounded, ← turned]

theorem ulp_dvd {m j : Nat} (small : m ≤ 2 ^ 53) : ulp (m * 2 ^ j) ∣ m * 2 ^ j := by
  rcases Nat.lt_or_eq_of_le small with less | rfl
  · by_cases zero : m = 0
    · rw [zero, Nat.zero_mul]
      exact Nat.dvd_zero _
    · have nonzero : m * 2 ^ j ≠ 0 := Nat.mul_ne_zero zero (Nat.ne_of_gt (Nat.two_pow_pos j))
      have below : (m * 2 ^ j).log2 < 53 + j := by
        apply (Nat.log2_lt nonzero).mpr
        rw [Nat.pow_add]
        exact Nat.mul_lt_mul_of_pos_right less (Nat.two_pow_pos j)
      exact Nat.dvd_trans (Nat.pow_dvd_pow 2 (by omega)) (Nat.dvd_mul_left _ _)
  · rw [← Nat.pow_add, ulp, Nat.log2_two_pow]
    exact Nat.pow_dvd_pow 2 (by omega)

theorem div_ulp_lt (q : Nat) : q / ulp q < 2 ^ 53 := by
  apply (Nat.div_lt_iff_lt_mul (ulp_pos q)).mpr
  rw [ulp, ← Nat.pow_add]
  exact Nat.lt_of_lt_of_le Nat.lt_log2_self (Nat.pow_le_pow_right Nat.two_pos (by omega))

theorem round_round (a b : Nat) : round (round a b) 1 = round a b := by
  have small : halfEven a (b * ulp (a / b)) ≤ 2 ^ 53 := by
    have near := halfEven_le a (b * ulp (a / b))
    have low := div_ulp_lt (a / b)
    rw [Nat.div_div_eq_div_mul] at low
    omega
  exact round_one_iff.mpr (ulp_dvd small)

/-- Doubles have so many binary places at most, and as many decimal places. -/
def places : Nat := 1074

def bound : Nat := 2 ^ (1024 + places)

/-- A finite double. Its size counts units in the last binary place. -/
structure Double where
  negative : Bool
  size : Nat
  exact : round size 1 = size
  finite : size < bound
  deriving DecidableEq

inductive Number where
  | finite (x : Double)
  | infinity (negative : Bool)
  | nan
  deriving DecidableEq

def Double.Equal (x y : Double) : Prop := x.size = y.size ∧ (x.negative = y.negative ∨ x.size = 0)

theorem Double.Equal.refl (x : Double) : x.Equal x := ⟨rfl, .inl rfl⟩

theorem Double.Equal.symm {x y : Double} (same : x.Equal y) : y.Equal x := by
  obtain ⟨sizes, signs | zero⟩ := same
  · exact ⟨sizes.symm, .inl signs.symm⟩
  · exact ⟨sizes.symm, .inr (sizes.symm.trans zero)⟩

theorem Double.Equal.trans {x y z : Double} (same : x.Equal y) (same' : y.Equal z) : x.Equal z := by
  have zero (none : y.size = 0) : x.size = 0 := same.1.trans none
  rcases same.2 with signs | none
  · rcases same'.2 with signs' | none
    · exact ⟨same.1.trans same'.1, .inl (signs.trans signs')⟩
    · exact ⟨same.1.trans same'.1, .inr (zero none)⟩
  · exact ⟨same.1.trans same'.1, .inr none⟩

section Whole
variable {m n : Int}

theorem Double.whole_lt_bound (small : n.natAbs ≤ 2 ^ 53) : n.natAbs * 2 ^ places < bound := by
  have fits (p : Nat) : n.natAbs * 2 ^ p < 2 ^ (1024 + p) := by
    calc n.natAbs * 2 ^ p ≤ 2 ^ 53 * 2 ^ p := Nat.mul_le_mul_right _ small
      _ = 2 ^ (53 + p) := (Nat.pow_add 2 53 p).symm
      _ < 2 ^ (1024 + p) := Nat.pow_lt_pow_right (by decide) (by omega)
  exact fits places

def Double.ofInt (n : Int) (small : n.natAbs ≤ 2 ^ 53) : Double where
  negative := n < 0
  size := n.natAbs * 2 ^ places
  exact := round_one_iff.mpr (ulp_dvd small)
  finite := Double.whole_lt_bound small

theorem Double.ofInt_equal_iff (small : m.natAbs ≤ 2 ^ 53) (small' : n.natAbs ≤ 2 ^ 53) :
    (Double.ofInt m small).Equal (Double.ofInt n small') ↔ m = n := by
  constructor
  · rintro ⟨sizes, signs⟩
    have digits : m.natAbs = n.natAbs := Nat.eq_of_mul_eq_mul_right (Nat.two_pow_pos places) sizes
    rcases signs with signs | zero
    · have sign : m < 0 ↔ n < 0 := decide_eq_decide.mp signs
      omega
    · have none : m.natAbs = 0 := (Nat.mul_eq_zero.mp zero).resolve_right (Nat.ne_of_gt (Nat.two_pow_pos places))
      omega
  · rintro rfl
    exact .refl _

end Whole

structure Decimal where
  negative : Bool
  digits : Nat
  exponent : Int
  deriving DecidableEq

def fives : Nat := 5 ^ places

theorem fives_pos : 0 < fives := Nat.pow_pos (Nat.succ_pos 4)

def Decimal.size (d : Decimal) : Nat :=
  round (d.digits * 10 ^ (d.exponent + places).toNat) (fives * 10 ^ (-(d.exponent + places)).toNat)

def Decimal.toNumber (d : Decimal) : Number :=
  if fits : d.size < bound then .finite ⟨d.negative, d.size, round_round _ _, fits⟩ else .infinity d.negative

section Shortest

def Reads (size y : Nat) : Prop := round y fives = size

instance (size y : Nat) : Decidable (Reads size y) := inferInstanceAs (Decidable (_ = _))

def shortened (size w : Nat) : Option Nat :=
  let x := size * fives
  let low := x / w * w
  let high := low + w
  if Reads size low then
    if Reads size high ∧ (high - x < x - low ∨ high - x = x - low ∧ x / w % 2 = 1) then some high else some low
  else if Reads size high then some high
  else none

/-- The shortest decimal that is read as the number, of those that leave out at most so many digits. -/
def shortestOf (size : Nat) : Nat → Nat
  | 0 => size * fives
  | i + 1 => (shortened size (10 ^ (i + 1))).getD (shortestOf size i)

def shortest (size : Nat) : Nat := shortestOf size ((Nat.toDigits 10 (size * fives)).length - 1)

theorem reads_shortened {size w y : Nat} (found : shortened size w = some y) : Reads size y := by
  unfold shortened at found
  dsimp only at found
  split at found
  · rename_i low
    split at found
    · rename_i high
      cases found
      exact high.1
    · cases found
      exact low
  · split at found
    · rename_i high
      cases found
      exact high
    · cases found

theorem reads_shortestOf {size : Nat} (exact : round size 1 = size) (i : Nat) : Reads size (shortestOf size i) := by
  induction i with
  | zero =>
    unfold Reads shortestOf
    calc round (size * fives) fives = round (size * fives) (1 * fives) := by rw [Nat.one_mul]
      _ = round size 1 := round_mul _ _ fives_pos
      _ = size := exact
  | succ i ih =>
    rw [shortestOf]
    cases found : shortened size (10 ^ (i + 1)) with
    | none => exact ih
    | some y => exact reads_shortened found

theorem reads_shortest {size : Nat} (exact : round size 1 = size) : Reads size (shortest size) := reads_shortestOf exact _

theorem shortest_pos {size : Nat} (exact : round size 1 = size) (positive : 0 < size) : 0 < shortest size := by
  apply Nat.pos_of_ne_zero
  intro zero
  have read := reads_shortest exact
  rw [zero, Reads, round_zero fives_pos] at read
  omega

end Shortest

end Numbers
