import Mathlib.Data.List.Induction
import Mathlib.Order.Basic
import Mathlib.Tactic.Ring

namespace Bits

def ofBE (bytes : List UInt8) : Nat := bytes.foldl (fun n b => n * 256 + b.toNat) 0

def toBE : Nat → Nat → List UInt8
  | 0, _ => []
  | width + 1, n => toBE width (n / 256) ++ [UInt8.ofNat n]

@[simp] theorem length_toBE (width n : Nat) : (toBE width n).length = width := by
  induction width generalizing n with
  | zero => rfl
  | succ width ih => simp [toBE, ih]

theorem ofBE_concat (bytes : List UInt8) (b : UInt8) : ofBE (bytes ++ [b]) = ofBE bytes * 256 + b.toNat := by
  simp [ofBE]

theorem ofBE_toBE {width n : Nat} (fits : n < 256 ^ width) : ofBE (toBE width n) = n := by
  induction width generalizing n with
  | zero =>
    have zero : n = 0 := by simpa using fits
    rw [zero]
    rfl
  | succ width ih =>
    have high : n / 256 < 256 ^ width := by
      rw [Nat.div_lt_iff_lt_mul (by decide)]
      rwa [Nat.pow_succ] at fits
    rw [toBE, ofBE_concat, ih high, UInt8.toNat_ofNat']
    omega

variable {w v : Nat} {a b c : BitVec w} {len : Nat}

/-- The two have the same leading bits, so many of them. -/
def covers (b : BitVec w) (len : Nat) (a : BitVec w) : Bool := (a ^^^ b) >>> (w - len) = 0#w

def cleared (b : BitVec w) (len : Nat) : BitVec w := b >>> (w - len) <<< (w - len)

theorem covers_iff : covers b len a = true ↔ ∀ j, w - len ≤ j → a.getLsbD j = b.getLsbD j := by
  unfold covers
  rw [decide_eq_true_eq]
  constructor
  · intro zero j leading
    have bit := congrArg (fun x => x.getLsbD (j - (w - len))) zero
    simp only [BitVec.getLsbD_ushiftRight, BitVec.getLsbD_xor, BitVec.getLsbD_zero, Nat.add_sub_cancel' leading] at bit
    simpa using bit
  · intro same
    apply BitVec.eq_of_getLsbD_eq
    intro j _
    simp [same (w - len + j) (Nat.le_add_right _ _)]

theorem getLsbD_cleared (b : BitVec w) (len j : Nat) :
    (cleared b len).getLsbD j = (decide (w - len ≤ j) && b.getLsbD j) := by
  unfold cleared
  by_cases leading : w - len ≤ j
  · have below : ¬ j < w - len := by omega
    have whole : w - len + (j - (w - len)) = j := by omega
    by_cases inside : j < w
    · simp only [BitVec.getLsbD_shiftLeft, BitVec.getLsbD_ushiftRight, leading, inside, below, whole]
      simp
    · have beyond : b.getLsbD j = false := BitVec.getLsbD_of_ge b j (by omega)
      simp only [BitVec.getLsbD_shiftLeft, inside, beyond]
      simp
  · have below : j < w - len := by omega
    simp only [BitVec.getLsbD_shiftLeft, leading, below]
    simp

theorem covers_cleared (b : BitVec w) (len : Nat) (a : BitVec w) : covers (cleared b len) len a = covers b len a := by
  rw [Bool.eq_iff_iff, covers_iff, covers_iff]
  constructor
  · intro same j leading
    rw [same j leading, getLsbD_cleared]
    simp [leading]
  · intro same j leading
    rw [same j leading, getLsbD_cleared]
    simp [leading]

/-- Two with the same leading bits agree in what is left when no more than the rest is shifted out. -/
theorem shift_eq_of_covers {k : Nat} (same : covers b len a = true) (within : w - len ≤ k) : a >>> k = b >>> k := by
  apply BitVec.eq_of_getLsbD_eq
  intro j _
  simp only [BitVec.getLsbD_ushiftRight]
  exact covers_iff.mp same (k + j) (Nat.le_trans within (Nat.le_add_right _ _))

theorem cleared_shift {k : Nat} (b : BitVec w) (within : w - len ≤ k) : cleared b len >>> k = b >>> k := by
  apply BitVec.eq_of_getLsbD_eq
  intro j _
  have leading : w - len ≤ k + j := Nat.le_trans within (Nat.le_add_right _ _)
  simp [getLsbD_cleared, leading]

end Bits
