import Mailgw.Numbers.Double
import Mailgw.Text.Decimal
import Mathlib.Data.List.DropRight
import Mathlib.Tactic.Linarith

namespace Numbers

open Text

section Reading

def fraction : List Char → Option (List Char × List Char)
  | '.' :: rest => if rest.takeWhile Char.isDigit = [] then none else some (rest.takeWhile Char.isDigit, rest.dropWhile Char.isDigit)
  | rest => some ([], rest)

def signedPower : List Char → Option Int
  | '+' :: ds => (parseDigits ds).map Int.ofNat
  | '-' :: ds => (parseDigits ds).map fun n : Nat => -(n : Int)
  | ds => (parseDigits ds).map Int.ofNat

def power : List Char → Option Int
  | [] => some 0
  | 'e' :: rest => signedPower rest
  | 'E' :: rest => signedPower rest
  | _ => none

def unsigned (text : List Char) : Option Decimal :=
  let whole := text.takeWhile Char.isDigit
  if whole = [] ∨ whole.head? = some '0' ∧ whole ≠ ['0'] then none
  else do
    let (part, rest) ← fraction (text.dropWhile Char.isDigit)
    let x ← power rest
    pure ⟨false, Nat.ofDigitChars 10 (whole ++ part) 0, x - part.length⟩

def Decimal.read : List Char → Option Decimal
  | '-' :: rest => (unsigned rest).map fun d => { d with negative := true }
  | text => unsigned text

end Reading

/-- Digits as they print with the point behind so many of them. -/
def placed (s : List Char) (n : Int) : List Char :=
  let k : Int := s.length
  if k ≤ n ∧ n ≤ 21 then s ++ List.replicate (n - k).toNat '0'
  else if 0 < n ∧ n ≤ 21 then s.take n.toNat ++ '.' :: s.drop n.toNat
  else if -6 < n ∧ n ≤ 0 then '0' :: '.' :: (List.replicate (-n).toNat '0' ++ s)
  else
    let e := n - 1
    let behind := 'e' :: (if e < 0 then '-' else '+') :: Nat.toDigits 10 e.natAbs
    if k = 1 then s ++ behind else s.take 1 ++ '.' :: (s.drop 1 ++ behind)

def decimalText (y : Nat) : List Char :=
  placed ((Nat.toDigits 10 y).rdropWhile (· = '0')) ((Nat.toDigits 10 y).length - places)

/-- A double as it prints. The negative zero has no sign. -/
def Double.text (x : Double) : List Char :=
  if x.size = 0 then ['0'] else if x.negative then '-' :: decimalText (shortest x.size) else decimalText (shortest x.size)

section Digits
variable {s t rest : List Char}

theorem ofDigitChars_zeros (s : List Char) (j : Nat) :
    Nat.ofDigitChars 10 (s ++ List.replicate j '0') 0 = Nat.ofDigitChars 10 s 0 * 10 ^ j := by
  induction j with
  | zero => simp
  | succ j ih =>
    rw [List.replicate_succ', ← List.append_assoc, Nat.ofDigitChars_append, ih, Nat.pow_succ]
    simp [Nat.ofDigitChars_cons, Nat.mul_comm, Nat.mul_assoc]

theorem digits_ahead (digits : ∀ c ∈ s, c.isDigit = true) (stop : ∀ c ∈ rest.head?, c.isDigit = false) :
    (s ++ rest).takeWhile Char.isDigit = s ∧ (s ++ rest).dropWhile Char.isDigit = rest := by
  rw [List.takeWhile_append_of_pos digits, List.dropWhile_append_of_pos digits]
  cases rest with
  | nil => simp
  | cons c rest =>
    have other := stop c rfl
    simp [other]

theorem signedPower_digits (e : Int) :
    signedPower ((if e < 0 then '-' else '+') :: Nat.toDigits 10 e.natAbs) = some e := by
  have read : parseDigits (Nat.toDigits 10 e.natAbs) = some e.natAbs := by
    rw [← padDecimal_zero]
    exact parseDigits_padDecimal 0 _
  split
  · rw [signedPower, read, Option.map_some, Option.some.injEq]
    omega
  · rw [signedPower, read, Option.map_some, Option.some.injEq, Int.ofNat_eq_natCast]
    omega

end Digits

structure Leading (whole : List Char) : Prop where
  some_ : whole ≠ []
  digits : ∀ c ∈ whole, c.isDigit = true
  first : whole.head? = some '0' → whole = ['0']

section Unsigned
variable {whole part behind : List Char} {x : Int}

theorem power_stops (read : power behind = some x) : ∀ c ∈ behind.head?, c.isDigit = false := by
  intro c first
  cases behind with
  | nil => cases first
  | cons d rest =>
    obtain rfl := Option.some.inj first
    unfold power at read
    split at read
    · rename_i empty
      cases empty
    · rename_i same
      rw [(List.cons.inj same).1]
      rfl
    · rename_i same
      rw [(List.cons.inj same).1]
      rfl
    · cases read

theorem power_no_point (read : power behind = some x) : fraction behind = some ([], behind) := by
  unfold fraction
  split
  · cases read
  · rfl

theorem unsigned_whole (leading : Leading whole) (read : power behind = some x) :
    unsigned (whole ++ behind) = some ⟨false, Nat.ofDigitChars 10 whole 0, x⟩ := by
  obtain ⟨taken, dropped⟩ := digits_ahead leading.digits (power_stops read)
  have fine : ¬ (whole = [] ∨ whole.head? = some '0' ∧ whole ≠ ['0']) := by
    rintro (empty | ⟨first, longer⟩)
    · exact leading.some_ empty
    · exact longer (leading.first first)
  simp only [unsigned, taken, dropped, if_neg fine, power_no_point read, Option.bind_eq_bind, Option.bind_some, read,
    List.append_nil, List.length_nil, Option.pure_def, Int.natCast_zero, Int.sub_zero]

theorem unsigned_part (leading : Leading whole) (some_ : part ≠ []) (digits : ∀ c ∈ part, c.isDigit = true)
    (read : power behind = some x) :
    unsigned (whole ++ '.' :: (part ++ behind)) =
      some ⟨false, Nat.ofDigitChars 10 (whole ++ part) 0, x - part.length⟩ := by
  have point : ∀ c ∈ ('.' :: (part ++ behind)).head?, c.isDigit = false := by
    intro c first
    rw [← Option.some.inj first]
    rfl
  obtain ⟨taken, dropped⟩ := digits_ahead leading.digits point
  obtain ⟨taken', dropped'⟩ := digits_ahead digits (power_stops read)
  have fine : ¬ (whole = [] ∨ whole.head? = some '0' ∧ whole ≠ ['0']) := by
    rintro (empty | ⟨first, longer⟩)
    · exact leading.some_ empty
    · exact longer (leading.first first)
  simp only [unsigned, taken, dropped, if_neg fine, fraction, taken', dropped', if_neg some_, Option.bind_eq_bind,
    Option.bind_some, read, Option.pure_def]

end Unsigned

structure Decimal.Counts (d : Decimal) (y : Nat) : Prop where
  whole : 0 ≤ d.exponent + places
  count : d.digits * 10 ^ (d.exponent + places).toNat = y

theorem Decimal.Counts.size {d : Decimal} {y : Nat} (counts : d.Counts y) : d.size = round y fives := by
  have whole := counts.whole
  have none : (-(d.exponent + places)).toNat = 0 := by omega
  rw [Decimal.size, counts.count, none, Nat.pow_zero, Nat.mul_one]

section Printing
variable {y : Nat}

theorem stripped (y : Nat) : Nat.toDigits 10 y = (Nat.toDigits 10 y).rdropWhile (· = '0') ++
    List.replicate ((Nat.toDigits 10 y).length - ((Nat.toDigits 10 y).rdropWhile (· = '0')).length) '0' := by
  generalize Nat.toDigits 10 y = all
  have whole := List.rdropWhile_append_rtakeWhile (p := (· = '0')) (l := all)
  have zeros : all.rtakeWhile (· = '0') = List.replicate (all.rtakeWhile (· = '0')).length '0' := by
    apply List.eq_replicate_of_mem
    intro c member
    simpa using List.mem_rtakeWhile_imp member
  have lengths := congrArg List.length whole
  rw [List.length_append] at lengths
  have left : all.length - (all.rdropWhile (· = '0')).length = (all.rtakeWhile (· = '0')).length := by omega
  rw [left, ← zeros, whole]

theorem leading_digit (positive : 0 < y) : (Nat.toDigits 10 y).head? ≠ some '0' := by
  induction y using Nat.strong_induction_on with
  | _ y ih =>
    rw [Nat.toDigits_eq_if (by decide)]
    split
    · rename_i small
      intro zero
      have digit := Option.some.inj zero
      have all : ∀ k : Fin 10, k.val.digitChar = '0' → k.val = 0 := by decide
      have none : y = 0 := all ⟨y, small⟩ digit
      omega
    · rename_i large
      rw [List.head?_append_of_ne_nil _ Nat.toDigits_ne_nil]
      exact ih (y / 10) (by omega) (by omega)

structure Significant (y : Nat) (s : List Char) (zeros : Nat) : Prop where
  some_ : s ≠ []
  digits : ∀ c ∈ s, c.isDigit = true
  first : s.head? ≠ some '0'
  value : Nat.ofDigitChars 10 s 0 * 10 ^ zeros = y

theorem significant (positive : 0 < y) : ∃ zeros, Significant y ((Nat.toDigits 10 y).rdropWhile (· = '0')) zeros ∧
    (Nat.toDigits 10 y).length = ((Nat.toDigits 10 y).rdropWhile (· = '0')).length + zeros := by
  have whole := stripped y
  have leading := leading_digit positive
  have digits : ∀ c ∈ Nat.toDigits 10 y, c.isDigit = true := fun c member =>
    Nat.isDigit_of_mem_toDigits (by decide) (by decide) member
  have value : Nat.ofDigitChars 10 (Nat.toDigits 10 y) 0 = y := Nat.ofDigitChars_ten_toDigits
  generalize (Nat.toDigits 10 y).rdropWhile (· = '0') = s at *
  generalize (Nat.toDigits 10 y).length - s.length = zeros at whole
  rw [whole] at leading digits value
  rw [ofDigitChars_zeros] at value
  have some_ : s ≠ [] := by
    intro empty
    rw [empty, Nat.ofDigitChars_nil, Nat.zero_mul] at value
    omega
  refine ⟨zeros, ⟨some_, fun c member => digits c (List.mem_append_left _ member), ?_, value⟩, ?_⟩
  · rwa [List.head?_append_of_ne_nil _ some_] at leading
  · have lengths := congrArg List.length whole
    rwa [List.length_append, List.length_replicate] at lengths

theorem Significant.leading {s t : List Char} {zeros : Nat} (sig : Significant y s zeros) (some_ : t ≠ [])
    (begins : t.head? = s.head?) (digits : ∀ c ∈ t, c.isDigit = true) : Leading t := by
  refine ⟨some_, digits, fun zero => ?_⟩
  rw [begins] at zero
  exact absurd zero sig.first

theorem Significant.counts {s : List Char} {zeros : Nat} {d : Decimal} (sig : Significant y s zeros)
    (digits : d.digits = Nat.ofDigitChars 10 s 0) (exponent : d.exponent = (zeros : Int) - places) : d.Counts y := by
  have place : d.exponent + places = zeros := by omega
  refine ⟨by omega, ?_⟩
  rw [place, digits, Int.toNat_natCast]
  exact sig.value

theorem unsigned_placed {s : List Char} {zeros : Nat} (sig : Significant y s zeros) :
    ∃ d, unsigned (placed s ((s.length + zeros : Nat) - places)) = some d ∧ d.Counts y := by
  have long := List.length_pos_iff.mpr sig.some_
  have ended : power [] = some 0 := rfl
  generalize point : ((s.length + zeros : Nat) : Int) - places = n
  have few {m : Nat} : ∀ c ∈ List.replicate m '0', c.isDigit = true := by
    intro c member
    rw [List.eq_of_mem_replicate member]
    rfl
  unfold placed
  dsimp only
  split
  · rename_i bounds
    have digits : ∀ c ∈ s ++ List.replicate (n - s.length).toNat '0', c.isDigit = true := by
      intro c member
      rcases List.mem_append.mp member with here | zero
      · exact sig.digits c here
      · exact few c zero
    have leading := sig.leading (List.append_ne_nil_of_left_ne_nil sig.some_ _) (List.head?_append_of_ne_nil _ sig.some_) digits
    have read := unsigned_whole leading ended
    rw [List.append_nil, ofDigitChars_zeros] at read
    refine ⟨_, read, by dsimp only; omega, ?_⟩
    dsimp only
    rw [Nat.mul_assoc, ← Nat.pow_add, ← sig.value]
    congr 2
    omega
  split
  · rename_i long' bounds
    have inside : 0 < n.toNat ∧ n.toNat < s.length := by omega
    have leading : Leading (s.take n.toNat) := by
      apply sig.leading
      · exact List.ne_nil_of_length_pos (by rw [List.length_take]; omega)
      · rw [List.head?_take, if_neg (by omega)]
      · exact fun c member => sig.digits c (List.mem_of_mem_take member)
    have some_ : s.drop n.toNat ≠ [] := List.ne_nil_of_length_pos (by rw [List.length_drop]; omega)
    have read := unsigned_part leading some_ (fun c member => sig.digits c (List.mem_of_mem_drop member)) ended
    rw [List.append_nil, List.take_append_drop, List.length_drop] at read
    exact ⟨_, read, sig.counts rfl (by dsimp only; omega)⟩
  split
  · rename_i bounds
    have leading : Leading ['0'] := ⟨List.cons_ne_nil _ _, by simp, fun _ => rfl⟩
    have digits : ∀ c ∈ List.replicate (-n).toNat '0' ++ s, c.isDigit = true := by
      intro c member
      rcases List.mem_append.mp member with zero | here
      · exact few c zero
      · exact sig.digits c here
    have read := unsigned_part leading (List.append_ne_nil_of_right_ne_nil _ sig.some_) digits ended
    rw [List.append_nil, List.length_append, List.length_replicate] at read
    refine ⟨_, read, sig.counts ?_ (by dsimp only; omega)⟩
    simp [Nat.ofDigitChars_append, Nat.ofDigitChars_cons]
  have tail : power ('e' :: (if n - 1 < 0 then '-' else '+') :: Nat.toDigits 10 (n - 1).natAbs) = some (n - 1) :=
    signedPower_digits (n - 1)
  split
  · rename_i one
    have leading := sig.leading sig.some_ rfl sig.digits
    exact ⟨_, unsigned_whole leading tail, sig.counts rfl (by dsimp only; omega)⟩
  · rename_i more
    have leading : Leading (s.take 1) := by
      apply sig.leading
      · exact List.ne_nil_of_length_pos (by rw [List.length_take]; omega)
      · rw [List.head?_take, if_neg Nat.one_ne_zero]
      · exact fun c member => sig.digits c (List.mem_of_mem_take member)
    have some_ : s.drop 1 ≠ [] := List.ne_nil_of_length_pos (by rw [List.length_drop]; omega)
    have read := unsigned_part leading some_ (fun c member => sig.digits c (List.mem_of_mem_drop member)) tail
    rw [List.take_append_drop, List.length_drop] at read
    exact ⟨_, read, sig.counts rfl (by dsimp only; omega)⟩

theorem unsigned_decimalText (positive : 0 < y) : ∃ d, unsigned (decimalText y) = some d ∧ d.Counts y := by
  obtain ⟨zeros, sig, length⟩ := significant positive
  rw [decimalText, length]
  exact unsigned_placed sig

theorem read_unsigned {text : List Char} {d : Decimal} (read : unsigned text = some d) : Decimal.read text = some d := by
  unfold Decimal.read
  split
  · rename_i rest
    cases read
  · exact read

theorem unsigned_negative {text : List Char} {d : Decimal} (read : unsigned text = some d) : d.negative = false := by
  simp only [unsigned, Option.bind_eq_bind, Option.pure_def] at read
  split at read
  · cases read
  · obtain ⟨found, -, read⟩ := Option.bind_eq_some_iff.mp read
    obtain ⟨x, -, made⟩ := Option.bind_eq_some_iff.mp read
    rw [← Option.some.inj made]

theorem toNumber_of_size {d : Decimal} {x : Double} (size : d.size = x.size) :
    ∃ z, d.toNumber = .finite z ∧ z.negative = d.negative ∧ z.size = x.size := by
  have fits : d.size < bound := size ▸ x.finite
  rw [Decimal.toNumber, dif_pos fits]
  exact ⟨_, rfl, rfl, size⟩

theorem read_text (x : Double) : ∃ d z, Decimal.read x.text = some d ∧ d.toNumber = .finite z ∧ z.Equal x := by
  unfold Double.text
  split
  · rename_i zero
    have size : Decimal.size ⟨false, 0, 0⟩ = x.size := by
      rw [Decimal.size, Nat.zero_mul, zero]
      exact round_zero (Nat.mul_pos fives_pos (Nat.pow_pos (Nat.succ_pos 9)))
    obtain ⟨z, number, -, same⟩ := toNumber_of_size size
    exact ⟨_, z, rfl, number, same, .inr (same.trans zero)⟩
  · rename_i nonzero
    obtain ⟨d, read, counts⟩ := unsigned_decimalText (shortest_pos x.exact (Nat.pos_of_ne_zero nonzero))
    have size : d.size = x.size := counts.size.trans (reads_shortest x.exact)
    split
    · rename_i negative
      obtain ⟨z, number, sign, same⟩ := toNumber_of_size (d := { d with negative := true }) size
      refine ⟨_, z, ?_, number, same, .inl (sign.trans negative.symm)⟩
      rw [Decimal.read, read, Option.map_some]
    · rename_i positive
      obtain ⟨z, number, sign, same⟩ := toNumber_of_size size
      refine ⟨d, z, read_unsigned read, number, same, .inl ?_⟩
      rw [sign, unsigned_negative read, Bool.not_eq_true _ |>.mp positive]

theorem isSome_read_text (x : Double) : (Decimal.read x.text).isSome = true := by
  obtain ⟨d, z, read, -⟩ := read_text x
  rw [read]
  rfl

theorem text_eq_iff {x y : Double} : x.text = y.text ↔ x.Equal y := by
  constructor
  · intro same
    obtain ⟨d, z, read, number, equal⟩ := read_text x
    obtain ⟨d', z', read', number', equal'⟩ := read_text y
    rw [same, read'] at read
    rw [← Option.some.inj read, number'] at number
    rw [← Number.finite.inj number] at equal
    exact equal.symm.trans equal'
  · intro equal
    obtain ⟨size, signs | zero⟩ := equal
    · rw [Double.text, Double.text, size, signs]
    · rw [Double.text, Double.text, if_pos zero, if_pos (size.symm.trans zero)]

end Printing

section Digits
variable {y z k : Nat}

theorem toDigits_large (large : 10 ≤ z) : Nat.toDigits 10 z = Nat.toDigits 10 (z / 10) ++ [Nat.digitChar (z % 10)] := by
  rw [Nat.toDigits_eq_if (by decide), if_neg (by omega)]

theorem toDigits_small (small : z < 10) : Nat.toDigits 10 z = [Nat.digitChar z] := by
  rw [Nat.toDigits_eq_if (by decide), if_pos small]

theorem padDecimal_last (k z : Nat) : padDecimal (k + 2) z = padDecimal (k + 1) (z / 10) ++ [Nat.digitChar (z % 10)] := by
  unfold padDecimal
  by_cases small : z < 10
  · have zero : z / 10 = 0 := by omega
    have same : z % 10 = z := by omega
    rw [toDigits_small small, zero, same, Nat.toDigits_zero, List.length_singleton, List.length_singleton,
      show k + 2 - 1 = k + 1 from rfl, show k + 1 - 1 = k from rfl, List.replicate_succ']
  · have width : k + 2 - ((Nat.toDigits 10 (z / 10)).length + 1) = k + 1 - (Nat.toDigits 10 (z / 10)).length := by omega
    rw [toDigits_large (by omega), List.length_append, List.length_singleton, width, List.append_assoc]

theorem toDigits_split (large : 10 ^ (k + 1) ≤ y) :
    Nat.toDigits 10 y = Nat.toDigits 10 (y / 10 ^ (k + 1)) ++ padDecimal (k + 1) (y % 10 ^ (k + 1)) := by
  induction k generalizing y with
  | zero =>
    have below : y % 10 < 10 := Nat.mod_lt y (by decide)
    rw [Nat.zero_add, Nat.pow_one] at large ⊢
    rw [toDigits_large large, padDecimal, toDigits_small below, List.length_singleton]
    rfl
  | succ k ih =>
    have above : 10 ≤ y := Nat.le_trans (Nat.le_self_pow (Nat.succ_ne_zero _) 10) large
    have less : 10 ^ (k + 1) ≤ y / 10 := by
      apply (Nat.le_div_iff_mul_le (by decide)).mpr
      rwa [← Nat.pow_succ]
    have front : y / 10 / 10 ^ (k + 1) = y / 10 ^ (k + 1 + 1) := by rw [Nat.div_div_eq_div_mul, ← Nat.pow_succ']
    have middle : y % 10 ^ (k + 1 + 1) / 10 = y / 10 % 10 ^ (k + 1) := by
      rw [Nat.pow_succ', Nat.mod_mul_right_div_self]
    have last : y % 10 ^ (k + 1 + 1) % 10 = y % 10 := by
      rw [Nat.pow_succ']
      exact Nat.mod_mul_right_mod y 10 _
    rw [toDigits_large above, ih less, front, padDecimal_last k, middle, last, List.append_assoc]

theorem rdropWhile_append {α : Type} (p : α → Bool) (x y : List α) :
    (x ++ y).rdropWhile p = if y.rdropWhile p = [] then x.rdropWhile p else x ++ y.rdropWhile p := by
  simp only [List.rdropWhile, List.reverse_append, List.dropWhile_append, List.reverse_eq_nil_iff, List.isEmpty_iff]
  split
  · rfl
  · rw [List.reverse_append, List.reverse_reverse]

end Digits

def plainText (y : Nat) : List Char :=
  let part := (padDecimal places (y % 10 ^ places)).rdropWhile (· = '0')
  Nat.toDigits 10 (y / 10 ^ places) ++ if part = [] then [] else '.' :: part

theorem e_of_far (s : List Char) {n : Int} (far : n ≤ -6 ∨ 21 < n) (some_ : s ≠ []) : 'e' ∈ placed s n := by
  have long := List.length_pos_iff.mpr some_
  unfold placed
  dsimp only
  rw [if_neg (by omega), if_neg (by omega), if_neg (by omega)]
  split
  · exact List.mem_append_right _ List.mem_cons_self
  · exact List.mem_append_right _ (List.mem_cons_of_mem _ (List.mem_append_right _ List.mem_cons_self))

/-- A decimal prints without a power of ten unless it is very large or very small. -/
theorem decimalText_plain {y : Nat} (positive : 0 < y) (plain : 'e' ∉ decimalText y) : decimalText y = plainText y := by
  obtain ⟨k, width⟩ : ∃ k, places = k + 1 := ⟨1073, rfl⟩
  have few : y % 10 ^ places < 10 ^ places := Nat.mod_lt y (Nat.pow_pos (by decide))
  have behind : (padDecimal places (y % 10 ^ places)).length = places := length_padDecimal (by rw [width]; omega) few
  obtain ⟨zeros, sig, length⟩ := significant positive
  have whole := stripped y
  rw [decimalText] at plain ⊢
  have near : -6 < ((Nat.toDigits 10 y).length : Int) - places ∧ ((Nat.toDigits 10 y).length : Int) - places ≤ 21 := by
    by_contra far
    exact plain (e_of_far _ (by omega) sig.some_)
  unfold plainText placed
  dsimp only
  by_cases large : 10 ^ places ≤ y
  · have split : Nat.toDigits 10 y = Nat.toDigits 10 (y / 10 ^ places) ++ padDecimal places (y % 10 ^ places) := by
      rw [width] at large ⊢
      exact toDigits_split large
    have before := stripped (y / 10 ^ places)
    have some_ : Nat.toDigits 10 (y / 10 ^ places) ≠ [] := Nat.toDigits_ne_nil
    rw [split, List.length_append, behind] at near
    rw [split, List.length_append, behind, rdropWhile_append]
    generalize Nat.toDigits 10 (y / 10 ^ places) = front at *
    generalize padDecimal places (y % 10 ^ places) = back at *
    have point : ((front.length + places : Nat) : Int) - places = front.length := by omega
    have long := List.length_pos_iff.mpr some_
    rw [point] at near ⊢
    by_cases none : back.rdropWhile (· = '0') = []
    · have lengths := congrArg List.length before
      rw [List.length_append, List.length_replicate] at lengths
      have fill : ((front.length : Int) - (front.rdropWhile (· = '0')).length).toNat = front.length - (front.rdropWhile (· = '0')).length := by
        omega
      rw [if_pos none, if_pos none, if_pos ⟨by omega, near.2⟩, fill, ← before, List.append_nil]
    · have more := List.length_pos_iff.mpr none
      rw [if_neg none, if_neg none, List.length_append, if_neg (by omega), if_pos ⟨by omega, near.2⟩, Int.toNat_natCast,
        List.take_left, List.drop_left]
  · have small : y < 10 ^ places := Nat.lt_of_not_le large
    have zero : y / 10 ^ places = 0 := Nat.div_eq_of_lt small
    have short := Nat.toDigits_length 10 y places (by rw [width]; omega) small
    have long := List.length_pos_iff.mpr sig.some_
    have kept : (padDecimal places y).rdropWhile (· = '0') =
        List.replicate (places - (Nat.toDigits 10 y).length) '0' ++ (Nat.toDigits 10 y).rdropWhile (· = '0') := by
      rw [padDecimal, rdropWhile_append, if_neg sig.some_]
    have fill : (-(((Nat.toDigits 10 y).length : Int) - places)).toNat = places - (Nat.toDigits 10 y).length := by omega
    have some_ : List.replicate (places - (Nat.toDigits 10 y).length) '0' ++ (Nat.toDigits 10 y).rdropWhile (· = '0') ≠ [] :=
      List.append_ne_nil_of_right_ne_nil _ sig.some_
    rw [zero, Nat.mod_eq_of_lt small, kept, if_neg some_, if_neg (by omega), if_neg (by omega), if_pos (by omega), fill,
      Nat.toDigits_zero, List.singleton_append]

end Numbers
