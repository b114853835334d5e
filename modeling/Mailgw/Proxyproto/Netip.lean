import Mailgw.Bits.Words
import Mailgw.Deliver.Reader
import Mailgw.Rules.Env
import Mailgw.Text.Letters
import Mailgw.Text.Paths
import Mailgw.Text.Utf8

namespace Mailgw.Proxyproto

open Bits Text
open Deliver (Bytes)
open Rules (Addr)

def isDigit (b : UInt8) : Bool := 48 ≤ b && b ≤ 57

def hexDigit (b : UInt8) : Option Nat :=
  if 48 ≤ b ∧ b ≤ 57 then some (b.toNat - 48)
  else if 97 ≤ b ∧ b ≤ 102 then some (b.toNat - 87)
  else if 65 ≤ b ∧ b ≤ 70 then some (b.toNat - 55)
  else none

def isHex (b : UInt8) : Bool := (hexDigit b).isSome

def hexValue (t : Bytes) : Nat := t.foldl (fun acc b => acc * 16 + (hexDigit b).getD 0) 0

def addrFrom4 (ip : Bytes) : Addr := .v4 (BitVec.ofNat 32 (ofBE ip))

def addrFrom16 (ip : Bytes) : Addr := .v6 (BitVec.ofNat 128 (ofBE ip)) []

def withZone (zone : Bytes) : Addr → Addr
  | .v6 bits _ => .v6 bits (runes zone)
  | a => a

/-- Reads dotted decimal, given the value and the number of digits of the current octet and the octets
    before it. -/
def parseIPv4Fields (val digLen : Nat) (fields : Bytes) : Bytes → Option Bytes
  | [] => if fields.length < 3 then none else some (fields ++ [UInt8.ofNat val])
  | c :: rest =>
    if isDigit c then
      -- an octet with a leading zero
      if digLen = 1 ∧ val = 0 then none
      else if 255 < val * 10 + (c.toNat - 48) then none
      else parseIPv4Fields (val * 10 + (c.toNat - 48)) (digLen + 1) fields rest
    else if c = DOT then
      if digLen = 0 ∨ rest = [] then none
      else if fields.length = 3 then none
      else parseIPv4Fields 0 0 (fields ++ [UInt8.ofNat val]) rest
    else none

def parseIPv4 (s : Bytes) : Option Addr := (parseIPv4Fields 0 0 [] s).map addrFrom4

structure Groups6 where
  ip : Bytes
  ellipsis : Option Nat
  s : Bytes
  deriving Repr, DecidableEq

/-- Reads hexadecimal groups, each followed by a colon, until sixteen bytes are there. -/
def parseGroups : Nat → Groups6 → Option Groups6
  | 0, g => some g
  | rounds + 1, g =>
    let digits := g.s.takeWhile isHex
    let ip := g.ip ++ toBE 2 (hexValue digits)
    if 4 < digits.length then none
    else if digits = [] then none
    else
      match g.s.dropWhile isHex with
      | [] => some { g with ip, s := [] }
      | c :: rest =>
        if c = DOT then
          -- an IPv4 address takes the place of the last two groups
          if g.ellipsis = none ∧ g.ip.length ≠ 12 then none
          else if 16 < g.ip.length + 4 then none
          else (parseIPv4Fields 0 0 [] g.s).map fun fields => { g with ip := g.ip ++ fields, s := [] }
        else if c ≠ COLON then none
        else
          match rest with
          | [] => none
          | d :: rest' =>
            if d ≠ COLON then parseGroups rounds { g with ip, s := rest }
            else if g.ellipsis.isSome then none
            else if rest' = [] then some ⟨ip, some ip.length, []⟩
            else parseGroups rounds ⟨ip, some ip.length, rest'⟩

/-- The ellipsis stands for the groups of zeros that are missing, and for one at least. -/
def expand (g : Groups6) : Option Bytes :=
  if g.s ≠ [] then none
  else if g.ip.length < 16 then
    g.ellipsis.map fun e => g.ip.take e ++ List.replicate (16 - g.ip.length) 0 ++ g.ip.drop e
  else if g.ellipsis.isSome then none
  else some g.ip

def parseIPv6Fields (s : Bytes) : Option Bytes :=
  if [COLON, COLON] <+: s then
    let rest := s.drop 2
    if rest = [] then some (List.replicate 16 0)
    else (parseGroups 8 ⟨[], some 0, rest⟩).bind expand
  else (parseGroups 8 ⟨[], none, s⟩).bind expand

def parseIPv6 (s : Bytes) : Option Addr :=
  let zone := (s.dropWhile (· ≠ PERCENT)).tail
  if PERCENT ∈ s ∧ zone = [] then none
  else (parseIPv6Fields (s.takeWhile (· ≠ PERCENT))).map fun ip => withZone zone (addrFrom16 ip)

def parseAddr (s : Bytes) : Option Addr :=
  match s.find? (· ∈ [DOT, COLON, PERCENT]) with
  | none => none
  | some c => if c = DOT then parseIPv4 s else if c = COLON then parseIPv6 s else none

example : ["203.0.113.7", "2001:db8::1", "::ffff:1.2.3.4", "fe80::1%eth0", "::"].map (fun s => parseAddr (ascii s.toList)) =
    [some (.v4 0xcb007107#32), some (.v6 0x20010db8000000000000000000000001#128 []), some (.v6 0xffff01020304#128 []),
      some (.v6 0xfe800000000000000000000000000001#128 "eth0".toList), some (.v6 0#128 [])] := by decide

example : ["1.2.3", "01.2.3.4", "1.2.3.256", "1::2::3", "1:2:3:4:5:6:7::8", "12345::", "1:2:3:4:5:6:7:8:", "::1%", "%eth0"].map
    (fun s => parseAddr (ascii s.toList)) = List.replicate 9 none := by decide

def decimal (n : Nat) : Bytes := ascii (Nat.toDigits 10 n)

def dotted : Bytes → Bytes
  | [] => []
  | [o] => decimal o.toNat
  | o :: os => decimal o.toNat ++ DOT :: dotted os

section Decimal
variable {n m d : Nat} {p q t : Bytes} {c : UInt8}

def digit (d : Nat) : UInt8 := UInt8.ofNat (48 + d)

theorem digit_inj (small : n < 10) (small' : m < 10) (same : digit n = digit m) : n = m := by
  have values := congrArg UInt8.toNat same
  simp only [digit, UInt8.toNat_ofNat'] at values
  omega

theorem isDigit_digit (small : d < 10) : isDigit (digit d) = true := by
  have value : (digit d).toNat = 48 + d := by
    simp only [digit, UInt8.toNat_ofNat']
    omega
  simp only [isDigit, Bool.and_eq_true, decide_eq_true_eq, UInt8.le_iff_toNat_le, value]
  exact ⟨Nat.le_add_right 48 d, show 48 + d ≤ 57 by omega⟩

theorem digit_of_isDigit (is_digit : isDigit c = true) : c.toNat - 48 < 10 ∧ c = digit (c.toNat - 48) := by
  simp only [isDigit, Bool.and_eq_true, decide_eq_true_eq, UInt8.le_iff_toNat_le] at is_digit
  obtain ⟨low, high⟩ := is_digit
  have low : 48 ≤ c.toNat := low
  have high : c.toNat ≤ 57 := high
  refine ⟨by omega, ?_⟩
  apply UInt8.toNat_inj.mp
  simp only [digit, UInt8.toNat_ofNat']
  omega

theorem decimal_of_lt (small : n < 10) : decimal n = [digit n] := by
  rw [decimal, Nat.toDigits_of_lt_base small]
  have cases : n = 0 ∨ n = 1 ∨ n = 2 ∨ n = 3 ∨ n = 4 ∨ n = 5 ∨ n = 6 ∨ n = 7 ∨ n = 8 ∨ n = 9 := by omega
  rcases cases with rfl | rfl | rfl | rfl | rfl | rfl | rfl | rfl | rfl | rfl <;> rfl

theorem decimal_snoc (some : 0 < n) (small : d < 10) : decimal (n * 10 + d) = decimal n ++ [digit d] := by
  rw [← decimal_of_lt small, decimal, decimal, decimal, ascii, ascii, ascii, ← List.map_append,
    Nat.toDigits_append_toDigits (by decide) some small, Nat.mul_comm]

theorem decimal_cases (n : Nat) :
    (n < 10 ∧ decimal n = [digit n]) ∨
      (0 < n / 10 ∧ n / 10 < n ∧ decimal n = decimal (n / 10) ++ [digit (n % 10)]) := by
  by_cases small : n < 10
  · exact .inl ⟨small, decimal_of_lt small⟩
  · refine .inr ⟨by omega, by omega, ?_⟩
    have whole : n / 10 * 10 + n % 10 = n := by omega
    rw [← decimal_snoc (by omega) (by omega), whole]

theorem decimal_ne_nil (n : Nat) : decimal n ≠ [] := by
  rcases decimal_cases n with ⟨_, same⟩ | ⟨_, _, same⟩ <;> simp [same]

theorem isDigit_of_mem_decimal (member : c ∈ decimal n) : isDigit c = true := by
  induction n using Nat.strongRecOn with
  | ind n ih =>
    rcases decimal_cases n with ⟨small, same⟩ | ⟨_, less, same⟩
    · rw [same, List.mem_singleton] at member
      rw [member]
      exact isDigit_digit small
    · rw [same] at member
      rcases List.mem_append.mp member with before | last
      · exact ih _ less before
      · rw [List.mem_singleton.mp last]
        exact isDigit_digit (by omega)

theorem not_mem_decimal (other : isDigit c = false) : c ∉ decimal n := by
  intro member
  rw [isDigit_of_mem_decimal member] at other
  cases other

/-- What a decimal begins with is the decimal of a smaller number, which is not zero unless it is all. -/
theorem decimal_prefix (whole : p ++ q = decimal n) (begun : p ≠ []) :
    ∃ m, p = decimal m ∧ m ≤ n ∧ (q ≠ [] → 0 < m) := by
  induction n using Nat.strongRecOn generalizing q with
  | ind n ih =>
    by_cases last : q = []
    · exact ⟨n, by rw [← whole, last, List.append_nil], Nat.le_refl n, fun more => absurd last more⟩
    · rcases decimal_cases n with ⟨_, same⟩ | ⟨some, less, same⟩
      · have lengths := congrArg List.length (whole.trans same)
        have first := List.length_pos_iff.mpr begun
        have second := List.length_pos_iff.mpr last
        simp only [List.length_append, List.length_singleton] at lengths
        omega
      · have ends := List.dropLast_append_getLast last
        rw [← ends, ← List.append_assoc, same] at whole
        obtain ⟨before, _⟩ := List.append_inj' whole rfl
        by_cases short : q.dropLast = []
        · refine ⟨n / 10, by rw [← before, short, List.append_nil], by omega, fun _ => some⟩
        · obtain ⟨m, here, bound, positive⟩ := ih _ less before
          exact ⟨m, here, by omega, fun _ => positive short⟩

theorem decimal_injective (same : decimal n = decimal m) : n = m := by
  induction n using Nat.strongRecOn generalizing m with
  | ind n ih =>
    rcases decimal_cases n with ⟨small, here⟩ | ⟨_, less, here⟩ <;>
      rcases decimal_cases m with ⟨small', here'⟩ | ⟨_, _, here'⟩ <;> rw [here, here'] at same
    · exact digit_inj small small' (List.cons.inj same).1
    · have lengths := congrArg List.length same
      have some := List.length_pos_iff.mpr (decimal_ne_nil (m / 10))
      simp only [List.length_append, List.length_singleton] at lengths
      omega
    · have lengths := congrArg List.length same
      have some := List.length_pos_iff.mpr (decimal_ne_nil (n / 10))
      simp only [List.length_append, List.length_singleton] at lengths
      omega
    · obtain ⟨high, low⟩ := List.append_inj' same rfl
      have tens := ih _ less high
      have ones := digit_inj (by omega) (by omega) (List.cons.inj low).1
      omega

theorem length_decimal {k : Nat} (fits : n < 10 ^ k) (some : 0 < k) : (decimal n).length ≤ k := by
  rw [decimal, ascii, List.length_map]
  exact Nat.toDigits_length 10 n k some fits

end Decimal

section Fields
variable {ip os fields s p : Bytes} {o : UInt8} {val digLen : Nat}

theorem dotted_cons (o : UInt8) (some : os ≠ []) : dotted (o :: os) = decimal o.toNat ++ DOT :: dotted os := by
  cases os with
  | nil => exact absurd rfl some
  | cons o' os => rfl

theorem dotted_ne_nil (some : os ≠ []) : dotted os ≠ [] := by
  cases os with
  | nil => exact absurd rfl some
  | cons o os =>
    cases os with
    | nil => exact decimal_ne_nil _
    | cons o' os => simp [dotted_cons]

theorem mem_dotted {c : UInt8} (member : c ∈ dotted os) : isDigit c = true ∨ c = DOT := by
  induction os with
  | nil => cases member
  | cons o os ih =>
    by_cases last : os = []
    · subst last
      exact .inl (isDigit_of_mem_decimal member)
    · rw [dotted_cons o last] at member
      rcases List.mem_append.mp member with first | later
      · exact .inl (isDigit_of_mem_decimal first)
      · rcases List.mem_cons.mp later with dot | later
        · exact .inr dot
        · exact ih later

structure Begun (val digLen : Nat) (p : Bytes) : Prop where
  length : digLen = p.length
  value : (p = [] ∧ val = 0) ∨ (p = decimal val ∧ val < 256)

theorem begun_nil : Begun 0 0 [] := ⟨rfl, .inl ⟨rfl, rfl⟩⟩

theorem Begun.plain (begun : Begun val digLen p) : DOT ∉ p := by
  rcases begun.value with ⟨rfl, _⟩ | ⟨rfl, _⟩
  · exact List.not_mem_nil
  · exact not_mem_decimal (by decide)

theorem Begun.snoc {d : Nat} (begun : Begun val digLen p) (small : d < 10) (fits : val * 10 + d < 256)
    (lead : ¬ (digLen = 1 ∧ val = 0)) : Begun (val * 10 + d) (digLen + 1) (p ++ [digit d]) := by
  obtain ⟨rfl, value⟩ := begun
  refine ⟨by simp, .inr ⟨?_, fits⟩⟩
  rcases value with ⟨rfl, rfl⟩ | ⟨same, _⟩
  · rw [Nat.zero_mul, Nat.zero_add, decimal_of_lt small]
    rfl
  · have some : 0 < val := by
      by_contra zero
      have zero : val = 0 := by omega
      rw [same, zero, decimal_of_lt (by decide)] at lead
      exact lead ⟨rfl, rfl⟩
    rw [decimal_snoc some small, same]

theorem Begun.goes {d : Nat} {q : Bytes} (begun : Begun val digLen p) (small : d < 10) (octet : o.toNat < 256)
    (whole : p ++ digit d :: q = decimal o.toNat) : val * 10 + d < 256 ∧ ¬ (digLen = 1 ∧ val = 0) := by
  have here : (p ++ [digit d]) ++ q = decimal o.toNat := by simpa using whole
  obtain ⟨m, same, bound, _⟩ := decimal_prefix here (by simp)
  obtain ⟨rfl, value⟩ := begun
  rcases value with ⟨rfl, rfl⟩ | ⟨rfl, _⟩
  · exact ⟨by omega, by simp⟩
  · obtain ⟨m', same', _, positive⟩ := decimal_prefix whole (decimal_ne_nil val)
    have some : 0 < val := by
      rw [decimal_injective same']
      exact positive (List.cons_ne_nil _ _)
    rw [← decimal_snoc some small] at same
    have value := decimal_injective same
    exact ⟨by omega, fun zero => by omega⟩

theorem Begun.octet (begun : Begun val digLen p) (some : p ≠ []) :
    p = decimal (UInt8.ofNat val).toNat ∧ (UInt8.ofNat val).toNat = val := by
  rcases begun.value with ⟨none, _⟩ | ⟨same, small⟩
  · exact absurd none some
  · have value : (UInt8.ofNat val).toNat = val := by
      rw [UInt8.toNat_ofNat']
      omega
    rw [value]
    exact ⟨same, rfl⟩

theorem Begun.octet_eq (begun : Begun val digLen p) (same : p = decimal o.toNat) : UInt8.ofNat val = o := by
  have some : p ≠ [] := same ▸ decimal_ne_nil _
  obtain ⟨here, value⟩ := begun.octet some
  apply UInt8.toNat_inj.mp
  exact decimal_injective (here.symm.trans same)

theorem parseIPv4Fields_iff (begun : Begun val digLen p) (few : fields.length ≤ 3)
    (goes : s = [] → p = [] → fields.length < 3) :
    parseIPv4Fields val digLen fields s = some ip ↔
      ∃ os, os ≠ [] ∧ ip = fields ++ os ∧ ip.length = 4 ∧ p ++ s = dotted os := by
  induction s generalizing val digLen fields p with
  | nil =>
    rw [parseIPv4Fields, List.append_nil]
    constructor
    · intro read
      split at read
      · cases read
      · rename_i enough
        cases read
        have some : p ≠ [] := fun none => enough (goes rfl none)
        exact ⟨[UInt8.ofNat val], List.cons_ne_nil _ _, rfl, by simp; omega, (begun.octet some).1⟩
    · rintro ⟨os, some, rfl, four, whole⟩
      cases os with
      | nil => exact absurd rfl some
      | cons o os =>
        by_cases last : os = []
        · subst last
          rw [List.length_append, List.length_singleton] at four
          rw [if_neg (by omega), begun.octet_eq whole]
        · rw [dotted_cons o last] at whole
          exact absurd (whole ▸ by simp) begun.plain
  | cons c rest ih =>
    rw [parseIPv4Fields]
    cases is_digit : isDigit c with
    | true =>
      obtain ⟨small, same⟩ := digit_of_isDigit is_digit
      generalize c.toNat - 48 = d at small same ⊢
      subst same
      have move : p ++ digit d :: rest = (p ++ [digit d]) ++ rest := by simp
      rw [if_pos rfl, move]
      constructor
      · intro read
        split at read
        · cases read
        · rename_i lead
          split at read
          · cases read
          · rename_i fits
            exact (ih (begun.snoc small (by omega) lead) few (by simp)).mp read
      · rintro ⟨os, some, rfl, four, whole⟩
        have inside : ∃ (o : UInt8) (q : Bytes), p ++ digit d :: q = decimal o.toNat := by
          cases os with
          | nil => exact absurd rfl some
          | cons o os =>
            by_cases last : os = []
            · subst last
              exact ⟨o, rest, by rw [move, whole]; rfl⟩
            · rw [dotted_cons o last] at whole
              rcases List.append_eq_append_iff.mp whole with ⟨q, here, _⟩ | ⟨q, here, there⟩
              · exact ⟨o, q, by rw [here]; simp⟩
              · cases q with
                | nil => exact ⟨o, [], by simpa using here⟩
                | cons dot q =>
                  have member : DOT ∈ p ++ [digit d] := by
                    rw [here, ← (List.cons.inj there).1]
                    simp
                  rcases List.mem_append.mp member with before | same
                  · exact absurd before begun.plain
                  · rw [← List.mem_singleton.mp same] at is_digit
                    exact absurd is_digit (by decide)
        obtain ⟨o, q, begins⟩ := inside
        obtain ⟨fits, lead⟩ := begun.goes small o.toNat_lt begins
        rw [if_neg lead, if_neg (by omega)]
        exact (ih (begun.snoc small fits lead) few (by simp)).mpr ⟨os, some, rfl, four, whole⟩
    | false =>
      rw [if_neg (by simp)]
      by_cases dot : c = DOT
      · subst dot
        rw [if_pos rfl]
        constructor
        · intro read
          split at read
          · cases read
          · rename_i both
            rw [not_or] at both
            split at read
            · cases read
            · rename_i room
              have some : p ≠ [] := by
                rintro rfl
                exact both.1 begun.length
              have shorter : (fields ++ [UInt8.ofNat val]).length ≤ 3 := by simp; omega
              obtain ⟨os, more, rfl, four, whole⟩ := (ih begun_nil shorter fun none => absurd none both.2).mp read
              rw [List.nil_append] at whole
              refine ⟨UInt8.ofNat val :: os, List.cons_ne_nil _ _, by simp, four, ?_⟩
              rw [dotted_cons _ more, ← whole, ← (begun.octet some).1]
        · rintro ⟨os, some, rfl, four, whole⟩
          cases os with
          | nil => exact absurd rfl some
          | cons o os =>
            by_cases last : os = []
            · subst last
              have member : DOT ∈ decimal o.toNat := by
                have all : p ++ DOT :: rest = decimal o.toNat := whole
                rw [← all]
                simp
              exact absurd member (not_mem_decimal (by decide))
            · rw [dotted_cons o last] at whole
              obtain ⟨here, rfl⟩ := append_sep_inj begun.plain (not_mem_decimal (by decide)) whole
              have begins : p ≠ [] := here ▸ decimal_ne_nil _
              have none : ¬ (digLen = 0 ∨ dotted os = []) := by
                rintro (zero | empty)
                · rw [begun.length] at zero
                  exact begins (List.length_eq_zero_iff.mp zero)
                · exact dotted_ne_nil last empty
              have others := List.length_pos_iff.mpr last
              rw [List.length_append, List.length_cons] at four
              rw [if_neg none, if_neg (by omega), begun.octet_eq here]
              refine (ih begun_nil (by simp; omega) fun empty => absurd empty (dotted_ne_nil last)).mpr ?_
              exact ⟨os, last, by simp, by simp; omega, rfl⟩
      · rw [if_neg dot]
        constructor
        · intro read
          cases read
        · rintro ⟨os, _, _, _, whole⟩
          have member : c ∈ dotted os := by
            rw [← whole]
            simp
          rcases mem_dotted member with digits | same
          · rw [digits] at is_digit
            cases is_digit
          · exact absurd same dot

theorem parseIPv4Fields_eq_some : parseIPv4Fields 0 0 [] s = some ip ↔ ip.length = 4 ∧ s = dotted ip := by
  have few : ([] : Bytes).length ≤ 3 := by decide
  rw [parseIPv4Fields_iff begun_nil few fun _ _ => by decide]
  constructor
  · rintro ⟨os, _, rfl, four, whole⟩
    exact ⟨four, whole⟩
  · rintro ⟨four, whole⟩
    refine ⟨ip, ?_, rfl, four, whole⟩
    rintro rfl
    cases four

end Fields

end Mailgw.Proxyproto
