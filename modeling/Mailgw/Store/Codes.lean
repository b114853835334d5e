import Mailgw.Store.Claims
import Mailgw.Text.Letters
import Mailgw.Text.Utf8

namespace Mailgw.Store

open Calls Queue Text

section Minting

def claimAlphabet : Name := "0123456789ABCDEFGHJKMNPQRSTVWXYZ".toList

def claimCodeLen : Nat := 20

theorem claimAlphabet_pos : 0 < claimAlphabet.length := by decide

def claimLetter (b : UInt8) : Char := claimAlphabet.get ⟨b.toNat % claimAlphabet.length, Nat.mod_lt _ claimAlphabet_pos⟩

def claimLetters (i : Nat) : List UInt8 → Name
  | [] => []
  | b :: rest => (if 0 < i ∧ i % 5 = 0 then ['-', claimLetter b] else [claimLetter b]) ++ claimLetters (i + 1) rest

def newClaimCode (raw : Vector UInt8 claimCodeLen) : Name := claimLetters 0 raw.toList

end Minting

def normalizeClaimBytes (presented : List UInt8) : List UInt8 := ascii (normalizeClaimCode (runes presented))

section Symbols
variable {c d : Char} {s t : Name}

def upperOf (c : Char) : Char := if c.toNat = 0x131 then 'I' else if c.toNat = 0x17f then 'S' else c.toUpper

def foldedOf (c : Char) : Option Char :=
  let c := if c = 'I' ∨ c = 'L' then '1' else if c = 'O' then '0' else c
  if (c < '0' ∨ '9' < c) ∧ (c < 'A' ∨ 'Z' < c) then none else some c

def symbolOf (c : Char) : Option Char := foldedOf (upperOf c)

def grouped (n : Nat) : Name → Name
  | [] => []
  | c :: rest => (if 0 < n ∧ n % 5 = 0 then ['-', c] else [c]) ++ grouped (n + 1) rest

theorem claimDigit_eq (n : Nat) (c : Char) :
    claimDigit n c = (foldedOf c).map fun d => if 0 < n ∧ n % 5 = 0 then ['-', d] else [d] := by
  unfold claimDigit foldedOf
  dsimp only
  generalize (if c = 'I' ∨ c = 'L' then '1' else if c = 'O' then '0' else c) = d
  split <;> rfl

theorem claimDigits_upper (n : Nat) (s : Name) : claimDigits n (upper s) = grouped n (s.filterMap symbolOf) := by
  induction s generalizing n with
  | nil => rfl
  | cons c s ih =>
    have first : upper (c :: s) = upperOf c :: upper s := rfl
    rw [first, claimDigits, claimDigit_eq, ← symbolOf]
    cases read : symbolOf c with
    | none =>
      rw [List.filterMap_cons_none read]
      exact ih n
    | some d =>
      rw [List.filterMap_cons_some read, grouped, ← ih (n + 1)]
      rfl

theorem of_small (p : Char → Bool) (all : ((List.range 128).all fun n => p (Char.ofNat n)) = true) (small : c.toNat < 128) :
    p c = true := by
  have here := List.all_eq_true.mp all c.toNat (List.mem_range.mpr small)
  rwa [Char.ofNat_toNat] at here

theorem foldedOf_large (large : 128 ≤ c.toNat) : foldedOf c = none := by
  have apart (d : Char) (low : d.toNat < 128) : c ≠ d := by
    intro same
    rw [same] at large
    omega
  have above (d : Char) (low : d.toNat < 128) : d < c := by
    show d.toNat < c.toNat
    omega
  unfold foldedOf
  rw [if_neg (not_or.mpr ⟨apart 'I' (by decide), apart 'L' (by decide)⟩), if_neg (apart 'O' (by decide))]
  exact if_pos ⟨.inr (above '9' (by decide)), .inr (above 'Z' (by decide))⟩

theorem toUpper_large (large : 128 ≤ c.toNat) : c.toUpper = c := by
  have above : ¬(c.val ≥ 'a'.val ∧ c.val ≤ 'z'.val) := by
    intro between
    have high : c.toNat ≤ 122 := between.2
    omega
  exact dif_neg above

/-- Beyond ASCII, nothing is read but the dotless i and the long s. -/
theorem symbolOf_large (large : 128 ≤ c.toNat) (dotless : c.toNat ≠ 0x131) (long : c.toNat ≠ 0x17f) : symbolOf c = none := by
  rw [symbolOf, upperOf, if_neg dotless, if_neg long, toUpper_large large]
  exact foldedOf_large large

theorem symbolOf_read (read : symbolOf c = some d) : symbolOf d = some d ∧ d.toNat < 128 := by
  by_cases small : (upperOf c).toNat < 128
  · have here := of_small (fun c => (foldedOf c).all fun d => decide (symbolOf d = some d ∧ d.toNat < 128))
      (by decide) small
    rw [← symbolOf, read] at here
    exact of_decide_eq_true here
  · rw [symbolOf, foldedOf_large (Nat.not_lt.mp small)] at read
    cases read

theorem symbolOf_space (space : isSpace c = true) : symbolOf c = none := by
  by_cases small : c.toNat < 128
  · have here := of_small (fun c => !isSpace c || decide (symbolOf c = none)) (by decide) small
    rw [space] at here
    exact of_decide_eq_true here
  · apply symbolOf_large (Nat.not_lt.mp small)
    · intro dotless
      simp [isSpace, dotless] at space
    · intro long
      simp [isSpace, long] at space

theorem filterMap_dropWhile {p : Char → Bool} {f : Char → Option Char} (none : ∀ c, p c = true → f c = none) (s : Name) :
    (s.dropWhile p).filterMap f = s.filterMap f := by
  induction s with
  | nil => rfl
  | cons c s ih =>
    cases first : p c with
    | false => rw [List.dropWhile_cons_of_neg (by rw [first]; exact Bool.false_ne_true)]
    | true => rw [List.dropWhile_cons_of_pos first, List.filterMap_cons_none (none c first), ih]

theorem filterMap_trimSpace (s : Name) : (trimSpace s).filterMap symbolOf = s.filterMap symbolOf := by
  rw [trimSpace, List.filterMap_reverse, filterMap_dropWhile (fun _ => symbolOf_space), ← List.filterMap_reverse,
    List.reverse_reverse, filterMap_dropWhile fun _ => symbolOf_space]

theorem normalizeClaimCode_eq (s : Name) : normalizeClaimCode s = grouped 0 (s.filterMap symbolOf) := by
  rw [normalizeClaimCode, claimDigits_upper, filterMap_trimSpace]

example : normalizeClaimCode " ibcde LGHJk-o\n".toList = "1BCDE-1GHJK-0".toList := by decide

theorem filterMap_grouped (read : ∀ d ∈ s, symbolOf d = some d) (n : Nat) : (grouped n s).filterMap symbolOf = s := by
  have dash : symbolOf '-' = none := by decide
  induction s generalizing n with
  | nil => rfl
  | cons d s ih =>
    obtain ⟨first, others⟩ := List.forall_mem_cons.mp read
    rw [grouped, List.filterMap_append, ih others]
    split
    · rw [List.filterMap_cons_none dash, List.filterMap_cons_some first]
      rfl
    · rw [List.filterMap_cons_some first]
      rfl

theorem symbols_of_filterMap (s : Name) : ∀ d ∈ s.filterMap symbolOf, symbolOf d = some d ∧ d.toNat < 128 := by
  intro d member
  obtain ⟨c, -, read⟩ := List.mem_filterMap.mp member
  exact symbolOf_read read

/-- Two codes are normalised to the same if the same is read of both. -/
theorem normalizeClaimCode_iff : normalizeClaimCode s = normalizeClaimCode t ↔ s.filterMap symbolOf = t.filterMap symbolOf := by
  have symbols (s : Name) : ∀ d ∈ s.filterMap symbolOf, symbolOf d = some d := fun d member => (symbols_of_filterMap s d member).1
  rw [normalizeClaimCode_eq, normalizeClaimCode_eq]
  constructor
  · intro same
    rw [← filterMap_grouped (symbols s) 0, same, filterMap_grouped (symbols t)]
  · intro same
    rw [same]

end Symbols

section Codes
variable {s t : Name} {i : Nat}

theorem claimLetter_read (b : UInt8) : symbolOf (claimLetter b) = some (claimLetter b) := by
  have all : (claimAlphabet.all fun c => decide (symbolOf c = some c)) = true := by decide
  exact of_decide_eq_true (List.all_eq_true.mp all _ (List.get_mem _ _))

theorem claimLetters_eq (i : Nat) (raw : List UInt8) : claimLetters i raw = grouped i (raw.map claimLetter) := by
  induction raw generalizing i with
  | nil => rfl
  | cons b raw ih => rw [claimLetters, List.map_cons, grouped, ih]

theorem normalizeClaimCode_newClaimCode (raw : Vector UInt8 claimCodeLen) :
    normalizeClaimCode (newClaimCode raw) = newClaimCode raw := by
  have read : ∀ d ∈ raw.toList.map claimLetter, symbolOf d = some d := by
    intro d member
    obtain ⟨b, -, rfl⟩ := List.mem_map.mp member
    exact claimLetter_read b
  rw [normalizeClaimCode_eq, newClaimCode, claimLetters_eq, filterMap_grouped read]

theorem newClaimCode_ne_nil (raw : Vector UInt8 claimCodeLen) : newClaimCode raw ≠ [] := by
  have length : raw.toList.length = 20 := raw.length_toList
  intro empty
  unfold newClaimCode at empty
  cases bytes : raw.toList with
  | nil =>
    rw [bytes] at length
    cases length
  | cons b rest =>
    rw [bytes, claimLetters] at empty
    cases empty

theorem grouped_small (small : ∀ d ∈ s, d.toNat < 128) (n : Nat) : ∀ d ∈ grouped n s, d.toNat < 128 := by
  induction s generalizing n with
  | nil => exact List.forall_mem_nil _
  | cons c s ih =>
    obtain ⟨first, others⟩ := List.forall_mem_cons.mp small
    intro d member
    rcases List.mem_append.mp member with here | later
    · split at here
      · rcases List.mem_pair.mp here with rfl | rfl
        · decide
        · exact first
      · rw [List.mem_singleton.mp here]
        exact first
    · exact ih others (n + 1) d later

theorem normalizeClaimCode_small (s : Name) : ∀ d ∈ normalizeClaimCode s, d.toNat < 128 := by
  rw [normalizeClaimCode_eq]
  exact grouped_small (fun d member => (symbols_of_filterMap s d member).2) 0

theorem newClaimCode_small (raw : Vector UInt8 claimCodeLen) : ∀ d ∈ newClaimCode raw, d.toNat < 128 := by
  rw [← normalizeClaimCode_newClaimCode]
  exact normalizeClaimCode_small _

end Codes

section Bytes
variable {s : Name}

theorem runes_ascii (small : ∀ c ∈ s, c.toNat < 128) : runes (ascii s) = s := by
  induction s with
  | nil => rfl
  | cons c s ih =>
    obtain ⟨first, others⟩ := List.forall_mem_cons.mp small
    have code : (UInt8.ofNat c.toNat).toNat = c.toNat := by
      rw [UInt8.toNat_ofNat']
      omega
    have low : UInt8.ofNat c.toNat < 0x80 := by
      rw [UInt8.lt_iff_toNat_lt, code]
      exact first
    have head : decodeRune (UInt8.ofNat c.toNat :: ascii s) = (Char.ofNat (UInt8.ofNat c.toNat).toNat, 1) := if_pos low
    rw [code, Char.ofNat_toNat] at head
    have cons : ascii (c :: s) = UInt8.ofNat c.toNat :: ascii s := rfl
    rw [cons, runes, runesFrom, head]
    exact congrArg _ (ih others)

theorem runes_newClaimCode (raw : Vector UInt8 claimCodeLen) : runes (ascii (newClaimCode raw)) = newClaimCode raw :=
  runes_ascii (newClaimCode_small raw)

theorem normalizeClaimBytes_idem (presented : List UInt8) :
    normalizeClaimBytes (normalizeClaimBytes presented) = normalizeClaimBytes presented := by
  have read : normalizeClaimCode (normalizeClaimCode (runes presented)) = normalizeClaimCode (runes presented) := by
    rw [normalizeClaimCode_iff, normalizeClaimCode_eq]
    exact filterMap_grouped (fun d member => (symbols_of_filterMap _ d member).1) 0
  rw [normalizeClaimBytes, normalizeClaimBytes, runes_ascii (normalizeClaimCode_small _), read]

theorem normalizeClaimBytes_newClaimCode (raw : Vector UInt8 claimCodeLen) :
    normalizeClaimBytes (ascii (newClaimCode raw)) = ascii (newClaimCode raw) := by
  rw [normalizeClaimBytes, runes_newClaimCode, normalizeClaimCode_newClaimCode]

end Bytes

section Typing
variable {c : Char} {s t stored : Name}

/-- Neither a letter nor a digit. Of the letters beyond ASCII, only the two that have a capital in it need to count as such. -/
def Neither (c : Char) : Prop := c.isAlphanum = false ∧ c.toNat ≠ 0x131 ∧ c.toNat ≠ 0x17f

/-- A character is typed in the other case, one that is neither a letter nor a digit is added, or a digit is meant by a letter. -/
inductive Retyped : Name → Name → Prop
  | case {c d : Char} (front back : Name) (same : c.toLower = d.toLower) : Retyped (front ++ c :: back) (front ++ d :: back)
  | added {c : Char} (front back : Name) (neither : Neither c) : Retyped (front ++ back) (front ++ c :: back)
  | one {c : Char} (front back : Name) (alike : c = 'I' ∨ c = 'L') : Retyped (front ++ '1' :: back) (front ++ c :: back)
  | zero (front back : Name) : Retyped (front ++ '0' :: back) (front ++ 'O' :: back)

def Alike : Name → Name → Prop := Relation.EqvGen Retyped

theorem symbolOf_toLower (c : Char) : symbolOf c.toLower = symbolOf c := by
  by_cases small : c.toNat < 128
  · exact of_decide_eq_true (of_small (fun c => decide (symbolOf c.toLower = symbolOf c)) (by decide) small)
  · have same : c.toLower = c := by
      apply dif_neg
      intro between
      have high : c.toNat ≤ 90 := between.2
      omega
    rw [same]

theorem symbolOf_neither (neither : Neither c) : symbolOf c = none := by
  obtain ⟨other, dotless, long⟩ := neither
  by_cases small : c.toNat < 128
  · have here := of_small (fun c => c.isAlphanum || decide (symbolOf c = none)) (by decide) small
    rw [other] at here
    exact of_decide_eq_true here
  · exact symbolOf_large (Nat.not_lt.mp small) dotless long

theorem filterMap_swap {c d : Char} (front back : Name) (same : symbolOf c = symbolOf d) :
    (front ++ c :: back).filterMap symbolOf = (front ++ d :: back).filterMap symbolOf := by
  rw [List.filterMap_append, List.filterMap_append, List.filterMap_cons, List.filterMap_cons, same]

theorem Retyped.read (retyped : Retyped s t) : s.filterMap symbolOf = t.filterMap symbolOf := by
  cases retyped with
  | case front back same =>
    apply filterMap_swap
    rw [← symbolOf_toLower, same, symbolOf_toLower]
  | added front back neither =>
    rw [List.filterMap_append, List.filterMap_append, List.filterMap_cons_none (symbolOf_neither neither)]
  | one front back alike =>
    apply filterMap_swap
    rcases alike with rfl | rfl
    · decide
    · decide
  | zero front back =>
    apply filterMap_swap
    decide

theorem normalizeClaimCode_alike (alike : Alike s t) : normalizeClaimCode s = normalizeClaimCode t := by
  apply normalizeClaimCode_iff.mpr
  induction alike with
  | rel s t retyped => exact retyped.read
  | refl s => rfl
  | symm s t _ ih => exact ih.symm
  | trans s t u _ _ first second => exact first.trans second

def Answered (stored : Name) : Signing → Prop
  | ⟨.readCode, code⟩ => code = some stored
  | ⟨.readClaimed, claimed⟩ => claimed ≠ none
  | ⟨.writeClaimed, written⟩ => written = true
  | _ => True

theorem checkClaimCode_right {events : List Signing} {right : Option Bool} (some_ : stored ≠ [])
    (same : normalizeClaimCode s = stored) (trace : Trace (checkClaimCode s) events right)
    (answered : ∀ event ∈ events, Answered stored event) : right = some true := by
  obtain ⟨code, later, rfl, checking⟩ := trace.ask_inv
  obtain ⟨read, answered'⟩ := List.forall_mem_cons.mp answered
  obtain rfl : code = some stored := read
  dsimp only at checking
  rw [if_neg some_, if_neg (not_not.mpr same)] at checking
  obtain ⟨claimed, last, rfl, claiming⟩ := checking.ask_inv
  obtain ⟨known, answered''⟩ := List.forall_mem_cons.mp answered'
  match claimed with
  | none => exact absurd rfl known
  | some (some time) => exact claiming.done_inv.2
  | some none =>
    obtain ⟨written, none_, rfl, writing⟩ := claiming.ask_inv
    obtain rfl : written = true := (List.forall_mem_cons.mp answered'').1
    exact writing.done_inv.2

/-- What is normalised stays so and so does every minted code, codes that differ in how they are typed are the same, and a minted
    code that is typed in any such way is accepted. -/
theorem claim_codes :
    (∀ presented, normalizeClaimBytes (normalizeClaimBytes presented) = normalizeClaimBytes presented) ∧
      (∀ raw, normalizeClaimBytes (ascii (newClaimCode raw)) = ascii (newClaimCode raw)) ∧
      (∀ raw raw', newClaimCode raw ≠ newClaimCode raw' →
        normalizeClaimBytes (ascii (newClaimCode raw)) ≠ normalizeClaimBytes (ascii (newClaimCode raw'))) ∧
      (∀ presented presented', Alike (runes presented) (runes presented') →
        normalizeClaimBytes presented = normalizeClaimBytes presented') ∧
      ∀ raw presented events right, Alike (newClaimCode raw) (runes presented) →
        Trace (checkClaimCode (runes presented)) events right → (∀ event ∈ events, Answered (newClaimCode raw) event) →
        right = some true := by
  refine ⟨normalizeClaimBytes_idem, normalizeClaimBytes_newClaimCode, ?_, ?_, ?_⟩
  · intro raw raw' apart same
    rw [normalizeClaimBytes_newClaimCode, normalizeClaimBytes_newClaimCode] at same
    have read := congrArg runes same
    rw [runes_newClaimCode, runes_newClaimCode] at read
    exact apart read
  · intro presented presented' alike
    rw [normalizeClaimBytes, normalizeClaimBytes, normalizeClaimCode_alike alike]
  · intro raw presented events right alike trace answered
    have same : normalizeClaimCode (runes presented) = newClaimCode raw := by
      rw [← normalizeClaimCode_alike alike, normalizeClaimCode_newClaimCode]
    exact checkClaimCode_right (newClaimCode_ne_nil raw) same trace answered

def typedOnes : Name := "l1111-11111-11111-11111".toList

theorem newClaimCode_ones : newClaimCode (Vector.replicate claimCodeLen 1) = "11111-11111-11111-11111".toList := by
  decide

theorem typedOnes_alike : Alike (newClaimCode (Vector.replicate claimCodeLen 1)) typedOnes := by
  rw [newClaimCode_ones]
  have mistaken : Retyped "11111-11111-11111-11111".toList "L1111-11111-11111-11111".toList :=
    .one [] "1111-11111-11111-11111".toList (.inr rfl)
  have small : Retyped "L1111-11111-11111-11111".toList typedOnes :=
    .case [] "1111-11111-11111-11111".toList (by decide)
  exact .trans _ _ _ (.rel _ _ mistaken) (.rel _ _ small)

theorem claim_codes_sample :
    normalizeClaimBytes (ascii typedOnes) = ascii (newClaimCode (Vector.replicate claimCodeLen 1)) ∧
    (∃ events, Trace (checkClaimCode (runes (ascii typedOnes))) events (some true) ∧ ⟨.writeClaimed, true⟩ ∈ events) ∧
    ∀ events right, Trace (checkClaimCode (runes (ascii typedOnes))) events right →
      (∀ event ∈ events, Answered (newClaimCode (Vector.replicate claimCodeLen 1)) event) → right = some true := by
  obtain ⟨-, minted, -, alike, accepted⟩ := claim_codes
  have small : typedOnes.all (fun c => decide (c.toNat < 128)) = true := by decide
  have typed : runes (ascii typedOnes) = typedOnes :=
    runes_ascii fun c mem => of_decide_eq_true (List.all_eq_true.mp small c mem)
  have same : Alike (newClaimCode (Vector.replicate claimCodeLen 1)) (runes (ascii typedOnes)) := by
    rw [typed]
    exact typedOnes_alike
  refine ⟨?_, ?_, fun events right => accepted (Vector.replicate claimCodeLen 1) (ascii typedOnes) events right same⟩
  · rw [← minted (Vector.replicate claimCodeLen 1)]
    exact (alike _ _ ((runes_newClaimCode (Vector.replicate claimCodeLen 1)).symm ▸ same)).symm
  · have trace : Trace (checkClaimCode (runes (ascii typedOnes)))
        [⟨.readCode, some (newClaimCode (Vector.replicate claimCodeLen 1))⟩, ⟨.readClaimed, some none⟩,
          ⟨.writeClaimed, true⟩] (some true) :=
      Trace.of_replay (by decide)
    exact ⟨_, trace, by simp⟩

end Typing

end Mailgw.Store
