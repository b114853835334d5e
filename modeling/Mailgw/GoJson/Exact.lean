import Mailgw.GoJson.Decode
import Mailgw.Json.Reading
import Mathlib.Data.Char
import Mathlib.Data.List.Forall2

namespace GoJson

open Json Text

section Names

def Simple (c : Char) : Prop := c.toNat < 0x10000 ∧ c ≠ replacement

instance (c : Char) : Decidable (Simple c) := inferInstanceAs (Decidable (_ ∧ _))

variable {c : Char} {s : Chars} {u : UInt16} {us : Units}

theorem chars_of_alone (alone : isHigh u = false) (us : Units) : chars (u :: us) = unitChar u :: chars us := by
  cases us with
  | nil => rfl
  | cons low rest => rw [chars, alone, Bool.false_and, if_neg Bool.false_ne_true]

theorem unit_of_char (small : c.toNat < 0x10000) :
    isHigh (UInt16.ofNat c.toNat) = false ∧ unitChar (UInt16.ofNat c.toNat) = c := by
  have valid : c.toNat < 0xd800 ∨ 0xdfff < c.toNat ∧ c.toNat < 0x110000 := c.valid
  have code : (UInt16.ofNat c.toNat).toNat = c.toNat := by
    rw [UInt16.toNat_ofNat']
    omega
  have high : isHigh (UInt16.ofNat c.toNat) = false := by
    rw [isHigh, code]
    simp only [Bool.and_eq_false_iff, decide_eq_false_iff_not]
    omega
  have low : isLow (UInt16.ofNat c.toNat) = false := by
    rw [isLow, code]
    simp only [Bool.and_eq_false_iff, decide_eq_false_iff_not]
    omega
  refine ⟨high, ?_⟩
  rw [unitChar, high, low, code, Char.ofNat_toNat]
  rfl

theorem unit_of_unitChar (other : unitChar u ≠ replacement) :
    u = UInt16.ofNat (unitChar u).toNat := by
  unfold unitChar at other ⊢
  split
  · rename_i surrogate
    rw [if_pos surrogate] at other
    exact absurd rfl other
  · rename_i plain
    have bounds := u.toNat_lt
    simp only [isHigh, isLow, Bool.or_eq_true, Bool.and_eq_true, decide_eq_true_eq, not_or, not_and] at plain
    rw [toNat_ofNat (by omega), UInt16.ofNat_toNat]

theorem chars_eq_iff (simple : ∀ c ∈ s, Simple c) : chars us = s ↔ us = unitsOf s := by
  constructor
  · intro same
    induction us using chars.induct generalizing s with
    | case1 => rw [← same]; rfl
    | case2 u =>
      have plain := simple (unitChar u) (by rw [← same]; exact List.mem_singleton_self _)
      have unit := unit_of_unitChar plain.2
      rw [← same, chars, unitsOf, List.flatMap_singleton, charUnits_of_small plain.1, ← unit]
    | case3 high low rest pair ih =>
      obtain ⟨first, second⟩ := Bool.and_eq_true_iff.mp pair
      have large := le_pairChar first second
      rw [chars, if_pos pair] at same
      have plain := simple (pairChar high low) (by rw [← same]; exact List.mem_cons_self)
      exact absurd plain.1 (Nat.not_lt.mpr large)
    | case4 high low rest apart ih =>
      rw [chars, if_neg apart] at same
      subst same
      obtain ⟨plain, others⟩ := List.forall_mem_cons.mp simple
      have unit := unit_of_unitChar plain.2
      rw [unitsOf, List.flatMap_cons, charUnits_of_small plain.1, ← unit, List.singleton_append]
      exact congrArg _ (ih others rfl)
  · rintro rfl
    induction s with
    | nil => rfl
    | cons c s ih =>
      obtain ⟨plain, others⟩ := List.forall_mem_cons.mp simple
      obtain ⟨alone, unit⟩ := unit_of_char plain.1
      rw [unitsOf, List.flatMap_cons, charUnits_of_small plain.1, List.singleton_append, chars_of_alone alone, unit]
      exact congrArg _ (ih others)

end Names

section Members
variable {α β : Type} {fields : List (StructField α)} {name : Chars} {view : α → β} {read : Tree → β → Option β}
  {ms : List (Units × Tree)} {x y : α}

/-- The value of a key. Of several members the last counts. -/
def valueUnder (ms : List (Units × Tree)) (key : Units) : Option Tree := (ms.reverse.find? fun m => m.1 = key).map Prod.snd

def taken (fields : List (StructField α)) (name : Chars) (ms : List (Units × Tree)) : List (Units × Tree) :=
  ms.filter fun m => (fieldOf fields m.1).map StructField.name = some name

/-- Every field is decoded from one member at most, and its name is spelled exactly. -/
def Spelled (fields : List (StructField α)) (ms : List (Units × Tree)) : Prop :=
  ∀ f ∈ fields, (taken fields f.name ms).map Prod.fst = [] ∨ (taken fields f.name ms).map Prod.fst = [unitsOf f.name]

def Reads (fields : List (StructField α)) (name : Chars) (view : α → β) (read : Tree → β → Option β) : Prop :=
  ∀ f ∈ fields, ∀ v x y, f.decode v x = some y → if f.name = name then read v (view x) = some (view y) else view y = view x

theorem Reads.nil : Reads [] name view read := List.forall_mem_nil _

theorem Reads.own {set : β → α → α} (same : ∀ b x, view (set b x) = b) (rest : Reads fields name view read) :
    Reads (⟨name, fun t x => (read t (view x)).map fun b => set b x⟩ :: fields) name view read := by
  refine List.forall_mem_cons.mpr ⟨fun v x y decoded => ?_, rest⟩
  obtain ⟨b, here, rfl⟩ := Option.map_eq_some_iff.mp decoded
  rw [if_pos rfl, same]
  exact here

theorem Reads.other {γ : Type} {name' : Chars} {read' : Tree → α → Option γ} {set : γ → α → α} (apart : name' ≠ name)
    (same : ∀ b x, view (set b x) = view x) (rest : Reads fields name view read) :
    Reads (⟨name', fun t x => (read' t x).map fun b => set b x⟩ :: fields) name view read := by
  refine List.forall_mem_cons.mpr ⟨fun v x y decoded => ?_, rest⟩
  obtain ⟨b, here, rfl⟩ := Option.map_eq_some_iff.mp decoded
  rw [if_neg apart, same]

theorem foldlM_taken (reads : Reads fields name view read) (decoded : decodeMembers fields ms x = some y) :
    (taken fields name ms).foldlM (fun b m => read m.2 b) (view x) = some (view y) := by
  induction ms generalizing x with
  | nil =>
    obtain rfl := Option.some.inj decoded
    rfl
  | cons m ms ih =>
    obtain ⟨key, v⟩ := m
    rw [decodeMembers] at decoded
    cases found : fieldOf fields key with
    | none =>
      rw [found] at decoded
      have other : taken fields name ((key, v) :: ms) = taken fields name ms := by simp [taken, found]
      rw [other]
      exact ih decoded
    | some f =>
      rw [found] at decoded
      obtain ⟨x', here, rest⟩ := Option.bind_eq_some_iff.mp decoded
      have step := reads f (List.mem_of_find?_eq_some found) v x x' here
      by_cases own : f.name = name
      · rw [if_pos own] at step
        have first : taken fields name ((key, v) :: ms) = (key, v) :: taken fields name ms := by simp [taken, found, own]
        rw [first, List.foldlM_cons]
        change (read v (view x)).bind _ = _
        rw [step]
        exact ih rest
      · rw [if_neg own] at step
        have other : taken fields name ((key, v) :: ms) = taken fields name ms := by simp [taken, found, own]
        rw [other, ← step]
        exact ih rest

theorem valueUnder_of_spelled (own : (fieldOf fields (unitsOf name)).map StructField.name = some name)
    (spelled : (taken fields name ms).map Prod.fst = [] ∨ (taken fields name ms).map Prod.fst = [unitsOf name]) :
    (taken fields name ms).map Prod.snd = (valueUnder ms (unitsOf name)).toList := by
  have there (m : Units × Tree) (member : m ∈ ms) (key : m.1 = unitsOf name) : m ∈ taken fields name ms := by
    apply List.mem_filter.mpr
    rw [key]
    exact ⟨member, decide_eq_true own⟩
  unfold valueUnder
  rcases spelled with nil_ | one
  · have empty : taken fields name ms = [] := List.map_eq_nil_iff.mp nil_
    have nobody : (ms.reverse.find? fun m => m.1 = unitsOf name) = none := by
      apply List.find?_eq_none.mpr
      intro m member key
      have inside := there m (List.mem_reverse.mp member) (of_decide_eq_true key)
      rw [empty] at inside
      cases inside
    rw [empty, nobody]
    rfl
  · obtain ⟨m, single, key⟩ := List.map_eq_singleton_iff.mp one
    have member : m ∈ ms := List.mem_of_mem_filter (by rw [← taken, single]; exact List.mem_singleton_self m)
    cases found : ms.reverse.find? fun m => m.1 = unitsOf name with
    | none => exact absurd (decide_eq_true key) (List.find?_eq_none.mp found m (List.mem_reverse.mpr member))
    | some m' =>
      have key' : m'.1 = unitsOf name := by simpa using List.find?_some found
      have inside := there m' (List.mem_reverse.mp (List.mem_of_find?_eq_some found)) key'
      rw [single, List.mem_singleton] at inside
      rw [single, inside]
      rfl

theorem field_of_spelled (reads : Reads fields name view read)
    (own : (fieldOf fields (unitsOf name)).map StructField.name = some name)
    (spelled : (taken fields name ms).map Prod.fst = [] ∨ (taken fields name ms).map Prod.fst = [unitsOf name])
    (decoded : decodeMembers fields ms x = some y) :
    (valueUnder ms (unitsOf name) = none ∧ view y = view x) ∨
      ∃ v, valueUnder ms (unitsOf name) = some v ∧ read v (view x) = some (view y) := by
  have folded := foldlM_taken reads decoded
  have values := valueUnder_of_spelled own spelled
  have mapped : (taken fields name ms).foldlM (fun b m => read m.2 b) (view x) =
      ((taken fields name ms).map Prod.snd).foldlM (fun b v => read v b) (view x) := by
    rw [List.foldlM_map]
  rw [mapped, values] at folded
  cases found : valueUnder ms (unitsOf name) with
  | none =>
    rw [found] at folded
    exact .inl ⟨rfl, (Option.some.inj folded).symm⟩
  | some v =>
    rw [found] at folded
    refine .inr ⟨v, rfl, ?_⟩
    simpa using folded

end Members

section Slices
variable {α : Type} {element : Decoder α} {zero : α} {t : Tree} {ts : List Tree} {s : Slice α}

theorem decodeElements_fresh {xs : List α} (decoded : decodeElements element zero ts [] = some xs) :
    List.Forall₂ (fun t x => element t zero = some x) ts xs := by
  induction ts generalizing xs with
  | nil =>
    obtain rfl := Option.some.inj decoded
    exact .nil
  | cons t ts ih =>
    obtain ⟨x, here, rest⟩ := Option.bind_eq_some_iff.mp decoded
    obtain ⟨xs, below, rfl⟩ := Option.map_eq_some_iff.mp rest
    exact .cons here (ih below)

theorem elements_of_fresh (decoded : sliceInto element zero t .empty = some s) :
    (t = .null ∧ s.elements = []) ∨ ∃ ts, t = .arr ts ∧ List.Forall₂ (fun t x => element t zero = some x) ts s.elements := by
  cases t with
  | null =>
    obtain rfl := Option.some.inj decoded
    exact .inl ⟨rfl, rfl⟩
  | arr ts =>
    cases ts with
    | nil =>
      obtain rfl := Option.some.inj decoded
      exact .inr ⟨[], rfl, .nil⟩
    | cons t ts =>
      rw [sliceInto] at decoded
      split at decoded
      · cases decoded
      · rename_i xs read
        obtain rfl := Option.some.inj decoded
        have each := decodeElements_fresh read
        refine .inr ⟨t :: ts, rfl, ?_⟩
        have whole : xs.take (t :: ts).length = xs := by rw [each.length_eq, List.take_length]
        rw [Slice.elements]
        dsimp only
        rw [whole]
        exact each
  | bool b => cases decoded
  | num token => cases decoded
  | str u => cases decoded
  | obj members => cases decoded

end Slices

end GoJson
