import Mathlib.Computability.Language

namespace Wildcards

variable {α β : Type}

inductive Piece (α : Type) where
  | lit (a : α)
  | one
  | many
  deriving Repr, DecidableEq

def Piece.map (f : α → β) : Piece α → Piece β
  | .lit a => .lit (f a)
  | .one => .one
  | .many => .many

/-- The words of a piece. Wildcards stand for some of the letters only. -/
def Piece.language (ok : α → Prop) : Piece α → Language α
  | .lit a => {[a]}
  | .one => {w | ∃ a, ok a ∧ w = [a]}
  | .many => {w | ∀ a ∈ w, ok a}

def Piece.Takes (ok : α → Prop) : Piece α → α → Prop
  | .lit b, a => b = a
  | .one, a => ok a
  | .many, _ => False

def sequence (ok : α → Prop) (ps : List (Piece α)) : Language α := (ps.map (Piece.language ok)).prod

inductive Glob (α : Type) where
  | empty
  | piece (p : Piece α)
  | cat (a b : Glob α)
  | union (a b : Glob α)
  deriving Repr, DecidableEq

def Glob.denote (den : Piece α → Language β) : Glob α → Language β
  | .empty => 1
  | .piece p => den p
  | .cat a b => a.denote den * b.denote den
  | .union a b => a.denote den + b.denote den

def flat (den : Piece α → Language β) (ps : List (Piece α)) : Language β := (ps.map den).prod

theorem flat_append (den : Piece α → Language β) (ps qs : List (Piece α)) : flat den (ps ++ qs) = flat den ps * flat den qs := by
  simp [flat]

theorem mem_sum_map {ι : Type} (L : ι → Language α) (items : List ι) (w : List α) :
    w ∈ (items.map L).sum ↔ ∃ i ∈ items, w ∈ L i := by
  induction items with
  | nil => simp
  | cons i items ih => rw [List.map_cons, List.sum_cons, Language.mem_add, ih, List.exists_mem_cons_iff]

section Sequences
variable {ok : α → Prop} {p : Piece α} {ps seg : List (Piece α)} {a : α} {w : List α}

@[simp] theorem mem_sequence_nil : w ∈ sequence ok [] ↔ w = [] := by simp [sequence]

theorem mem_sequence_cons : w ∈ sequence ok (p :: ps) ↔ ∃ u ∈ p.language ok, ∃ v ∈ sequence ok ps, u ++ v = w := by
  rw [sequence, List.map_cons, List.prod_cons, Language.mem_mul]
  rfl

theorem mem_sequence_many :
    w ∈ sequence ok (.many :: ps) ↔ ∃ u v, (∀ a ∈ u, ok a) ∧ v ∈ sequence ok ps ∧ u ++ v = w := by
  rw [mem_sequence_cons]
  constructor
  · intro ⟨u, wild, v, rest, whole⟩
    exact ⟨u, v, wild, rest, whole⟩
  · intro ⟨u, v, wild, rest, whole⟩
    exact ⟨u, wild, v, rest, whole⟩

theorem mem_sequence_single (single : p ≠ .many) :
    w ∈ sequence ok (p :: ps) ↔ ∃ a v, p.Takes ok a ∧ v ∈ sequence ok ps ∧ w = a :: v := by
  have letter : ∀ u, u ∈ p.language ok ↔ ∃ a, p.Takes ok a ∧ u = [a] := by
    intro u
    cases p with
    | lit b => exact ⟨fun same => ⟨b, rfl, same⟩, fun ⟨a, same, word⟩ => by rw [word, ← same]; rfl⟩
    | one => exact Iff.rfl
    | many => exact absurd rfl single
  rw [mem_sequence_cons]
  constructor
  · intro ⟨u, member, v, rest, whole⟩
    obtain ⟨a, takes, rfl⟩ := (letter u).mp member
    exact ⟨a, v, takes, rest, whole.symm⟩
  · intro ⟨a, v, takes, rest, whole⟩
    exact ⟨[a], (letter [a]).mpr ⟨a, takes, rfl⟩, v, rest, whole.symm⟩

theorem cons_mem_sequence (single : p ≠ .many) : a :: w ∈ sequence ok (p :: ps) ↔ p.Takes ok a ∧ w ∈ sequence ok ps := by
  rw [mem_sequence_single single]
  constructor
  · intro ⟨b, v, takes, rest, whole⟩
    cases whole
    exact ⟨takes, rest⟩
  · intro ⟨takes, rest⟩
    exact ⟨a, w, takes, rest, rfl⟩

abbrev Fits (ok : α → Prop) (seg : List (Piece α)) (u : List α) : Prop := List.Forall₂ (Piece.Takes ok) seg u

theorem Fits.single {u : List α} (fits : Fits ok seg u) : ∀ p ∈ seg, p ≠ .many := by
  induction fits with
  | nil => simp
  | cons takes _ ih =>
    apply List.forall_mem_cons.mpr ⟨?_, ih⟩
    intro star
    rw [star] at takes
    exact takes

theorem mem_sequence_append (single : ∀ p ∈ seg, p ≠ .many) :
    w ∈ sequence ok (seg ++ ps) ↔ ∃ x y, Fits ok seg x ∧ y ∈ sequence ok ps ∧ x ++ y = w := by
  induction seg generalizing w with
  | nil =>
    constructor
    · intro member
      exact ⟨[], w, .nil, member, rfl⟩
    · intro ⟨x, y, fits, member, whole⟩
      cases fits
      rw [← whole]
      exact member
  | cons p seg ih =>
    rw [List.forall_mem_cons] at single
    rw [List.cons_append, mem_sequence_single single.1]
    constructor
    · intro ⟨a, v, takes, rest, whole⟩
      obtain ⟨x, y, fits, member, rfl⟩ := (ih single.2).mp rest
      exact ⟨a :: x, y, .cons takes fits, member, whole.symm⟩
    · intro ⟨x, y, fits, member, whole⟩
      cases fits with
      | cons takes fits => exact ⟨_, _, takes, (ih single.2).mpr ⟨_, y, fits, member, rfl⟩, whole.symm⟩

end Sequences

section Backtracking
variable {ok : α → Prop} [DecidablePred ok] {ps seg : List (Piece α)} {a : α} {s t u w : List α}

def stops (ok : α → Prop) [DecidablePred ok] (w : List α) : Nat := w.countP fun a => ¬ ok a

theorem stops_eq_zero : stops ok w = 0 ↔ ∀ a ∈ w, ok a := by
  simp [stops, List.countP_eq_zero]

/-- Words that fit the same pieces have equally many of them: those the pieces spell out. -/
theorem Fits.stops_eq (fits : Fits ok seg u) (fits' : Fits ok seg w) : stops ok u = stops ok w := by
  induction fits generalizing w with
  | nil =>
    cases fits'
    rfl
  | @cons p a seg u takes fits ih =>
    cases fits' with
    | @cons _ b _ w takes' fits' =>
      have same : ok a ↔ ok b := by
        cases p with
        | lit c => rw [← (takes : c = a), ← (takes' : c = b)]
        | one => exact iff_of_true takes takes'
        | many => cases takes
      have rest := ih fits'
      simp only [stops, List.countP_cons] at rest ⊢
      simp only [rest, same]

/-- A star, with the pieces behind it and the word it was met at, can still be given some letters more. -/
def Retry (ok : α → Prop) : Option (List (Piece α) × List α) → Prop
  | none => False
  | some (ps, t) => ∃ w v, w ≠ [] ∧ (∀ a ∈ w, ok a) ∧ v ∈ sequence ok ps ∧ w ++ v = t

omit [DecidablePred ok] in
theorem mem_many_iff_retry : w ∈ sequence ok (.many :: ps) ↔ w ∈ sequence ok ps ∨ Retry ok (some (ps, w)) := by
  rw [mem_sequence_many]
  constructor
  · intro ⟨u, v, wild, member, whole⟩
    cases u with
    | nil =>
      rw [← whole]
      exact .inl member
    | cons a u => exact .inr ⟨a :: u, v, List.cons_ne_nil _ _, wild, member, whole⟩
  · intro either
    rcases either with member | ⟨u, v, _, wild, member, whole⟩
    · exact ⟨[], w, by simp, member, rfl⟩
    · exact ⟨u, v, wild, member, whole⟩

omit [DecidablePred ok] in
theorem retry_cons : Retry ok (some (ps, a :: t)) ↔ ok a ∧ (t ∈ sequence ok ps ∨ Retry ok (some (ps, t))) := by
  constructor
  · intro ⟨w, v, some_, wild, member, whole⟩
    obtain ⟨b, w, rfl⟩ := List.exists_cons_of_ne_nil some_
    cases whole
    rw [List.forall_mem_cons] at wild
    refine ⟨wild.1, ?_⟩
    cases w with
    | nil => exact .inl member
    | cons c w => exact .inr ⟨c :: w, v, List.cons_ne_nil _ _, wild.2, member, rfl⟩
  · intro ⟨first, rest⟩
    rcases rest with member | ⟨w, v, _, wild, member, whole⟩
    · exact ⟨[a], t, List.cons_ne_nil _ _, by simpa using first, member, rfl⟩
    · exact ⟨a :: w, v, List.cons_ne_nil _ _, List.forall_mem_cons.mpr ⟨first, wild⟩, member, by rw [← whole]; rfl⟩

omit [DecidablePred ok] in
/-- When the pieces behind a star have used up the word, more letters for the star leave too few. -/
theorem not_retry_of_fits (fits : Fits ok seg u) : ¬ Retry ok (some (seg ++ ps, u)) := by
  intro ⟨w, v, some_, _, member, whole⟩
  obtain ⟨x, y, fits', _, rfl⟩ := (mem_sequence_append fits.single).mp member
  have size := congrArg List.length whole
  simp only [List.length_append] at size
  have same := fits.length_eq.symm.trans fits'.length_eq
  have positive := List.length_pos_of_ne_nil some_
  omega

/-- Behind the pieces that fit comes another star: whatever more letters for the first star can reach, the
    second one reaches as well. The two words that fit the pieces between the stars have equally many
    letters no wildcard may stand for, so what lies between their ends has none. -/
theorem mem_of_retry (fits : Fits ok seg u) (retry : Retry ok (some (seg ++ .many :: ps, u ++ s))) :
    s ∈ sequence ok (.many :: ps) := by
  obtain ⟨w, v, some_, wild, member, whole⟩ := retry
  obtain ⟨x, v', fits', member', rfl⟩ := (mem_sequence_append fits.single).mp member
  obtain ⟨z, y, wild', rest, rfl⟩ := mem_sequence_many.mp member'
  rw [← List.append_assoc, List.append_eq_append_iff] at whole
  have positive := List.length_pos_of_ne_nil some_
  have same := fits.length_eq.symm.trans fits'.length_eq
  rcases whole with ⟨more, longer, _⟩ | ⟨more, longer, left⟩
  · have size := congrArg List.length longer
    simp only [List.length_append] at size
    omega
  · have counted := congrArg (stops ok) longer
    have balanced := fits.stops_eq fits'
    have none := stops_eq_zero.mpr wild
    simp only [stops, List.countP_append] at counted balanced none
    have free : ∀ a ∈ more, ok a := by
      rw [← stops_eq_zero, stops]
      omega
    apply mem_sequence_many.mpr ⟨more ++ z, y, ?_, rest, ?_⟩
    · intro a among
      exact (List.mem_append.mp among).elim (free a) (wild' a)
    · rw [left, List.append_assoc]

end Backtracking

end Wildcards
