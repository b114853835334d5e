import Mathlib.Data.List.Infix

namespace Domains

abbrev Labels := List (List Char)

def labels (domain : List Char) : Labels := domain.splitOn '.'

def domainOf (ls : Labels) : List Char := ['.'].intercalate ls

theorem domainOf_labels (domain : List Char) : domainOf (labels domain) = domain := List.intercalate_splitOn '.'

theorem labels_injective : Function.Injective labels := by
  intro d e same
  rw [← domainOf_labels d, same, domainOf_labels]

theorem labels_ne_nil (domain : List Char) : labels domain ≠ [] := List.splitOn_ne_nil '.' domain

theorem labels_append (front rest : List Char) : labels (front ++ '.' :: rest) = labels front ++ labels rest :=
  List.splitOn_append_cons_self front rest

theorem domainOf_append {front rest : Labels} (some_ : front ≠ []) (some' : rest ≠ []) :
    domainOf (front ++ rest) = domainOf front ++ '.' :: domainOf rest := by
  induction front with
  | nil => exact absurd rfl some_
  | cons l front ih =>
    cases front with
    | nil =>
      cases rest with
      | nil => exact absurd rfl some'
      | cons r rest => simp [domainOf, List.intercalate]
    | cons k front =>
      have below := ih (List.cons_ne_nil _ _)
      have step (ls : Labels) (more : ls ≠ []) : domainOf (l :: ls) = l ++ '.' :: domainOf ls := by
        cases ls with
        | nil => exact absurd rfl more
        | cons r rest => simp [domainOf, List.intercalate]
      rw [List.cons_append, step _ (List.append_ne_nil_of_left_ne_nil (List.cons_ne_nil k front) _), below,
        step _ (List.cons_ne_nil k front), List.append_assoc, List.cons_append]

theorem suffix_iff_below {d e : List Char} : '.' :: d <:+ e ↔ labels d <:+ labels e ∧ d ≠ e := by
  constructor
  · rintro ⟨front, rfl⟩
    refine ⟨⟨labels front, (labels_append front d).symm⟩, fun same => ?_⟩
    have lengths := congrArg List.length same
    rw [List.length_append, List.length_cons] at lengths
    omega
  · rintro ⟨⟨front, whole⟩, other⟩
    have some_ : front ≠ [] := by
      rintro rfl
      exact other (labels_injective whole)
    have text := domainOf_append some_ (labels_ne_nil d)
    rw [whole, domainOf_labels, domainOf_labels] at text
    exact ⟨domainOf front, text.symm⟩

theorem labels_of_plain {d : List Char} (plain : '.' ∉ d) : labels d = [d] := List.splitOn_eq_singleton plain

theorem labels_of_first {x : List Char} (plain : '.' ∉ x) (rest : List Char) : labels (x ++ '.' :: rest) = x :: labels rest := by
  rw [labels_append, labels_of_plain plain, List.singleton_append]

theorem one_lt_length_labels {d : List Char} : 1 < (labels d).length ↔ '.' ∈ d := by
  constructor
  · intro more
    by_contra plain
    rw [labels_of_plain plain] at more
    exact absurd more (Nat.lt_irrefl 1)
  · intro member
    obtain ⟨x, y, rfl⟩ := List.append_of_mem member
    have front := List.length_pos_iff.mpr (labels_ne_nil x)
    have back := List.length_pos_iff.mpr (labels_ne_nil y)
    rw [labels_append, List.length_append]
    omega

/-- A list of the suffixes under which domains are registered. A top-level domain always is one. -/
structure SuffixList where
  listed : Labels → Bool

namespace SuffixList

variable (psl : SuffixList)

def isPublic (ls : Labels) : Bool := ls.length == 1 || psl.listed ls

def longest : Labels → Labels
  | [] => []
  | l :: rest => if psl.isPublic (l :: rest) then l :: rest else longest rest

example (l : List Char) : psl.longest [l] = [l] := by simp [longest, isPublic]

/-- The organizational domain: the longest public suffix with one label more. -/
def organizational (ls : Labels) : Labels := ls.drop (ls.length - ((psl.longest ls).length + 1))

/-- A public suffix reaches into what tells two domains apart of which one is below the other. -/
def Separates (a f : Labels) : Prop :=
  ∃ t, psl.isPublic t = true ∧ (t <:+ a ∨ t <:+ f) ∧ min a.length f.length ≤ t.length

variable {psl} {ls t a f : Labels}

theorem longest_suffix (ls : Labels) : psl.longest ls <:+ ls := by
  induction ls with
  | nil => exact List.suffix_refl []
  | cons l rest ih =>
    rw [longest]
    split
    · exact List.suffix_refl _
    · exact ih.trans (List.suffix_cons l rest)

theorem longest_public (some_ : ls ≠ []) : psl.isPublic (psl.longest ls) = true := by
  induction ls with
  | nil => exact absurd rfl some_
  | cons l rest ih =>
    rw [longest]
    split
    · rename_i listed
      exact listed
    · rename_i other
      apply ih
      rintro rfl
      exact other rfl

theorem length_le_longest (listed : psl.isPublic t = true) (ends : t <:+ ls) : t.length ≤ (psl.longest ls).length := by
  induction ls with
  | nil =>
    rw [List.suffix_nil.mp ends]
    exact Nat.zero_le _
  | cons l rest ih =>
    rw [longest]
    split
    · exact ends.length_le
    · rename_i other
      rcases List.suffix_cons_iff.mp ends with rfl | below
      · exact absurd listed other
      · exact ih below

theorem length_organizational (ls : Labels) : (psl.organizational ls).length = min ls.length ((psl.longest ls).length + 1) := by
  rw [organizational, List.length_drop]
  omega

/-- Of two domains of which one is below the other, the organizational domains are the same unless a public suffix separates them. -/
theorem organizational_eq_iff (some_ : f ≠ []) (below : f <:+ a) (other : f ≠ a) :
    psl.organizational a = psl.organizational f ↔ ¬ psl.Separates a f := by
  have shorter : f.length < a.length := by
    apply Nat.lt_of_le_of_ne below.length_le
    intro same
    exact other (below.eq_of_length same)
  constructor
  · rintro same ⟨t, listed, ends, long⟩
    have inside : t <:+ a := ends.elim id fun ends => ends.trans below
    have reach := length_le_longest listed inside
    have lengths := congrArg List.length same
    rw [length_organizational, length_organizational] at lengths
    omega
  · intro apart
    have some' : a ≠ [] := by
      rintro rfl
      exact some_ (List.suffix_nil.mp below)
    have few : (psl.longest a).length < f.length := by
      by_contra many
      exact apart ⟨psl.longest a, longest_public some', .inl (longest_suffix a), by omega⟩
    have within : psl.longest a <:+ f := List.suffix_of_suffix_length_le (longest_suffix a) below (Nat.le_of_lt few)
    have least := length_le_longest (longest_public some') within
    have listed : psl.isPublic (psl.longest f) = true := longest_public some_
    have most := length_le_longest listed ((longest_suffix f).trans below)
    have drop : f = a.drop (a.length - f.length) := List.suffix_iff_eq_drop.mp below
    have counted : (psl.longest f).length = (psl.longest a).length := Nat.le_antisymm most least
    rw [organizational, organizational, counted]
    calc a.drop (a.length - ((psl.longest a).length + 1))
        = (a.drop (a.length - f.length)).drop (f.length - ((psl.longest a).length + 1)) := by
          rw [List.drop_drop]
          congr 1
          omega
      _ = f.drop (f.length - ((psl.longest a).length + 1)) := by rw [← drop]

theorem Separates.symm (apart : psl.Separates a f) : psl.Separates f a := by
  obtain ⟨t, listed, ends, long⟩ := apart
  exact ⟨t, listed, ends.symm, by rwa [Nat.min_comm]⟩

end SuffixList

end Domains
