import Mathlib.Data.List.Nodup
import Mathlib.Data.List.Perm.Basic
import Mathlib.Logic.Function.Basic

namespace Calls

variable {P I : Type} {hold hold' : P → List I}

structure Sole (hold : P → List I) : Prop where
  nodup : ∀ p, (hold p).Nodup
  apart : ∀ p q x, x ∈ hold p → x ∈ hold q → p = q

namespace Sole

theorem congr (sole : Sole hold) (same : ∀ p, (hold' p).Perm (hold p)) : Sole hold' := by
  constructor
  · intro p
    exact (same p).nodup_iff.mpr (sole.nodup p)
  · intro p q x left right
    exact sole.apart p q x ((same p).mem_iff.mp left) ((same q).mem_iff.mp right)

variable [DecidableEq P]

theorem shrink (sole : Sole hold) (p : P) {left : List I} (sub : left.Sublist (hold p)) :
    Sole (Function.update hold p left) := by
  have kept : ∀ q x, x ∈ Function.update hold p left q → x ∈ hold q := by
    intro q x member
    by_cases same : q = p
    · subst same
      rw [Function.update_self] at member
      exact sub.subset member
    · rwa [Function.update_of_ne same] at member
  constructor
  · intro q
    by_cases same : q = p
    · subst same
      rw [Function.update_self]
      exact sub.nodup (sole.nodup q)
    · rw [Function.update_of_ne same]
      exact sole.nodup q
  · intro q q' x left right
    exact sole.apart q q' x (kept q x left) (kept q' x right)

theorem fresh (sole : Sole hold) (p : P) {x : I} (new : ∀ q, x ∉ hold q) :
    Sole (Function.update hold p (x :: hold p)) := by
  have held : ∀ q y, y ∈ Function.update hold p (x :: hold p) q → y ∈ hold q ∨ y = x ∧ q = p := by
    intro q y member
    by_cases same : q = p
    · subst same
      rw [Function.update_self] at member
      rcases List.mem_cons.mp member with rfl | old
      · exact .inr ⟨rfl, rfl⟩
      · exact .inl old
    · rw [Function.update_of_ne same] at member
      exact .inl member
  constructor
  · intro q
    by_cases same : q = p
    · subst same
      rw [Function.update_self]
      exact List.nodup_cons.mpr ⟨new q, sole.nodup q⟩
    · rw [Function.update_of_ne same]
      exact sole.nodup q
  · intro q q' y left right
    rcases held q y left with old | ⟨rfl, rfl⟩
    · rcases held q' y right with old' | ⟨rfl, -⟩
      · exact sole.apart q q' y old old'
      · exact (new q old).elim
    · rcases held q' y right with old' | ⟨-, rfl⟩
      · exact (new q' old').elim
      · rfl

theorem move (sole : Sole hold) {p q : P} (other : p ≠ q) {gain left : List I}
    (split : (hold p).Perm (gain ++ left)) :
    Sole (Function.update (Function.update hold p left) q (gain ++ hold q)) := by
  have parts := (List.nodup_append'.mp (split.nodup_iff.mp (sole.nodup p)))
  have given : ∀ x ∈ gain, x ∈ hold p := fun x member => split.mem_iff.mpr (by simp [member])
  have stayed : ∀ x ∈ left, x ∈ hold p := fun x member => split.mem_iff.mpr (by simp [member])
  have away : ∀ x ∈ gain, x ∉ hold q := fun x member held => other (sole.apart p q x (given x member) held)
  have held : ∀ r x, x ∈ Function.update (Function.update hold p left) q (gain ++ hold q) r →
      r = q ∧ x ∈ gain ∨ x ∈ hold r ∧ (r = p → x ∈ left) := by
    intro r x member
    by_cases second : r = q
    · subst second
      rw [Function.update_self] at member
      rcases List.mem_append.mp member with new | old
      · exact .inl ⟨rfl, new⟩
      · exact .inr ⟨old, fun same => (other same.symm).elim⟩
    · rw [Function.update_of_ne second] at member
      by_cases first : r = p
      · subst first
        rw [Function.update_self] at member
        exact .inr ⟨stayed x member, fun _ => member⟩
      · rw [Function.update_of_ne first] at member
        exact .inr ⟨member, fun same => (first same).elim⟩
  constructor
  · intro r
    by_cases second : r = q
    · subst second
      rw [Function.update_self]
      exact List.nodup_append'.mpr ⟨parts.1, sole.nodup r, fun x new old => away x new old⟩
    · rw [Function.update_of_ne second]
      by_cases first : r = p
      · subst first
        rw [Function.update_self]
        exact parts.2.1
      · rw [Function.update_of_ne first]
        exact sole.nodup r
  · intro r r' x one two
    rcases held r x one with ⟨rfl, new⟩ | ⟨old, kept⟩
    · rcases held r' x two with ⟨rfl, -⟩ | ⟨old', kept'⟩
      · rfl
      · have same := sole.apart p r' x (given x new) old'
        exact (parts.2.2 new (kept' same.symm)).elim
    · rcases held r' x two with ⟨rfl, new'⟩ | ⟨old', -⟩
      · have same := sole.apart p r x (given x new') old
        exact (parts.2.2 new' (kept same.symm)).elim
      · exact sole.apart r r' x old old'

end Sole

end Calls
