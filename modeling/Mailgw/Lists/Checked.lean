import Mathlib.Data.List.Basic

namespace Lists

variable {α β ε : Type} {f : α → Except ε β} {x : α} {xs : List α} {ys : List β}

theorem bind_ok {p : Except ε α} {y : β} (accepted : (p >>= f) = .ok y) : ∃ x, p = .ok x ∧ f x = .ok y := by
  cases p with
  | error problem => cases accepted
  | ok x => exact ⟨x, rfl, accepted⟩

theorem mapM_cons_ok (accepted : (x :: xs).mapM f = .ok ys) :
    ∃ y rest, f x = .ok y ∧ xs.mapM f = .ok rest ∧ ys = y :: rest := by
  rw [List.mapM_cons] at accepted
  obtain ⟨y, first, later⟩ := bind_ok accepted
  obtain ⟨rest, others, same⟩ := bind_ok later
  cases same
  exact ⟨y, rest, first, others, rfl⟩

theorem ok_of_mapM (accepted : xs.mapM f = .ok ys) : ∀ x ∈ xs, ∃ y, f x = .ok y := by
  induction xs generalizing ys with
  | nil => simp
  | cons x xs ih =>
    obtain ⟨y, rest, first, later, rfl⟩ := mapM_cons_ok accepted
    exact List.forall_mem_cons.mpr ⟨⟨y, first⟩, ih later⟩

theorem mem_mapM (accepted : xs.mapM f = .ok ys) (y : β) : y ∈ ys ↔ ∃ x ∈ xs, f x = .ok y := by
  induction xs generalizing ys with
  | nil =>
    cases accepted
    simp
  | cons x xs ih =>
    obtain ⟨y', rest, first, later, rfl⟩ := mapM_cons_ok accepted
    simp [ih later, first, eq_comm]

end Lists
