import Mathlib.Data.List.Perm.Basic

namespace Lists

variable {α β : Type} {items : List α} {i : Nat} {x y : α}

theorem countP_replace (p : α → Bool) (at_ : items[i]? = some x) :
    (items.set i y).countP p + (if p x then 1 else 0) = items.countP p + (if p y then 1 else 0) := by
  induction items generalizing i with
  | nil => simp at at_
  | cons z rest ih =>
    cases i with
    | zero =>
      simp only [List.getElem?_cons_zero, Option.some.injEq] at at_
      subst at_
      simp only [List.set_cons_zero, List.countP_cons]
      omega
    | succ i =>
      simp only [List.getElem?_cons_succ] at at_
      have rest' := ih at_
      simp only [List.set_cons_succ, List.countP_cons]
      omega

theorem count_flatMap_replace [BEq β] (f : α → List β) (at_ : items[i]? = some x) (b : β) :
    ((items.set i y).flatMap f).count b + (f x).count b = (items.flatMap f).count b + (f y).count b := by
  induction items generalizing i with
  | nil => simp at at_
  | cons z rest ih =>
    cases i with
    | zero =>
      simp only [List.getElem?_cons_zero, Option.some.injEq] at at_
      subst at_
      simp only [List.set_cons_zero, List.flatMap_cons, List.count_append]
      omega
    | succ i =>
      simp only [List.getElem?_cons_succ] at at_
      have rest' := ih at_
      simp only [List.set_cons_succ, List.flatMap_cons, List.count_append]
      omega

theorem map_replace (f : α → β) (at_ : items[i]? = some x) (same : f y = f x) : (items.set i y).map f = items.map f := by
  induction items generalizing i with
  | nil => rfl
  | cons z rest ih =>
    cases i with
    | zero =>
      simp only [List.getElem?_cons_zero, Option.some.injEq] at at_
      subst at_
      simp [same]
    | succ i =>
      simp only [List.getElem?_cons_succ] at at_
      simp [ih at_]

theorem flatMap_replace (f : α → List β) (at_ : items[i]? = some x) (same : f y = f x) :
    (items.set i y).flatMap f = items.flatMap f := by
  rw [List.flatMap_def, List.flatMap_def, map_replace f at_ same]

theorem perm_eraseIdx (at_ : items[i]? = some x) : (x :: items.eraseIdx i).Perm items := by
  obtain ⟨short, rfl⟩ := List.getElem?_eq_some_iff.mp at_
  exact List.getElem_cons_eraseIdx_perm short

theorem mem_replace {z : α} (member : z ∈ items.set i y) : z = y ∨ z ∈ items :=
  (List.mem_or_eq_of_mem_set member).symm

theorem getElem?_replace {j : Nat} {z : α} (at_ : (items.set i y)[j]? = some z) :
    j = i ∧ z = y ∨ j ≠ i ∧ items[j]? = some z := by
  rw [List.getElem?_set] at at_
  split at at_
  · rename_i same
    split at at_
    · cases at_
      exact .inl ⟨same.symm, rfl⟩
    · cases at_
  · rename_i other
    exact .inr ⟨fun same => other same.symm, at_⟩

theorem getElem?_added {j : Nat} {z : α} (at_ : (items ++ [y])[j]? = some z) :
    j = items.length ∧ z = y ∨ j < items.length ∧ items[j]? = some z := by
  by_cases short : j < items.length
  · rw [List.getElem?_append_left short] at at_
    exact .inr ⟨short, at_⟩
  · have last : j = items.length := by
      have within := (List.getElem?_eq_some_iff.mp at_).1
      simp only [List.length_append, List.length_singleton] at within
      omega
    rw [last, List.getElem?_concat_length] at at_
    cases at_
    exact .inl ⟨last, rfl⟩

end Lists
