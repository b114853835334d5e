import Mathlib.Data.List.Sort

namespace Lists

variable {α κ : Type} [LinearOrder κ] {f : α → κ} {items : List α} {x : α}

def latest (f : α → κ) (items : List α) : List α := items.insertionSort fun x y => f y ≤ f x

theorem mem_latest : x ∈ latest f items ↔ x ∈ items := List.mem_insertionSort _

theorem latest_pairwise (f : α → κ) (items : List α) : (latest f items).Pairwise fun x y => f y ≤ f x := by
  have total : Std.Total fun x y => f y ≤ f x := ⟨fun x y => le_total (f y) (f x)⟩
  have transitive : IsTrans α fun x y => f y ≤ f x := ⟨fun _ _ _ first second => second.trans first⟩
  exact List.pairwise_insertionSort _ items

theorem latest_strict (distinct : (items.map f).Nodup) : (latest f items).Pairwise fun x y => f y < f x := by
  have same : ((latest f items).map f).Nodup := ((List.perm_insertionSort _ items).map f).nodup_iff.mpr distinct
  rw [List.Nodup, List.pairwise_map] at same
  apply (latest_pairwise f items).imp₂ _ same
  intro x y below other
  exact lt_of_le_of_ne below (Ne.symm other)

theorem mem_take_iff {sorted : List α} (strict : sorted.Pairwise fun x y => f y < f x) (n : Nat) :
    x ∈ sorted.take n ↔ x ∈ sorted ∧ (sorted.countP fun y => f x < f y) < n := by
  induction sorted generalizing n with
  | nil => simp
  | cons y rest ih =>
    rw [List.pairwise_cons] at strict
    cases n with
    | zero => simp
    | succ n =>
      rw [List.take_succ_cons, List.mem_cons, List.mem_cons, ih strict.2, List.countP_cons]
      constructor
      · intro found
        rcases found with rfl | ⟨later, few⟩
        · have none : rest.countP (fun y => f x < f y) = 0 := by
            rw [List.countP_eq_zero]
            intro y member
            simpa using (strict.1 y member).le
          simp [none]
        · refine ⟨.inr later, ?_⟩
          split <;> omega
      · intro found
        rcases found with ⟨rfl | later, few⟩
        · exact .inl rfl
        · right
          refine ⟨later, ?_⟩
          simp only [strict.1 x later, decide_true, if_true] at few
          omega

/-- An item is among the first ones when few enough have a higher rank. -/
theorem mem_latest_take (distinct : (items.map f).Nodup) (n : Nat) :
    x ∈ (latest f items).take n ↔ x ∈ items ∧ (items.countP fun y => f x < f y) < n := by
  rw [mem_take_iff (latest_strict distinct), mem_latest, latest, (List.perm_insertionSort _ items).countP_eq]

theorem latest_head (greatest : ∀ y ∈ items, y = x ∨ f y < f x) (member : x ∈ items) : (latest f items).head? = some x := by
  have found : x ∈ latest f items := mem_latest.mpr member
  cases sorted : latest f items with
  | nil => simp [sorted] at found
  | cons y rest =>
    have ranked := latest_pairwise f items
    rw [sorted] at ranked found
    have first : y ∈ items := by
      rw [← mem_latest (f := f), sorted]
      exact List.mem_cons_self
    rcases greatest y first with rfl | below
    · rfl
    · rcases List.mem_cons.mp found with rfl | later
      · rfl
      · have above := (List.pairwise_cons.mp ranked).1 x later
        exact absurd below (not_lt.mpr above)

theorem latest_head_inv (head : (latest f items).head? = some x) : x ∈ items ∧ ∀ y ∈ items, f y ≤ f x := by
  have ranked := latest_pairwise f items
  cases sorted : latest f items with
  | nil => simp [sorted] at head
  | cons y rest =>
    rw [sorted, List.head?_cons, Option.some.injEq] at head
    subst head
    rw [sorted] at ranked
    constructor
    · rw [← mem_latest (f := f), sorted]
      exact List.mem_cons_self
    · intro z member
      rw [← mem_latest (f := f), sorted] at member
      rcases List.mem_cons.mp member with rfl | later
      · exact le_rfl
      · exact (List.pairwise_cons.mp ranked).1 z later

theorem latest_head_none (empty : (latest f items).head? = none) : items = [] := by
  rw [List.head?_eq_none_iff] at empty
  have same := (List.perm_insertionSort (fun x y => f y ≤ f x) items).length_eq
  rw [← List.length_eq_zero_iff, ← same]
  exact congrArg List.length empty

end Lists
