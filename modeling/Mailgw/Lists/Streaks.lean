import Mathlib.Data.List.Basic
import Mathlib.Logic.Function.Iterate

namespace Lists

variable {α : Type} {bad : α → Bool} {limit : Nat}

/-- What a scan leaves behind that drops every good item it passes and gives up after `limit` bad
    ones in a row, `streak` of which it has seen. -/
def leftover (bad : α → Bool) (limit streak : Nat) : List α → List α
  | [] => []
  | x :: rest =>
    if bad x then
      if limit ≤ streak + 1 then x :: rest else x :: leftover bad limit (streak + 1) rest
    else leftover bad limit 0 rest

example : leftover (fun n : Nat => n % 2 == 0) 2 0 [2, 3, 4, 6, 8] = [2, 4, 6, 8] := by simp [leftover]

def Behind (bad : α → Bool) (limit : Nat) (items : List α) (x : α) : Prop :=
  ∃ front run back, items = front ++ run ++ back ∧ limit ≤ run.length ∧ (∀ y ∈ run, bad y = true) ∧ x ∈ back

theorem leftover_sublist (streak : Nat) (items : List α) : (leftover bad limit streak items).Sublist items := by
  induction items generalizing streak with
  | nil => exact .slnil
  | cons x rest ih =>
    simp only [leftover]
    split
    · split
      · exact .refl _
      · exact (ih _).cons_cons x
    · exact (ih _).cons x

theorem leftover_congr {bad' : α → Bool} (streak : Nat) {items : List α}
    (same : ∀ x ∈ items, bad x = bad' x) : leftover bad limit streak items = leftover bad' limit streak items := by
  induction items generalizing streak with
  | nil => rfl
  | cons x rest ih =>
    have later : ∀ y ∈ rest, bad y = bad' y := fun y member => same y (List.mem_cons_of_mem _ member)
    simp only [leftover, same x List.mem_cons_self, ih _ later]

theorem behind_of_leftover {streak : Nat} {items : List α} {x : α} (good : bad x = false)
    (left : x ∈ leftover bad limit streak items) :
    ∃ front run back, items = front ++ run ++ back ∧ (∀ y ∈ run, bad y = true) ∧ x ∈ back ∧
      (limit ≤ run.length ∨ front = [] ∧ limit ≤ run.length + streak) := by
  induction items generalizing streak with
  | nil => cases left
  | cons y rest ih =>
    simp only [leftover] at left
    split at left
    · rename_i isBad
      have other : x ≠ y := fun same => by simp [same, isBad] at good
      split at left
      · rename_i giveUp
        have later : x ∈ rest := (List.mem_cons.mp left).resolve_left other
        exact ⟨[], [y], rest, rfl, by simpa using isBad, later, .inr ⟨rfl, by simpa [Nat.add_comm] using giveUp⟩⟩
      · obtain ⟨front, run, back, rfl, bads, later, long⟩ := ih ((List.mem_cons.mp left).resolve_left other)
        rcases long with long | ⟨rfl, long⟩
        · exact ⟨y :: front, run, back, rfl, bads, later, .inl long⟩
        · have all : ∀ z ∈ y :: run, bad z = true := by simpa [isBad] using bads
          exact ⟨[], y :: run, back, rfl, all, later, .inr ⟨rfl, by simp only [List.length_cons]; omega⟩⟩
    · obtain ⟨front, run, back, rfl, bads, later, long⟩ := ih left
      have enough : limit ≤ run.length := by omega
      exact ⟨y :: front, run, back, rfl, bads, later, .inl enough⟩

theorem leftover_run {streak : Nat} {run : List α} (back : List α) (bads : ∀ y ∈ run, bad y = true)
    (below : streak < limit) (long : limit ≤ run.length + streak) :
    leftover bad limit streak (run ++ back) = run ++ back := by
  induction run generalizing streak with
  | nil =>
    rw [List.length_nil] at long
    omega
  | cons y run ih =>
    have isBad : bad y = true := bads y List.mem_cons_self
    simp only [List.cons_append, leftover, isBad, ite_true]
    split
    · rfl
    · rw [List.length_cons] at long
      rw [ih (fun z member => bads z (List.mem_cons_of_mem _ member)) (by omega) (by omega)]

theorem leftover_front {streak : Nat} (front : List α) {run : List α} (back : List α)
    (bads : ∀ y ∈ run, bad y = true) (below : streak < limit) (long : limit ≤ run.length) :
    ∃ front', leftover bad limit streak (front ++ run ++ back) = front' ++ run ++ back := by
  induction front generalizing streak with
  | nil =>
    have whole : leftover bad limit streak (run ++ back) = run ++ back := leftover_run back bads below (by omega)
    exact ⟨[], whole⟩
  | cons y front ih =>
    simp only [List.cons_append, leftover]
    split
    · split
      · exact ⟨y :: front, rfl⟩
      · have still : streak + 1 < limit := by omega
        obtain ⟨front', same⟩ := ih still
        exact ⟨y :: front', by rw [same]; rfl⟩
    · exact ih (by omega)

theorem Behind.iterate {items : List α} {x : α} (behind : Behind bad limit items x) (positive : 0 < limit)
    (scans : Nat) : Behind bad limit ((leftover bad limit 0)^[scans] items) x := by
  induction scans generalizing items with
  | zero => exact behind
  | succ scans ih =>
    rw [Function.iterate_succ_apply]
    apply ih
    obtain ⟨front, run, back, rfl, long, bads, later⟩ := behind
    obtain ⟨front', same⟩ := leftover_front front back bads positive long
    exact ⟨front', run, back, same, long, bads, later⟩

theorem Behind.mem {items : List α} {x : α} (behind : Behind bad limit items x) : x ∈ items := by
  obtain ⟨front, run, back, rfl, -, -, later⟩ := behind
  exact List.mem_append_right _ later

/-- One scan drops exactly the good items that stand behind no run of bad ones. -/
theorem mem_leftover_iff {items : List α} {x : α} (good : bad x = false) (positive : 0 < limit) :
    x ∈ leftover bad limit 0 items ↔ Behind bad limit items x := by
  constructor
  · intro left
    obtain ⟨front, run, back, same, bads, later, long⟩ := behind_of_leftover good left
    exact ⟨front, run, back, same, by omega, bads, later⟩
  · intro behind
    exact (behind.iterate positive 1).mem

end Lists
