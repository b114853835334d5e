import Mathlib.Data.List.Basic

namespace Trees

inductive Rose (α β : Type) where
  | leaf (label : α)
  | branch (label : β) (parts : List (Rose α β))

namespace Rose

variable {α β : Type}

mutual
def size : Rose α β → Nat
  | .leaf _ => 1
  | .branch _ parts => 1 + sizes parts

def sizes : List (Rose α β) → Nat
  | [] => 0
  | t :: ts => size t + sizes ts
end

mutual
def height : Rose α β → Nat
  | .leaf _ => 0
  | .branch _ parts => levels parts

def levels : List (Rose α β) → Nat
  | [] => 0
  | t :: ts => max (height t + 1) (levels ts)
end

mutual
def leaves : Rose α β → List α
  | .leaf label => [label]
  | .branch _ parts => leavesOf parts

def leavesOf : List (Rose α β) → List α
  | [] => []
  | t :: ts => leaves t ++ leavesOf ts
end

/-- What holds of the leaves, and of a branch when it holds of its parts, holds of all trees. -/
theorem ind {motive : Rose α β → Prop} (leaf : ∀ label, motive (.leaf label))
    (branch : ∀ label parts, (∀ t ∈ parts, motive t) → motive (.branch label parts)) (t : Rose α β) : motive t :=
  Rose.rec (motive_1 := motive) (motive_2 := fun ts => ∀ t ∈ ts, motive t) leaf branch
    (fun _ member => absurd member List.not_mem_nil)
    (fun t ts first rest s member => by
      rcases List.mem_cons.mp member with rfl | member
      · exact first
      · exact rest s member) t

theorem size_pos (t : Rose α β) : 0 < t.size := by
  cases t with
  | leaf label => simp [size]
  | branch label parts =>
    simp only [size]
    omega

theorem sizes_eq_zero {ts : List (Rose α β)} : sizes ts = 0 ↔ ts = [] := by
  cases ts with
  | nil => simp [sizes]
  | cons t ts =>
    have := t.size_pos
    simp only [sizes, reduceCtorEq, iff_false]
    omega

theorem levels_le {ts : List (Rose α β)} {n : Nat} : levels ts ≤ n ↔ ∀ t ∈ ts, t.height + 1 ≤ n := by
  induction ts with
  | nil => simp [levels]
  | cons t ts ih => simp only [levels, Nat.max_le, ih, List.forall_mem_cons]

end Rose

end Trees
