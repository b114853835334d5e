import Mathlib.Data.List.Basic
import Mathlib.Data.List.Infix

namespace Text

variable {α : Type} {a : α} {x y s t : List α}

theorem append_sep_inj (left : a ∉ x) (right : a ∉ y) (same : x ++ a :: s = y ++ a :: t) : x = y ∧ s = t := by
  induction x generalizing y with
  | nil =>
    cases y with
    | nil => simpa using same
    | cons b y =>
      simp only [List.nil_append, List.cons_append, List.cons.injEq] at same
      exact absurd (same.1 ▸ List.mem_cons_self) right
  | cons c x ih =>
    cases y with
    | nil =>
      simp only [List.nil_append, List.cons_append, List.cons.injEq] at same
      exact absurd (same.1 ▸ List.mem_cons_self) left
    | cons b y =>
      simp only [List.cons_append, List.cons.injEq] at same
      simp only [List.mem_cons, not_or] at left right
      obtain ⟨rfl, rfl⟩ := ih left.2 right.2 same.2
      exact ⟨by rw [same.1], rfl⟩

theorem append_last_sep_inj (left : a ∉ s) (right : a ∉ t) (same : x ++ a :: s = y ++ a :: t) : x = y ∧ s = t := by
  have reversed := congrArg List.reverse same
  simp only [List.reverse_append, List.reverse_cons, List.append_assoc, List.singleton_append] at reversed
  have parts := append_sep_inj (by simpa using left) (by simpa using right) reversed
  exact ⟨List.reverse_injective parts.2, List.reverse_injective parts.1⟩

variable [DecidableEq α]

theorem takeWhile_sep (plain : a ∉ x) : (x ++ a :: s).takeWhile (· ≠ a) = x := by
  rw [List.takeWhile_append_of_pos]
  · simp
  · intro b member
    exact decide_eq_true fun same => plain (same ▸ member)

theorem dropWhile_sep (plain : a ∉ x) : (x ++ a :: s).dropWhile (· ≠ a) = a :: s := by
  rw [List.dropWhile_append_of_pos]
  · simp
  · intro b member
    exact decide_eq_true fun same => plain (same ▸ member)

end Text

namespace Text

variable {α : Type} {a : α} {p q x d e : List α}

def Within (a : α) (p x : List α) : Prop := x = p ∨ ∃ rest, x = p ++ a :: rest

namespace Within

theorem refl (a : α) (p : List α) : Within a p p := .inl rfl

theorem behind (a : α) (p rest : List α) : Within a p (p ++ a :: rest) := .inr ⟨rest, rfl⟩

theorem trans (outer : Within a p q) (inner : Within a q x) : Within a p x := by
  rcases outer with rfl | ⟨r, rfl⟩
  · exact inner
  · rcases inner with rfl | ⟨s, rfl⟩
    · exact .behind a p r
    · exact .inr ⟨r ++ a :: s, by simp⟩

theorem isPrefix (within : Within a p x) : p <+: x := by
  rcases within with rfl | ⟨rest, rfl⟩
  · exact List.prefix_refl x
  · exact List.prefix_append p _

theorem of_isPrefix (px : Within a p x) (longer : q <+: x) (extends_ : p <+: q) : Within a p q := by
  obtain ⟨r, rfl⟩ := extends_
  cases r with
  | nil =>
    rw [List.append_nil]
    exact .refl a p
  | cons c r =>
    obtain ⟨s, same⟩ := longer
    rcases px with here | ⟨rest, here⟩
    · have lengths := congrArg List.length (same.trans here)
      simp at lengths
    · rw [here] at same
      simp only [List.append_assoc, List.append_cancel_left_eq, List.cons_append, List.cons.injEq] at same
      rw [same.1]
      exact .behind a p r

/-- Of two texts that a third one goes on behind, one goes on behind the other. -/
theorem tree (px : Within a p x) (qx : Within a q x) : Within a p q ∨ Within a q p := by
  rcases List.prefix_or_prefix_of_prefix px.isPrefix qx.isPrefix with longer | longer
  · exact .inl (px.of_isPrefix qx.isPrefix longer)
  · exact .inr (qx.of_isPrefix px.isPrefix longer)

theorem of_part (plain : a ∉ d) (within : Within a p (q ++ a :: d)) : p = q ++ a :: d ∨ Within a p q := by
  rcases within.tree (.behind a q d) with outer | inner
  · exact .inr outer
  · rcases inner with rfl | ⟨r, rfl⟩
    · exact .inr (.refl a p)
    · rcases within with same | ⟨rest, same⟩
      · exact .inl same.symm
      · simp only [List.append_assoc, List.append_cancel_left_eq, List.cons_append, List.cons.injEq, true_and] at same
        exact absurd (same ▸ by simp) plain

theorem part_unique (plain : a ∉ d) (plain' : a ∉ e) (first : Within a (p ++ a :: d) x)
    (second : Within a (p ++ a :: e) x) : d = e := by
  rcases first.tree second with same | same
  · rcases same.of_part plain' with same | same
    · simpa using same
    · have longer := same.isPrefix.length_le
      rw [List.length_append, List.length_cons] at longer
      omega
  · rcases same.of_part plain with same | same
    · simpa using same.symm
    · have longer := same.isPrefix.length_le
      rw [List.length_append, List.length_cons] at longer
      omega

theorem count_le [BEq α] (within : Within a p x) : p.count a ≤ x.count a := within.isPrefix.sublist.count_le a

end Within

end Text
