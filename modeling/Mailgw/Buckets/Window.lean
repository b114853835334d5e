import Mathlib.Algebra.Order.Field.Basic
import Mathlib.Algebra.Order.BigOperators.Group.List
import Mathlib.Tactic.Linarith

namespace Buckets

variable {K : Type} [Field K] [LinearOrder K] [IsStrictOrderedRing K]

/-- What is drawn from a vessel that fills at a rate and holds no more than its capacity: the times
    and the amounts between two clock readings, with what there is at both of them. -/
inductive Drawn (capacity rate : K) : K → K → List (K × K) → K → K → Prop where
  | rest {clock level clock' level' : K} (later : clock ≤ clock') (covered : level' ≤ level + rate * (clock' - clock)) :
      Drawn capacity rate clock level [] clock' level'
  | draw {clock level time amount left clock' level' : K} {draws : List (K × K)} (later : clock ≤ time) (held : 0 ≤ left)
      (covered : amount + left ≤ min capacity (level + rate * (time - clock)))
      (others : Drawn capacity rate time left draws clock' level') :
      Drawn capacity rate clock level ((time, amount) :: draws) clock' level'

def drawnIn (first last : K) : List (K × K) → K
  | [] => 0
  | (time, amount) :: rest => (if first ≤ time ∧ time ≤ last then amount else 0) + drawnIn first last rest

namespace Drawn

variable {capacity rate clock level clock' level' first last : K} {draws : List (K × K)}

theorem earlier (drawn : Drawn capacity rate clock level draws clock' level') {start held : K} (before : start ≤ clock)
    (enough : level ≤ held + rate * (clock - start)) : Drawn capacity rate start held draws clock' level' := by
  cases drawn with
  | rest later covered =>
    apply Drawn.rest (before.trans later)
    linarith
  | draw later held covered others =>
    have full := covered.trans (min_le_left _ _)
    have within := covered.trans (min_le_right _ _)
    apply Drawn.draw (before.trans later) held _ others
    apply le_min full
    linarith

theorem append {more : List (K × K)} {clock'' level'' : K} (drawn : Drawn capacity rate clock level draws clock' level')
    (drawn' : Drawn capacity rate clock' level' more clock'' level'') :
    Drawn capacity rate clock level (draws ++ more) clock'' level'' := by
  induction drawn with
  | rest later covered => exact drawn'.earlier later covered
  | draw later held covered others ih => exact .draw later held covered (ih drawn')

omit [IsStrictOrderedRing K] in
theorem drawnIn_of_late (drawn : Drawn capacity rate clock level draws clock' level') (late : last < clock) :
    drawnIn first last draws = 0 := by
  induction drawn with
  | rest => rfl
  | draw later held covered others ih =>
    have beyond := lt_of_lt_of_le late later
    rw [drawnIn, ih beyond, if_neg fun inside => absurd inside.2 (not_le.mpr beyond), add_zero]

theorem drawnIn_le (drawn : Drawn capacity rate clock level draws clock' level') (flows : 0 ≤ rate) (held : 0 ≤ level)
    (begun : first ≤ clock) (goes : clock ≤ last) : drawnIn first last draws ≤ level + rate * (last - clock) := by
  induction drawn with
  | rest =>
    have flowed := mul_nonneg flows (sub_nonneg.mpr goes)
    rw [drawnIn]
    linarith
  | @draw clock level time amount left clock' level' draws later held' covered others ih =>
    have within := covered.trans (min_le_right _ _)
    by_cases reached : time ≤ last
    · have onward := ih held' (begun.trans later) reached
      rw [drawnIn, if_pos ⟨begun.trans later, reached⟩]
      linarith
    · have flowed := mul_nonneg flows (sub_nonneg.mpr goes)
      have late := not_le.mp reached
      rw [drawnIn, if_neg fun inside => reached inside.2, others.drawnIn_of_late late]
      linarith

/-- In every window no more is drawn than the capacity and than flows in meanwhile. -/
theorem window (drawn : Drawn capacity rate clock level draws clock' level') (flows : 0 ≤ rate) (holds : 0 ≤ capacity)
    (goes : first ≤ last) : drawnIn first last draws ≤ capacity + rate * (last - first) := by
  have flowed := mul_nonneg flows (sub_nonneg.mpr goes)
  induction drawn with
  | rest =>
    rw [drawnIn]
    linarith
  | @draw clock level time amount left clock' level' draws later held covered others ih =>
    by_cases inside : first ≤ time ∧ time ≤ last
    · have onward := others.drawnIn_le flows held inside.1 inside.2
      have full := covered.trans (min_le_left _ _)
      have shorter := mul_le_mul_of_nonneg_left (sub_le_sub_left inside.1 last) flows
      rw [drawnIn, if_pos inside]
      linarith
    · rw [drawnIn, if_neg inside, zero_add]
      exact ih

end Drawn

end Buckets
