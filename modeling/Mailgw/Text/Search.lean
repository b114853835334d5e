import Mathlib.Data.List.Infix

namespace Text

variable {α : Type} [DecidableEq α] {sep s : List α} {i : Nat}

def index (sep : List α) : List α → Option Nat
  | [] => if sep = [] then some 0 else none
  | c :: rest => if sep <+: c :: rest then some 0 else (index sep rest).map (· + 1)

theorem index_eq_some (found : index sep s = some i) :
    i + sep.length ≤ s.length ∧ sep <:+ s.take (i + sep.length) ∧
      ∀ p, p <+: s → sep <:+ p → i + sep.length ≤ p.length := by
  induction s generalizing i with
  | nil =>
    simp only [index] at found
    split at found
    · rename_i empty
      cases found
      simp [empty]
    · cases found
  | cons c rest ih =>
    simp only [index] at found
    split at found
    · rename_i here
      cases found
      rw [Nat.zero_add, ← List.prefix_iff_eq_take.mp here]
      exact ⟨here.length_le, List.suffix_refl sep, fun p _ ends => ends.length_le⟩
    · rename_i absent
      obtain ⟨j, later, same⟩ := Option.map_eq_some_iff.mp found
      obtain ⟨bound, ends, first⟩ := ih later
      have shift : i + sep.length = j + sep.length + 1 := by omega
      rw [shift, List.take_succ_cons, List.length_cons]
      refine ⟨by omega, ends.trans (List.suffix_cons c _), fun p part ends' => ?_⟩
      rcases List.prefix_cons_iff.mp part with rfl | ⟨p', rfl, part'⟩
      · exact absurd (List.suffix_nil.mp ends' ▸ List.nil_prefix) absent
      · rcases List.suffix_cons_iff.mp ends' with whole | inside
        · exact absurd (whole ▸ part) absent
        · have further := first p' part' inside
          rw [List.length_cons]
          omega

theorem index_eq_none_iff : index sep s = none ↔ ∀ p, p <+: s → ¬ sep <:+ p := by
  induction s with
  | nil => simp [index]
  | cons c rest ih =>
    simp only [index]
    constructor
    · intro none p part ends
      split at none
      · cases none
      · rename_i absent
        have later := ih.mp (Option.map_eq_none_iff.mp none)
        rcases List.prefix_cons_iff.mp part with rfl | ⟨p', rfl, part'⟩
        · exact absent (List.suffix_nil.mp ends ▸ List.nil_prefix)
        · rcases List.suffix_cons_iff.mp ends with whole | inside
          · exact absent (whole ▸ part)
          · exact later p' part' inside
    · intro never
      rw [if_neg fun here => never sep here (List.suffix_refl sep)]
      apply Option.map_eq_none_iff.mpr
      apply ih.mpr
      intro p part ends
      exact never (c :: p) (List.prefix_cons_inj c |>.mpr part) (ends.trans (List.suffix_cons c p))

/-- Where nothing ends too early, the search may start later. -/
theorem index_drop {n : Nat} (early : ∀ p, p <+: s → sep <:+ p → n + sep.length ≤ p.length) (bound : n ≤ s.length) :
    index sep s = (index sep (s.drop n)).map (· + n) := by
  induction n generalizing s with
  | zero => simp
  | succ n ih =>
    cases s with
    | nil => simp at bound
    | cons c rest =>
      have absent : ¬ sep <+: c :: rest := by
        intro here
        have short := early sep here (List.suffix_refl sep)
        omega
      have later := ih (s := rest)
        (fun p part ends => by
          have longer := early (c :: p) ((List.prefix_cons_inj c).mpr part) (ends.trans (List.suffix_cons c p))
          rw [List.length_cons] at longer
          omega)
        (by simpa using bound)
      simp only [index, absent, if_false]
      rw [later, Option.map_map]
      rfl

end Text
