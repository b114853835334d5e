import Mathlib.Data.List.Nodup
import Mathlib.Data.List.Perm.Subperm

namespace Lists

structure Table (κ ν : Type) where
  entries : List (κ × ν)
  distinct : (entries.map Prod.fst).Nodup

namespace Table

variable {κ ν : Type} [DecidableEq κ]

def empty : Table κ ν := ⟨[], List.nodup_nil⟩

def get (t : Table κ ν) (key : κ) : Option ν := (t.entries.find? fun entry => entry.1 = key).map Prod.snd

def keep (t : Table κ ν) (p : κ → ν → Bool) : Table κ ν where
  entries := t.entries.filter fun entry => p entry.1 entry.2
  distinct := (List.filter_sublist.map _).nodup t.distinct

def del (t : Table κ ν) (key : κ) : Table κ ν := t.keep fun k _ => k ≠ key

def set (t : Table κ ν) (key : κ) (value : ν) : Table κ ν where
  entries := (key, value) :: (t.del key).entries
  distinct := by
    apply List.nodup_cons.mpr
    refine ⟨fun member => ?_, (t.del key).distinct⟩
    obtain ⟨entry, there, same⟩ := List.mem_map.mp member
    simpa [same] using List.of_mem_filter there

def size (t : Table κ ν) : Nat := t.entries.length

variable {t : Table κ ν} {key key' : κ} {value : ν} {p : κ → ν → Bool}

theorem get_eq_some_iff : t.get key = some value ↔ (key, value) ∈ t.entries := by
  unfold get
  constructor
  · intro found
    obtain ⟨entry, here, same⟩ := Option.map_eq_some_iff.mp found
    have named : entry.1 = key := by simpa using List.find?_some here
    rw [← named, ← same]
    exact List.mem_of_find?_eq_some here
  · intro member
    cases found : t.entries.find? fun entry => entry.1 = key with
    | none => exact absurd (List.find?_eq_none.mp found _ member) (by simp)
    | some entry =>
      have named : entry.1 = key := by simpa using List.find?_some found
      have same := List.inj_on_of_nodup_map t.distinct (List.mem_of_find?_eq_some found) member named
      rw [same]
      rfl

@[simp] theorem get_empty : (empty : Table κ ν).get key = none := rfl

theorem get_keep : (t.keep p).get key = (t.get key).filter (p key) := by
  ext value
  rw [get_eq_some_iff, Option.filter_eq_some_iff, get_eq_some_iff]
  simp [keep]

@[simp] theorem get_del : (t.del key).get key = none := by
  rw [del, get_keep]
  cases t.get key <;> simp [Option.filter]

theorem get_del_ne (other : key' ≠ key) : (t.del key).get key' = t.get key' := by
  rw [del, get_keep]
  cases t.get key' <;> simp [Option.filter, other]

@[simp] theorem get_set : (t.set key value).get key = some value := by
  simp [get, set]

theorem get_set_ne (other : key' ≠ key) : (t.set key value).get key' = t.get key' := by
  have old : (t.del key).get key' = t.get key' := get_del_ne other
  rw [← old]
  simp [get, set, Ne.symm other]

theorem entries_perm {t' : Table κ ν} (same : ∀ key, t.get key = t'.get key) : t.entries.Perm t'.entries := by
  apply (List.perm_ext_iff_of_nodup (List.Nodup.of_map _ t.distinct) (List.Nodup.of_map _ t'.distinct)).mpr
  intro entry
  have here := same entry.1
  rw [← get_eq_some_iff, ← get_eq_some_iff, here]

omit [DecidableEq κ] in
theorem size_keep_le : (t.keep p).size ≤ t.size := List.length_filter_le _ _

omit [DecidableEq κ] in
theorem size_keep_of_alike (key : κ) (alike : ∀ k v, p k v = true → k = key) : (t.keep p).size ≤ 1 := by
  have keys : (t.keep p).entries.map Prod.fst = List.replicate (t.keep p).size key := by
    apply List.eq_replicate_iff.mpr
    constructor
    · rw [List.length_map, size]
    · intro k member
      obtain ⟨entry, there, rfl⟩ := List.mem_map.mp member
      have kept : entry ∈ t.entries.filter fun entry => p entry.1 entry.2 := there
      have passed : p entry.1 entry.2 = true := by simpa using List.of_mem_filter kept
      exact alike entry.1 entry.2 passed
  have distinct := (t.keep p).distinct
  rw [keys] at distinct
  exact List.nodup_replicate.mp distinct

theorem size_set_le : (t.set key value).size ≤ t.size + 1 := Nat.succ_le_succ size_keep_le

theorem size_set_of_some {old : ν} (found : t.get key = some old) : (t.set key value).size ≤ t.size := by
  have member := get_eq_some_iff.mp found
  have fewer : (t.del key).entries.length < t.entries.length := by
    apply List.length_filter_lt_length_iff_exists.mpr
    exact ⟨(key, old), member, by simp⟩
  exact fewer

def agrees [DecidableEq ν] (t t' : Table κ ν) : Bool :=
  decide (t.size = t'.size) && t.entries.all fun entry => decide (t'.get entry.1 = some entry.2)

theorem get_eq_of_size {t' : Table κ ν} (size : t.size = t'.size)
    (all : ∀ entry ∈ t.entries, t'.get entry.1 = some entry.2) (key : κ) : t.get key = t'.get key := by
  have inside : t.entries ⊆ t'.entries := fun entry member => get_eq_some_iff.mp (all entry member)
  have sub : t.entries.Subperm t'.entries := (List.Nodup.of_map _ t.distinct).subperm inside
  have perm := sub.perm_of_length_le (Nat.le_of_eq size.symm)
  ext value
  rw [get_eq_some_iff, get_eq_some_iff, perm.mem_iff]

theorem agrees_iff [DecidableEq ν] {t' : Table κ ν} : t.agrees t' = true ↔ ∀ key, t.get key = t'.get key := by
  simp only [agrees, Bool.and_eq_true, decide_eq_true_eq, List.all_eq_true]
  constructor
  · rintro ⟨size, all⟩
    exact get_eq_of_size size all
  · intro same
    constructor
    · exact (entries_perm same).length_eq
    · intro entry member
      rw [← same]
      exact get_eq_some_iff.mpr member

end Table

end Lists
