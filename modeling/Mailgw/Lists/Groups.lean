import Mathlib.Algebra.GroupWithZero.Nat
import Mathlib.Data.List.Nodup
import Mathlib.Data.List.Perm.Subperm

namespace Lists

variable {κ l α ι : Type}

theorem injOn_of_covers {key : ι → κ} {values : List ι} {ks : List κ} (nodup : ks.Nodup) (covered : ks ⊆ values.map key)
    (count : values.length = ks.length) : ∀ x ∈ values, ∀ y ∈ values, key x = key y → x = y := by
  have same : ks.Perm (values.map key) :=
    (List.subperm_of_subset nodup covered).perm_of_length_le (by simp [count])
  have distinct : (values.map key).Nodup := same.nodup_iff.mp nodup
  intro x here y there
  exact List.inj_on_of_nodup_map distinct here there

/-- Items by key, the keys in the order of their first item. A group has the label of its first
    item. -/
abbrev Groups (κ l α : Type) := List (κ × l × List α)

namespace Groups

def keys (groups : Groups κ l α) : List κ := groups.map fun g => g.1

theorem mem_keys {groups : Groups κ l α} {g : κ × l × List α} (member : g ∈ groups) : g.1 ∈ groups.keys :=
  List.mem_map_of_mem member

variable [DecidableEq κ]

def add (key : κ) (label : l) (item : α) : Groups κ l α → Groups κ l α
  | [] => [(key, label, [item])]
  | (k, label', items) :: rest =>
    if k = key then (k, label', items ++ [item]) :: rest else (k, label', items) :: add key label item rest

variable {key : κ} {label : l} {item : α} {groups : Groups κ l α}

theorem keys_add (key : κ) (label : l) (item : α) (groups : Groups κ l α) :
    (groups.add key label item).keys = if key ∈ groups.keys then groups.keys else groups.keys ++ [key] := by
  induction groups with
  | nil => simp [add, keys]
  | cons g rest ih =>
    obtain ⟨k, label', items⟩ := g
    by_cases same : k = key
    · subst same
      simp [add, keys]
    · have tail : keys ((k, label', items) :: add key label item rest) = k :: keys (add key label item rest) := rfl
      have whole : keys ((k, label', items) :: rest) = k :: keys rest := rfl
      simp only [add, same, if_false]
      rw [tail, whole, ih]
      by_cases known : key ∈ keys rest <;> simp [known, Ne.symm same]

theorem nodup_add (nodup : groups.keys.Nodup) : (groups.add key label item).keys.Nodup := by
  rw [keys_add]
  split
  · exact nodup
  · rename_i fresh
    exact List.nodup_append.mpr ⟨nodup, List.nodup_singleton _, by
      intro k member other single
      rw [List.mem_singleton.mp single]
      rintro rfl
      exact fresh member⟩

theorem mem_add (nodup : groups.keys.Nodup) {g : κ × l × List α} (member : g ∈ groups.add key label item) :
    (g ∈ groups ∧ g.1 ≠ key) ∨ (∃ label' items, (key, label', items) ∈ groups ∧ g = (key, label', items ++ [item])) ∨
      (key ∉ groups.keys ∧ g = (key, label, [item])) := by
  induction groups with
  | nil =>
    right; right
    exact ⟨by simp [keys], by simpa [add] using member⟩
  | cons head rest ih =>
    obtain ⟨k, label', items⟩ := head
    have fresh : k ∉ keys rest := (List.nodup_cons.mp nodup).1
    have tail : (keys rest).Nodup := (List.nodup_cons.mp nodup).2
    by_cases same : k = key
    · subst same
      simp only [add, if_true, List.mem_cons] at member
      rcases member with rfl | later
      · right; left
        exact ⟨label', items, by simp, rfl⟩
      · left
        refine ⟨List.mem_cons_of_mem _ later, ?_⟩
        rintro rfl
        exact fresh (mem_keys later)
    · simp only [add, same, if_false, List.mem_cons] at member
      rcases member with rfl | later
      · left
        exact ⟨by simp, same⟩
      · rcases ih tail later with ⟨old, other⟩ | ⟨label', items, old, grown⟩ | ⟨absent, created⟩
        · left
          exact ⟨List.mem_cons_of_mem _ old, other⟩
        · right; left
          exact ⟨label', items, List.mem_cons_of_mem _ old, grown⟩
        · right; right
          refine ⟨?_, created⟩
          simpa [keys, Ne.symm same] using absent

theorem count_add (key : κ) (label : l) (item : α) (groups : Groups κ l α) :
    ((groups.add key label item).map fun g => g.2.2.length).sum = (groups.map fun g => g.2.2.length).sum + 1 := by
  induction groups with
  | nil => rfl
  | cons g rest ih =>
    obtain ⟨k, label', items⟩ := g
    by_cases same : k = key
    · simp [add, same]
      omega
    · simp [add, same, ih]
      omega

/-- The groups hold the list, each its part in the order of the list. -/
structure Collects (key : ι → κ) (label : ι → l) (item : ι → α) (xs : List ι) (groups : Groups κ l α) : Prop where
  nodup : groups.keys.Nodup
  covers : ∀ x ∈ xs, key x ∈ groups.keys
  items : ∀ g ∈ groups, g.2.2 = (xs.filter fun x => key x = g.1).map item
  labels : ∀ g ∈ groups, ∃ x ∈ xs, key x = g.1 ∧ label x = g.2.1
  count : (groups.map fun g => g.2.2.length).sum = xs.length

namespace Collects

variable {key : ι → κ} {label : ι → l} {item : ι → α} {xs : List ι}

theorem nil : Collects key label item [] [] := ⟨by simp [keys], by simp, by simp, by simp, rfl⟩

theorem add (collects : Collects key label item xs groups) (x : ι) :
    Collects key label item (xs ++ [x]) (groups.add (key x) (label x) (item x)) := by
  refine ⟨nodup_add collects.nodup, ?_, ?_, ?_, ?_⟩
  · intro y member
    rw [keys_add]
    rcases List.mem_append.mp member with old | new
    · have known := collects.covers y old
      split
      · exact known
      · exact List.mem_append_left _ known
    · rw [List.mem_singleton.mp new]
      split
      · assumption
      · simp
  · intro g member
    rcases mem_add collects.nodup member with ⟨old, other⟩ | ⟨label', items, old, rfl⟩ | ⟨absent, rfl⟩
    · rw [collects.items g old]
      simp [List.filter_append, Ne.symm other]
    · have before := collects.items _ old
      simp only at before
      simp [List.filter_append, before]
    · have none : xs.filter (fun y => key y = key x) = [] := by
        rw [List.filter_eq_nil_iff]
        intro y within same
        exact absent (of_decide_eq_true same ▸ collects.covers y within)
      simp [List.filter_append, none]
  · intro g member
    rcases mem_add collects.nodup member with ⟨old, other⟩ | ⟨label', items, old, rfl⟩ | ⟨absent, rfl⟩
    · obtain ⟨y, within, same⟩ := collects.labels g old
      exact ⟨y, by simp [within], same⟩
    · obtain ⟨y, within, same⟩ := collects.labels _ old
      exact ⟨y, by simp [within], same⟩
    · exact ⟨x, by simp, rfl, rfl⟩
  · rw [count_add, collects.count]
    simp

theorem perm {groups' : Groups κ l α} (collects : Collects key label item xs groups) (perm : groups'.Perm groups) :
    Collects key label item xs groups' := by
  have keys' : groups'.keys.Perm groups.keys := perm.map _
  refine ⟨keys'.nodup_iff.mpr collects.nodup, ?_, ?_, ?_, ?_⟩
  · intro x member
    exact keys'.mem_iff.mpr (collects.covers x member)
  · intro g member
    exact collects.items g (perm.mem_iff.mp member)
  · intro g member
    exact collects.labels g (perm.mem_iff.mp member)
  · rw [← collects.count]
    exact (perm.map _).sum_nat

end Collects

end Groups

end Lists
