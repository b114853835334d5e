import Mathlib.Algebra.GroupWithZero.Nat
import Mailgw.Deliver.Client

namespace Mailgw.Deliver

abbrev Idle := List (Chars × List Pooled)

namespace Idle

variable {idle : Idle} {key key' : Chars} {cs : List Pooled}

def keys (idle : Idle) : List Chars := idle.map Prod.fst

def slot (idle : Idle) (key : Chars) : List Pooled := (idle.lookup key).getD []

def without (idle : Idle) (key : Chars) : Idle := idle.filter fun entry => entry.1 ≠ key

def setIdle (idle : Idle) (key : Chars) (cs : List Pooled) : Idle :=
  if cs = [] then idle.without key else (key, cs) :: idle.without key

def total (idle : Idle) : Nat := (idle.map fun entry => entry.2.length).sum

def all (idle : Idle) : List Pooled := idle.flatMap Prod.snd

def take (idle : Idle) (key : Chars) : Option (Pooled × Idle) :=
  (idle.slot key).getLast?.map fun conn => (conn, idle.setIdle key (idle.slot key).dropLast)

def push (idle : Idle) (key : Chars) (conn : Pooled) : Idle := idle.setIdle key (idle.slot key ++ [conn])

def expire (idle : Idle) (cutoff : Int) : List Pooled × Idle :=
  (idle.flatMap fun entry => entry.2.filter fun conn => conn.usedAt < cutoff,
    (idle.map fun entry => (entry.1, entry.2.filter fun conn => ¬ conn.usedAt < cutoff)).filter
      fun entry => entry.2 ≠ [])

@[simp] theorem slot_cons (entry : Chars × List Pooled) (idle : Idle) (key : Chars) :
    slot (entry :: idle) key = if key = entry.1 then entry.2 else slot idle key := by
  obtain ⟨key', cs⟩ := entry
  by_cases same : key = key'
  · simp [slot, same]
  · have differ : (key == key') = false := by simpa using same
    simp [slot, List.lookup_cons, same, differ]

@[simp] theorem all_cons (entry : Chars × List Pooled) (idle : Idle) : all (entry :: idle) = entry.2 ++ all idle := rfl

@[simp] theorem all_nil : all [] = [] := rfl

@[simp] theorem slot_nil (key : Chars) : slot [] key = [] := rfl

theorem without_cons (entry : Chars × List Pooled) (idle : Idle) (key : Chars) :
    without (entry :: idle) key = if entry.1 = key then without idle key else entry :: without idle key := by
  by_cases same : entry.1 = key <;> simp [without, same]

theorem total_eq (idle : Idle) : idle.total = idle.all.length := by
  simp [total, all, List.length_flatMap]

theorem without_of_notMem (absent : key ∉ idle.keys) : idle.without key = idle := by
  apply List.filter_eq_self.mpr
  intro entry member
  simp only [decide_eq_true_eq]
  rintro rfl
  exact absent (List.mem_map_of_mem member)

theorem notMem_without (idle : Idle) (key : Chars) : key ∉ (idle.without key).keys := by
  simp [keys, without]

@[simp] theorem slot_without (idle : Idle) (key key' : Chars) :
    (idle.without key).slot key' = if key' = key then [] else idle.slot key' := by
  induction idle with
  | nil => simp [without]
  | cons entry rest ih =>
    rw [without_cons]
    by_cases here : entry.1 = key
    · rw [if_pos here, ih, slot_cons, here]
      by_cases same : key' = key <;> simp [same]
    · rw [if_neg here, slot_cons, slot_cons, ih]
      by_cases same : key' = entry.1
      · simp [same, here]
      · simp [same]

theorem nodup_without (unique : idle.keys.Nodup) (key : Chars) : (idle.without key).keys.Nodup :=
  (List.filter_sublist.map Prod.fst).nodup unique

theorem nodup_setIdle (unique : idle.keys.Nodup) : (idle.setIdle key cs).keys.Nodup := by
  unfold setIdle
  split
  · exact nodup_without unique key
  · exact List.nodup_cons.mpr ⟨notMem_without idle key, nodup_without unique key⟩

@[simp] theorem slot_setIdle (idle : Idle) (key key' : Chars) (cs : List Pooled) :
    (idle.setIdle key cs).slot key' = if key' = key then cs else idle.slot key' := by
  unfold setIdle
  split
  · rename_i empty
    simp [empty]
  · by_cases same : key' = key <;> simp [same]

@[simp] theorem all_setIdle (idle : Idle) (key : Chars) (cs : List Pooled) :
    (idle.setIdle key cs).all = cs ++ (idle.without key).all := by
  unfold setIdle
  split
  · rename_i empty
    simp [empty]
  · rfl

theorem all_split (unique : idle.keys.Nodup) (key : Chars) :
    idle.all.Perm (idle.slot key ++ (idle.without key).all) := by
  induction idle with
  | nil => rfl
  | cons entry rest ih =>
    obtain ⟨absent, unique⟩ := List.nodup_cons.mp unique
    rw [without_cons, slot_cons, all_cons]
    by_cases here : entry.1 = key
    · subst here
      rw [if_pos rfl, if_pos rfl, without_of_notMem absent]
    · rw [if_neg here, if_neg (Ne.symm here), all_cons]
      apply ((ih unique).append_left entry.2).trans
      rw [← List.append_assoc, ← List.append_assoc]
      exact List.perm_append_comm.append_right _

theorem mem_all_of_slot (unique : idle.keys.Nodup) {conn : Pooled} (member : conn ∈ idle.slot key) : conn ∈ idle.all :=
  (all_split unique key).mem_iff.mpr (List.mem_append_left _ member)

theorem take_eq {conn : Pooled} {idle' : Idle} (taken : idle.take key = some (conn, idle')) :
    idle.slot key = (idle'.slot key) ++ [conn] ∧ idle' = idle.setIdle key (idle'.slot key) := by
  obtain ⟨last, found, same⟩ := Option.map_eq_some_iff.mp taken
  obtain ⟨rfl, rfl⟩ := Prod.mk.inj same
  obtain ⟨front, split⟩ := List.getLast?_eq_some_iff.mp found
  simp [split]

theorem slot_of_notMem (absent : key ∉ idle.keys) : idle.slot key = [] := by
  induction idle with
  | nil => rfl
  | cons entry rest ih =>
    simp only [keys, List.map_cons, List.mem_cons, not_or] at absent
    rw [slot_cons, if_neg absent.1]
    exact ih absent.2

theorem keys_expire (unique : idle.keys.Nodup) (cutoff : Int) : (idle.expire cutoff).2.keys.Nodup := by
  have same : (idle.map fun entry => (entry.1, entry.2.filter fun conn => ¬ conn.usedAt < cutoff)).map Prod.fst =
      idle.keys := by
    simp [keys, Function.comp_def]
  apply (List.filter_sublist.map Prod.fst).nodup
  rw [same]
  exact unique

theorem expire_cons (entry : Chars × List Pooled) (idle : Idle) (cutoff : Int) :
    (expire (entry :: idle) cutoff).2 =
      if entry.2.filter (fun conn => ¬ conn.usedAt < cutoff) = [] then (expire idle cutoff).2
      else (entry.1, entry.2.filter fun conn => ¬ conn.usedAt < cutoff) :: (expire idle cutoff).2 := by
  simp only [expire, List.map_cons, List.filter_cons, decide_eq_true_eq, ne_eq, ite_not]

theorem slot_expire (unique : idle.keys.Nodup) (cutoff : Int) (key : Chars) :
    (idle.expire cutoff).2.slot key = (idle.slot key).filter fun conn => ¬ conn.usedAt < cutoff := by
  induction idle with
  | nil => rfl
  | cons entry rest ih =>
    obtain ⟨absent, unique⟩ := List.nodup_cons.mp unique
    rw [expire_cons, slot_cons]
    split
    · rename_i empty
      rw [ih unique]
      split
      · rename_i same
        rw [empty, same, slot_of_notMem absent]
        rfl
      · rfl
    · rw [slot_cons, ih unique]
      split <;> rfl

theorem all_expire (idle : Idle) (cutoff : Int) :
    idle.all.Perm ((idle.expire cutoff).1 ++ (idle.expire cutoff).2.all) := by
  induction idle with
  | nil => rfl
  | cons entry rest ih =>
    have kept : all (expire (entry :: rest) cutoff).2 =
        (entry.2.filter fun conn => ¬ conn.usedAt < cutoff) ++ all (expire rest cutoff).2 := by
      rw [expire_cons]
      split
      · rename_i empty
        rw [empty]
        rfl
      · rfl
    have swept : (expire (entry :: rest) cutoff).1 =
        (entry.2.filter fun conn => conn.usedAt < cutoff) ++ (expire rest cutoff).1 := rfl
    have halves : (entry.2.filter (fun conn => conn.usedAt < cutoff) ++
        entry.2.filter fun conn => ¬ conn.usedAt < cutoff).Perm entry.2 := by
      simpa only [decide_not] using List.filter_append_perm (fun conn : Pooled => decide (conn.usedAt < cutoff)) entry.2
    rw [all_cons, kept, swept]
    apply (halves.symm.append ih).trans
    simp only [List.append_assoc]
    apply List.Perm.append_left
    simp only [← List.append_assoc]
    exact List.perm_append_comm.append_right _

end Idle

end Mailgw.Deliver
