import Mathlib.Data.List.AList
import Mathlib.Data.List.Sort

namespace Files

structure Folders (D N F : Type) where
  files : AList fun _ : D × N => F

namespace Folders

variable {D N F : Type} [DecidableEq D] [DecidableEq N]

def empty : Folders D N F := ⟨∅⟩

def get (d : Folders D N F) (dir : D) (name : N) : Option F := d.files.lookup (dir, name)

def put (d : Folders D N F) (dir : D) (name : N) (file : F) : Folders D N F := ⟨d.files.insert (dir, name) file⟩

def del (d : Folders D N F) (dir : D) (name : N) : Folders D N F := ⟨d.files.erase (dir, name)⟩

def list [LinearOrder N] (d : Folders D N F) (dir : D) : List N :=
  ((d.files.keys.filter fun key => key.1 = dir).map Prod.snd).insertionSort (· ≤ ·)

@[simp] theorem get_empty (dir : D) (name : N) : (empty : Folders D N F).get dir name = none := rfl

theorem get_put (d : Folders D N F) (dir dir' : D) (name name' : N) (file : F) :
    (d.put dir name file).get dir' name' =
      if dir' = dir ∧ name' = name then some file else d.get dir' name' := by
  unfold get put
  split
  · rename_i same
    rw [same.1, same.2, AList.lookup_insert]
  · rename_i other
    rw [AList.lookup_insert_ne fun same => other (Prod.mk.inj same)]

theorem get_del (d : Folders D N F) (dir dir' : D) (name name' : N) :
    (d.del dir name).get dir' name' = if dir' = dir ∧ name' = name then none else d.get dir' name' := by
  unfold get del
  split
  · rename_i same
    rw [same.1, same.2, AList.lookup_erase]
  · rename_i other
    rw [AList.lookup_erase_ne fun same => other (Prod.mk.inj same)]

def move (d : Folders D N F) (dir : D) (name : N) (dir' : D) (name' : N) (file : F) : Folders D N F :=
  (d.del dir name).put dir' name' file

theorem get_move (d : Folders D N F) (dir dir' dir'' : D) (name name' name'' : N) (file : F) :
    (d.move dir name dir' name' file).get dir'' name'' =
      if dir'' = dir' ∧ name'' = name' then some file
      else if dir'' = dir ∧ name'' = name then none else d.get dir'' name'' := by
  unfold move
  rw [get_put, get_del]

section Listing
variable [LinearOrder N]

theorem mem_list {d : Folders D N F} {dir : D} {name : N} :
    name ∈ d.list dir ↔ ∃ file, d.get dir name = some file := by
  have present : (∃ file, d.get dir name = some file) ↔ (dir, name) ∈ d.files := by
    rw [← Option.isSome_iff_exists]
    exact AList.lookup_isSome
  rw [present]
  simp [list, AList.mem_keys]

omit [DecidableEq N] in
theorem list_nodup (d : Folders D N F) (dir : D) : (d.list dir).Nodup := by
  apply (List.perm_insertionSort _ _).nodup_iff.mpr
  apply List.Nodup.map_on _ (d.files.keys_nodup.filter _)
  intro key within key' within' same
  have here := (List.mem_filter.mp within).2
  have here' := (List.mem_filter.mp within').2
  simp only [decide_eq_true_eq] at here here'
  exact Prod.ext (here.trans here'.symm) same

omit [DecidableEq N] in
theorem eq_of_mem_iff {left right : List N} (sorted : left.Pairwise (· ≤ ·)) (sorted' : right.Pairwise (· ≤ ·))
    (nodup : left.Nodup) (nodup' : right.Nodup) (same : ∀ name, name ∈ left ↔ name ∈ right) : left = right :=
  ((List.perm_ext_iff_of_nodup nodup nodup').mpr same).eq_of_pairwise' sorted sorted'

end Listing

end Folders

end Files
