import Mathlib.Data.List.Basic
import Mathlib.Data.List.TakeWhile

namespace Text

variable {α : Type} (folded blank : α → Bool)

/-- The fields of a header, each with the folded lines that go on with it, and the lines from the first
    blank one on. -/
def splitFields : List α → List (List α) × List α
  | [] => ([], [])
  | line :: later =>
    if blank line then ([], line :: later)
    else
      match (splitFields later).1 with
      | [] => ([[line]], (splitFields later).2)
      | field :: fields =>
        if field.head?.any folded then ((line :: field) :: fields, (splitFields later).2)
        else ([line] :: field :: fields, (splitFields later).2)

/-- A line that is not folded begins a field, a folded one goes on with the field before it, and the
    header ends before the first blank line. -/
structure Fields (ls : List α) (fields : List (List α)) (rest : List α) : Prop where
  whole : ls = fields.flatten ++ rest
  field : ∀ field ∈ fields, ∃ line more, field = line :: more ∧ blank line = false ∧ ∀ l ∈ more, folded l = true
  anew : ∀ field ∈ fields.tail, field.head?.any folded = false
  stops : ∀ line ∈ rest.head?, blank line = true

variable {folded blank} {ls later more rest : List α} {line : α} {fields : List (List α)}

theorem Fields.of_nil (parts : Fields folded blank ([] : List α) fields rest) : fields = [] ∧ rest = [] := by
  obtain ⟨none, empty⟩ := List.append_eq_nil_iff.mp parts.whole.symm
  refine ⟨?_, empty⟩
  cases fields with
  | nil => rfl
  | cons field fields =>
    obtain ⟨line, more, rfl, _⟩ := parts.field field List.mem_cons_self
    simp at none

theorem Fields.of_blank (parts : Fields folded blank (line :: later) fields rest) (empty : blank line = true) :
    fields = [] ∧ rest = line :: later := by
  cases fields with
  | nil => exact ⟨rfl, by simpa using parts.whole.symm⟩
  | cons field fields =>
    obtain ⟨first, more, rfl, some, _⟩ := parts.field field List.mem_cons_self
    have same : line = first := by simpa using congrArg List.head? parts.whole
    rw [← same, empty] at some
    cases some

theorem Fields.of_line (apart : ∀ l, folded l = true → blank l = false)
    (parts : Fields folded blank (line :: later) fields rest) (some : blank line = false) :
    ∃ fields', fields = (line :: later.takeWhile folded) :: fields' ∧
      Fields folded blank (later.dropWhile folded) fields' rest := by
  cases fields with
  | nil =>
    have whole : rest = line :: later := by simpa using parts.whole.symm
    have empty := parts.stops line (by simp [whole])
    rw [some] at empty
    cases empty
  | cons field fields =>
    obtain ⟨first, more, rfl, _, goes⟩ := parts.field field List.mem_cons_self
    obtain ⟨rfl, tail⟩ : line = first ∧ later = more ++ (fields.flatten ++ rest) := by
      simpa using parts.whole
    have stopped : (fields.flatten ++ rest).dropWhile folded = fields.flatten ++ rest ∧
        (fields.flatten ++ rest).takeWhile folded = [] := by
      cases here : fields.flatten ++ rest with
      | nil => exact ⟨rfl, rfl⟩
      | cons next others =>
        have plain : folded next = false := by
          cases fields with
          | nil =>
            have head := parts.stops next (by simpa using congrArg List.head? here)
            by_contra fold
            have := apart next (by simpa using fold)
            rw [head] at this
            cases this
          | cons field' fields =>
            have anew := parts.anew field' (by simp)
            obtain ⟨first', more', rfl, _⟩ := parts.field field' (by simp)
            have same : first' = next := by simpa using congrArg List.head? here
            simpa [same] using anew
        simp [plain]
    refine ⟨fields, ?_, ?_⟩
    · rw [tail, List.takeWhile_append_of_pos goes, stopped.2, List.append_nil]
    · rw [tail, List.dropWhile_append_of_pos goes, stopped.1]
      refine ⟨rfl, fun field member => parts.field field (List.mem_cons_of_mem _ member), ?_, parts.stops⟩
      intro field member
      exact parts.anew field (List.mem_of_mem_tail member)

theorem Fields.unique (apart : ∀ l, folded l = true → blank l = false) {fields' : List (List α)} {rest' : List α}
    (parts : Fields folded blank ls fields rest) (parts' : Fields folded blank ls fields' rest') :
    fields = fields' ∧ rest = rest' := by
  induction fields generalizing ls fields' with
  | nil =>
    cases ls with
    | nil => exact ⟨parts'.of_nil.1.symm, parts.of_nil.2.trans parts'.of_nil.2.symm⟩
    | cons line later =>
      have whole : rest = line :: later := by simpa using parts.whole.symm
      have empty := parts.stops line (by simp [whole])
      have other := parts'.of_blank empty
      exact ⟨other.1.symm, whole.trans other.2.symm⟩
  | cons field fields ih =>
    obtain ⟨line, more, rfl, some, _⟩ := parts.field field List.mem_cons_self
    have whole : ls = line :: (more ++ (fields.flatten ++ rest)) := by simpa using parts.whole
    rw [whole] at parts parts'
    obtain ⟨others, same, left⟩ := parts.of_line apart some
    obtain ⟨others', same', left'⟩ := parts'.of_line apart some
    obtain ⟨head, rfl⟩ := List.cons.inj same
    obtain ⟨rfl, rfl⟩ := ih left left'
    exact ⟨by rw [same', head], rfl⟩

theorem fields_splitFields (ls : List α) :
    Fields folded blank ls (splitFields folded blank ls).1 (splitFields folded blank ls).2 := by
  induction ls with
  | nil => exact ⟨rfl, by simp [splitFields], by simp [splitFields], by simp [splitFields]⟩
  | cons line later ih =>
    simp only [splitFields]
    split
    · rename_i empty
      exact ⟨rfl, by simp, by simp, by simpa using empty⟩
    · rename_i some
      have some : blank line = false := by simpa using some
      obtain ⟨whole, field, anew, stops⟩ := ih
      split
      · rename_i none
        rw [none] at whole
        exact ⟨by simpa using whole, by simpa using some, by simp, stops⟩
      · rename_i first fields here
        rw [here] at whole field anew
        split
        · rename_i fold
          refine ⟨by simpa using whole, ?_, by simpa using anew, stops⟩
          intro f member
          rcases List.mem_cons.mp member with rfl | later'
          · obtain ⟨head, more, rfl, _, goes⟩ := field first List.mem_cons_self
            refine ⟨line, head :: more, rfl, some, ?_⟩
            exact List.forall_mem_cons.mpr ⟨by simpa using fold, goes⟩
          · exact field f (List.mem_cons_of_mem _ later')
        · rename_i plain
          refine ⟨by simpa using whole, ?_, ?_, stops⟩
          · exact List.forall_mem_cons.mpr ⟨⟨line, [], rfl, some, by simp⟩, field⟩
          · rw [List.tail_cons]
            refine List.forall_mem_cons.mpr ⟨by simpa using plain, ?_⟩
            simpa using anew

theorem splitFields_blank (empty : blank line = true) : splitFields folded blank (line :: later) = ([], line :: later) := by
  simp [splitFields, empty]

theorem splitFields_line (apart : ∀ l, folded l = true → blank l = false) (some : blank line = false) :
    splitFields folded blank (line :: later) =
      ((line :: later.takeWhile folded) :: (splitFields folded blank (later.dropWhile folded)).1,
        (splitFields folded blank (later.dropWhile folded)).2) := by
  obtain ⟨fields, same, left⟩ := (fields_splitFields (line :: later)).of_line apart some
  obtain ⟨others, rest⟩ := left.unique apart (fields_splitFields _)
  rw [← others, ← rest, ← same]

theorem Fields.filter (keep : List α → Bool) (parts : Fields folded blank ls fields rest) :
    Fields folded blank ((fields.filter keep).flatten ++ rest) (fields.filter keep) rest where
  whole := rfl
  field field member := parts.field field (List.mem_of_mem_filter member)
  anew := by
    intro field member
    cases fields with
    | nil => simp at member
    | cons first fields =>
      have within : (List.filter keep (first :: fields)).tail.Sublist fields := by
        rw [List.filter_cons]
        split
        · exact List.filter_sublist
        · exact (List.tail_sublist _).trans List.filter_sublist
      exact parts.anew field (within.subset member)
  stops := parts.stops

end Text
