import Mailgw.Text.Letters
import Mailgw.Text.Rows

namespace Text

abbrev Line := List UInt8

def messageLines (text : List UInt8) : List Line := rows CR LF text

def joinLines (ls : List Line) : List UInt8 := unrows CR LF ls

structure Entity where
  fields : List Line
  body : List UInt8
  deriving Repr, DecidableEq

def entity (ls : List Line) : Entity :=
  ⟨ls.takeWhile (· ≠ []), joinLines (ls.dropWhile (· ≠ [])).tail⟩

def dashes : List UInt8 := ascii "--".toList

/-- A line that begins with the boundary, whatever else is on it. -/
def Delimits (boundary : List UInt8) (line : Line) : Prop := dashes ++ boundary <+: line

def Closes (boundary : List UInt8) (line : Line) : Prop := dashes ++ boundary ++ dashes <+: line

instance (boundary : List UInt8) (line : Line) : Decidable (Delimits boundary line) :=
  inferInstanceAs (Decidable (_ <+: _))

instance (boundary : List UInt8) (line : Line) : Decidable (Closes boundary line) :=
  inferInstanceAs (Decidable (_ <+: _))

def partsFrom (boundary : List UInt8) : List Line → Option (List (List Line))
  | [] => none
  | line :: rest =>
    if Closes boundary line then some [[]]
    else if Delimits boundary line then (partsFrom boundary rest).map ([] :: ·)
    else (partsFrom boundary rest).map (consFirst line)

/-- The parts of a body with several of them. What stands before the first delimiter is for nobody. -/
def parts (boundary : List UInt8) (ls : List Line) : Option (List (List Line)) :=
  match ls.dropWhile fun line => ¬ Delimits boundary line with
  | [] => none
  | line :: rest => if Closes boundary line then some [] else partsFrom boundary rest

def multipart (boundary : List UInt8) (text : List UInt8) : Option (List Entity) :=
  (parts boundary ((messageLines text).dropWhile (· ≠ [])).tail).map (List.map entity)

section Lines
variable {boundary : List UInt8} {line close : Line} {ls rest : List Line} {s x y : List UInt8}

theorem messageLines_append (x y : List UInt8) : messageLines (x ++ CRLF ++ y) = messageLines x ++ messageLines y := by
  rw [List.append_assoc]
  exact rows_append (by decide) x y

theorem messageLines_of_not_mem (plain : LF ∉ s) : messageLines s = [s] := rows_of_not_mem plain

theorem joinLines_messageLines (s : List UInt8) : joinLines (messageLines s) = s := unrows_rows s

theorem messageLines_joinLines (plain : ∀ line ∈ ls, LF ∉ line) (some : ls ≠ []) : messageLines (joinLines ls) = ls :=
  rows_unrows (by decide) plain some

theorem Closes.delimits (closes : Closes boundary line) : Delimits boundary line :=
  (List.prefix_append _ _).trans closes

theorem Delimits.ne_nil (delimits : Delimits boundary line) : line ≠ [] := by
  rintro rfl
  have none := List.prefix_nil.mp delimits
  simp [dashes, ascii] at none

theorem partsFrom_quiet (quiet : ∀ line ∈ ls, ¬ Delimits boundary line) (rest : List Line) :
    partsFrom boundary (ls ++ rest) = (partsFrom boundary rest).map fun found => ls.foldr consFirst found := by
  induction ls with
  | nil => simp
  | cons line ls ih =>
    have open_ : ¬ Delimits boundary line := quiet line List.mem_cons_self
    have open' : ¬ Closes boundary line := fun closes => open_ closes.delimits
    rw [List.cons_append, partsFrom, if_neg open', if_neg open_, ih fun l member => quiet l (List.mem_cons_of_mem _ member),
      Option.map_map]
    rfl

theorem foldr_consFirst (ls : List Line) (first : List Line) (more : List (List Line)) :
    ls.foldr consFirst (first :: more) = (ls ++ first) :: more := by
  induction ls with
  | nil => rfl
  | cons line ls ih =>
    rw [List.foldr_cons, ih]
    rfl

theorem partsFrom_part (quiet : ∀ line ∈ ls, ¬ Delimits boundary line) (delimits : Delimits boundary line)
    (more : ¬ Closes boundary line) (rest : List Line) :
    partsFrom boundary (ls ++ line :: rest) = (partsFrom boundary rest).map (ls :: ·) := by
  rw [partsFrom_quiet quiet, partsFrom, if_neg more, if_pos delimits, Option.map_map]
  congr 1
  funext found
  rw [Function.comp_apply, foldr_consFirst, List.append_nil]

theorem partsFrom_last (quiet : ∀ line ∈ ls, ¬ Delimits boundary line) (closes : Closes boundary line)
    (rest : List Line) : partsFrom boundary (ls ++ line :: rest) = some [ls] := by
  rw [partsFrom_quiet quiet, partsFrom, if_pos closes, Option.map_some, foldr_consFirst, List.append_nil]

theorem partsFrom_delimits (quiet : ∀ line ∈ ls, ¬ Delimits boundary line) (delimits : Delimits boundary line)
    {found : List (List Line)} (read : partsFrom boundary (ls ++ line :: rest) = some found) : found.head? = some ls := by
  by_cases closes : Closes boundary line
  · rw [partsFrom_last quiet closes] at read
    cases read
    rfl
  · rw [partsFrom_part quiet delimits closes] at read
    obtain ⟨later, _, rfl⟩ := Option.map_eq_some_iff.mp read
    rfl

theorem exists_first_delimiter (some' : ∃ line ∈ ls, Delimits boundary line) :
    ∃ before line after, ls = before ++ line :: after ∧ (∀ l ∈ before, ¬ Delimits boundary l) ∧ Delimits boundary line := by
  obtain ⟨line, member, delimits⟩ := some'
  have found : (ls.find? fun l => decide (Delimits boundary l)).isSome = true :=
    List.find?_isSome.mpr ⟨line, member, decide_eq_true delimits⟩
  obtain ⟨first, here⟩ := Option.isSome_iff_exists.mp found
  obtain ⟨delimits', before, after, split, quiet⟩ := List.find?_eq_some_iff_append.mp here
  exact ⟨before, first, after, split, fun l member => by simpa using quiet l member, of_decide_eq_true delimits'⟩

def partLines (field : Line) (s : List UInt8) : List Line := field :: [] :: messageLines s

theorem entity_partLines {field : Line} (some : field ≠ []) (ls : List Line) :
    entity (field :: [] :: ls) = ⟨[field], joinLines ls⟩ := by
  simp [entity, some]

theorem quiet_of_part {field : Line} (some' : field ≠ []) (plain : ¬ Delimits boundary field) {found : List (List Line)}
    (read : partsFrom boundary (partLines field s ++ rest) = some found)
    (same : (found.map entity).head? = some ⟨[field], s⟩) : ∀ line ∈ messageLines s, ¬ Delimits boundary line := by
  intro line member delimits
  obtain ⟨before, first, after, split, quiet, delimits⟩ := exists_first_delimiter ⟨line, member, delimits⟩
  have whole : partLines field s ++ rest = (field :: [] :: before) ++ first :: (after ++ rest) := by
    rw [partLines, split]
    simp
  have silent : ∀ l ∈ field :: [] :: before, ¬ Delimits boundary l := by
    intro l member
    rcases List.mem_cons.mp member with rfl | member
    · exact plain
    · rcases List.mem_cons.mp member with rfl | member
      · exact fun delimits => delimits.ne_nil rfl
      · exact quiet l member
  rw [whole] at read
  have head := partsFrom_delimits silent delimits read
  rw [List.head?_map, head, Option.map_some, entity_partLines some'] at same
  have shorter : (joinLines before).length < (joinLines (before ++ first :: after)).length :=
    length_unrows_lt delimits.ne_nil
  rw [← split] at shorter
  have body : joinLines before = joinLines (messageLines s) := by
    rw [joinLines_messageLines]
    exact congrArg Entity.body (Option.some.inj same)
  exact absurd (congrArg List.length body) (Nat.ne_of_lt shorter)

end Lines

end Text
