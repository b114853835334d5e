import Mathlib.Data.List.Basic

namespace Text

inductive Pattern where
  | none
  | empty
  | one (class_ : Char → Bool)
  | seq (first second : Pattern)
  | alt (first second : Pattern)
  | many (inner : Pattern)

namespace Pattern

inductive Matches : Pattern → List Char → Prop where
  | empty : Matches .empty []
  | one {class_ : Char → Bool} {c : Char} (member : class_ c = true) : Matches (.one class_) [c]
  | seq {first second : Pattern} {s t : List Char} (left : Matches first s) (right : Matches second t) :
      Matches (.seq first second) (s ++ t)
  | left {first second : Pattern} {s : List Char} (matched : Matches first s) : Matches (.alt first second) s
  | right {first second : Pattern} {s : List Char} (matched : Matches second s) : Matches (.alt first second) s
  | stop {inner : Pattern} : Matches (.many inner) []
  | again {inner : Pattern} {s t : List Char} (head : Matches inner s) (tail : Matches (.many inner) t) :
      Matches (.many inner) (s ++ t)

def char (c : Char) : Pattern := .one (· == c)

def optional (p : Pattern) : Pattern := .alt p .empty

def some (p : Pattern) : Pattern := .seq p (.many p)

def nullable : Pattern → Bool
  | .none | .one _ => false
  | .empty | .many _ => true
  | .seq first second => first.nullable && second.nullable
  | .alt first second => first.nullable || second.nullable

def after (c : Char) : Pattern → Pattern
  | .none | .empty => .none
  | .one class_ => if class_ c then .empty else .none
  | .seq first second =>
    if first.nullable then .alt (.seq (first.after c) second) (second.after c) else .seq (first.after c) second
  | .alt first second => .alt (first.after c) (second.after c)
  | .many inner => .seq (inner.after c) (.many inner)

def isMatch (p : Pattern) : List Char → Bool
  | [] => p.nullable
  | c :: rest => (p.after c).isMatch rest

section Inversion
variable {first second inner : Pattern} {s : List Char}

@[simp] theorem matches_none : ¬ Matches .none s := nofun

@[simp] theorem matches_empty : Matches .empty s ↔ s = [] :=
  ⟨fun matched => by cases matched; rfl, fun nil => nil ▸ .empty⟩

@[simp] theorem matches_one {class_ : Char → Bool} : Matches (.one class_) s ↔ ∃ c, s = [c] ∧ class_ c = true := by
  constructor
  · intro matched
    cases matched with
    | one member => exact ⟨_, rfl, member⟩
  · rintro ⟨c, rfl, member⟩
    exact .one member

@[simp] theorem matches_char {c : Char} : Matches (.char c) s ↔ s = [c] := by
  simp [char]

theorem matches_seq : Matches (.seq first second) s ↔ ∃ x y, s = x ++ y ∧ Matches first x ∧ Matches second y := by
  constructor
  · intro matched
    cases matched with
    | seq left right => exact ⟨_, _, rfl, left, right⟩
  · rintro ⟨x, y, rfl, left, right⟩
    exact .seq left right

@[simp] theorem matches_alt : Matches (.alt first second) s ↔ Matches first s ∨ Matches second s := by
  constructor
  · intro matched
    cases matched with
    | left matched => exact .inl matched
    | right matched => exact .inr matched
  · rintro (matched | matched)
    · exact .left matched
    · exact .right matched

@[simp] theorem matches_optional : Matches (.optional inner) s ↔ Matches inner s ∨ s = [] := by
  simp [optional]

theorem matches_many_one {class_ : Char → Bool} : Matches (.many (.one class_)) s ↔ ∀ c ∈ s, class_ c = true := by
  constructor
  · intro matched
    generalize same : Pattern.many (.one class_) = p at matched
    induction matched with
    | stop => simp
    | again head _ _ ih =>
      cases same
      obtain ⟨c, rfl, member⟩ := matches_one.mp head
      simpa [member] using ih rfl
    | _ => cases same
  · intro all
    induction s with
    | nil => exact .stop
    | cons c rest ih =>
      have tail := ih fun c member => all c (List.mem_cons_of_mem _ member)
      exact .again (s := [c]) (.one (all c List.mem_cons_self)) tail

theorem matches_some_one {class_ : Char → Bool} :
    Matches (.some (.one class_)) s ↔ s ≠ [] ∧ ∀ c ∈ s, class_ c = true := by
  rw [Pattern.some, matches_seq]
  constructor
  · rintro ⟨x, y, rfl, head, tail⟩
    obtain ⟨c, rfl, member⟩ := matches_one.mp head
    refine ⟨by simp, ?_⟩
    simpa [member] using matches_many_one.mp tail
  · rintro ⟨nonempty, all⟩
    obtain ⟨c, rest, rfl⟩ := List.exists_cons_of_ne_nil nonempty
    refine ⟨[c], rest, rfl, .one (all c (by simp)), matches_many_one.mpr ?_⟩
    exact fun c member => all c (by simp [member])

end Inversion

theorem nullable_iff (p : Pattern) : p.nullable = true ↔ p.Matches [] := by
  induction p with
  | none => simp [nullable]
  | empty => simp [nullable]
  | one class_ => simp [nullable]
  | seq first second ihFirst ihSecond =>
    rw [matches_seq]
    simp [nullable, ihFirst, ihSecond]
  | alt first second ihFirst ihSecond => simp [nullable, ihFirst, ihSecond]
  | many inner => exact ⟨fun _ => .stop, fun _ => rfl⟩

theorem matches_many_cons {inner : Pattern} {c : Char} {s : List Char} (matched : Matches (.many inner) (c :: s)) :
    ∃ x y, s = x ++ y ∧ Matches inner (c :: x) ∧ Matches (.many inner) y := by
  generalize same : Pattern.many inner = p at matched
  generalize text : c :: s = t at matched
  induction matched with
  | @again _ x y head tail _ ih =>
    cases same
    cases x with
    | nil => exact ih rfl text
    | cons d x =>
      cases text
      exact ⟨x, y, rfl, head, tail⟩
  | stop => cases text
  | _ => cases same

theorem after_iff (p : Pattern) (c : Char) (s : List Char) : (p.after c).Matches s ↔ p.Matches (c :: s) := by
  induction p generalizing s with
  | none => simp [after]
  | empty => simp [after]
  | one class_ =>
    rw [after]
    split
    · rename_i member
      simp [member]
    · rename_i other
      simp [other]
  | seq first second ihFirst ihSecond =>
    have split_ : Matches (.seq first second) (c :: s) ↔
        (∃ x y, s = x ++ y ∧ Matches first (c :: x) ∧ Matches second y) ∨
          (Matches first [] ∧ Matches second (c :: s)) := by
      rw [matches_seq]
      constructor
      · rintro ⟨x, y, text, left, right⟩
        cases x with
        | nil =>
          rw [List.nil_append] at text
          exact .inr ⟨left, text ▸ right⟩
        | cons d x =>
          cases text
          exact .inl ⟨x, y, rfl, left, right⟩
      · rintro (⟨x, y, rfl, left, right⟩ | ⟨left, right⟩)
        · exact ⟨c :: x, y, rfl, left, right⟩
        · exact ⟨[], c :: s, rfl, left, right⟩
    rw [split_, after]
    split
    · rename_i null
      rw [matches_alt, matches_seq, ihSecond]
      simp [ihFirst, (nullable_iff first).mp null]
    · rename_i solid
      have nonempty : ¬ Matches first [] := fun matched => solid ((nullable_iff first).mpr matched)
      rw [matches_seq]
      simp [ihFirst, nonempty]
  | alt first second ihFirst ihSecond => simp [after, ihFirst, ihSecond]
  | many inner ih =>
    rw [after, matches_seq]
    constructor
    · rintro ⟨x, y, rfl, head, tail⟩
      exact .again ((ih x).mp head) tail
    · intro matched
      obtain ⟨x, y, rfl, head, tail⟩ := matches_many_cons matched
      exact ⟨x, y, rfl, (ih x).mpr head, tail⟩

theorem isMatch_iff (p : Pattern) (s : List Char) : p.isMatch s = true ↔ p.Matches s := by
  induction s generalizing p with
  | nil => exact nullable_iff p
  | cons c rest ih =>
    rw [isMatch, ih]
    exact after_iff p c rest

end Pattern

end Text
