import Mathlib.Data.List.Infix

namespace Text

variable {α β : Type}

def consFirst (c : α) : List (List α) → List (List α)
  | [] => [[c]]
  | first :: more => (c :: first) :: more

def ontoFirst (x : List α) : List (List α) → List (List α)
  | [] => [x]
  | first :: more => (x ++ first) :: more

def ontoLast (c : α) : List (List α) → List (List α)
  | [] => [[c]]
  | [last] => [last ++ [c]]
  | first :: second :: more => first :: ontoLast c (second :: more)

def unrows (cr lf : α) : List (List α) → List α
  | [] => []
  | [row] => row
  | row :: next :: more => row ++ cr :: lf :: unrows cr lf (next :: more)

section Unrows
variable {cr lf c d : α} {row : List α} {ls ms : List (List α)}

theorem unrows_cons (some : ls ≠ []) : unrows cr lf (row :: ls) = row ++ cr :: lf :: unrows cr lf ls := by
  cases ls with
  | nil => exact absurd rfl some
  | cons next more => rfl

theorem unrows_consFirst (some : ls ≠ []) : unrows cr lf (consFirst c ls) = c :: unrows cr lf ls := by
  cases ls with
  | nil => exact absurd rfl some
  | cons first more =>
    cases more with
    | nil => rfl
    | cons next more => rfl

theorem unrows_append (left : ls ≠ []) (right : ms ≠ []) :
    unrows cr lf (ls ++ ms) = unrows cr lf ls ++ cr :: lf :: unrows cr lf ms := by
  induction ls with
  | nil => exact absurd rfl left
  | cons row ls ih =>
    cases ls with
    | nil =>
      rw [List.singleton_append, unrows_cons right]
      rfl
    | cons next more =>
      have some : next :: more ≠ [] := List.cons_ne_nil next more
      rw [List.cons_append, unrows_cons (by simp), ih some, unrows_cons some]
      simp

theorem length_unrows_lt (some : row ≠ []) :
    (unrows cr lf ls).length < (unrows cr lf (ls ++ row :: ms)).length := by
  have positive : 0 < row.length := List.length_pos_iff.mpr some
  have first : 0 < (unrows cr lf (row :: ms)).length := by
    cases ms with
    | nil => exact positive
    | cons next more =>
      rw [unrows_cons (List.cons_ne_nil next more), List.length_append]
      omega
  by_cases left : ls = []
  · rw [left]
    exact first
  · rw [unrows_append left (List.cons_ne_nil row ms), List.length_append]
    simp only [List.length_cons]
    omega

theorem consFirst_append (some : ls ≠ []) (ms : List (List α)) : consFirst c (ls ++ ms) = consFirst c ls ++ ms := by
  cases ls with
  | nil => exact absurd rfl some
  | cons first more => rfl

theorem ontoLast_cons (some : ls ≠ []) : ontoLast c (row :: ls) = row :: ontoLast c ls := by
  cases ls with
  | nil => exact absurd rfl some
  | cons next more => rfl

theorem ontoLast_consFirst (some : ls ≠ []) : ontoLast c (consFirst d ls) = consFirst d (ontoLast c ls) := by
  cases ls with
  | nil => exact absurd rfl some
  | cons first more =>
    cases more with
    | nil => rfl
    | cons next more => rfl

theorem map_consFirst (f : α → List β) (c : α) (ls : List (List α)) :
    (consFirst c ls).map (List.flatMap f) = ontoFirst (f c) (ls.map (List.flatMap f)) := by
  cases ls with
  | nil => simp [consFirst, ontoFirst]
  | cons first more => rfl

end Unrows

variable [DecidableEq α] [DecidableEq β]

def rows (cr lf : α) : List α → List (List α)
  | [] => [[]]
  | [c] => [[c]]
  | c :: d :: rest => if c = cr ∧ d = lf then [] :: rows cr lf rest else consFirst c (rows cr lf (d :: rest))

example : rows 13 10 [97, 13, 98, 13, 10, 99] = [[97, 13, 98], [99]] := by simp [rows, consFirst]

section Rows
variable {cr lf c d : α} {s x y row : List α} {ls : List (List α)}

theorem rows_ne_nil (s : List α) : rows cr lf s ≠ [] := by
  fun_cases rows cr lf s with
  | case1 => simp
  | case2 c => simp
  | case3 c d rest ended => simp
  | case4 c d rest open_ =>
    cases rows cr lf (d :: rest) <;> simp [consFirst]

theorem rows_end (s : List α) : rows cr lf (cr :: lf :: s) = [] :: rows cr lf s := by
  rw [rows, if_pos ⟨rfl, rfl⟩]

theorem rows_cons (open_ : ¬ (c = cr ∧ d = lf)) : rows cr lf (c :: d :: s) = consFirst c (rows cr lf (d :: s)) := by
  rw [rows, if_neg open_]

theorem rows_cons_of_ne (other : c ≠ cr) : rows cr lf (c :: s) = consFirst c (rows cr lf s) := by
  cases s with
  | nil => rfl
  | cons d s => exact rows_cons fun both => other both.1

theorem unrows_rows (s : List α) : unrows cr lf (rows cr lf s) = s := by
  fun_induction rows cr lf s with
  | case1 => rfl
  | case2 c => rfl
  | case3 c d rest ended ih =>
    rw [unrows_cons (rows_ne_nil rest), ih, ended.1, ended.2]
    rfl
  | case4 c d rest open_ ih => rw [unrows_consFirst (rows_ne_nil _), ih]

theorem rows_append (apart : cr ≠ lf) (x y : List α) :
    rows cr lf (x ++ cr :: lf :: y) = rows cr lf x ++ rows cr lf y := by
  fun_induction rows cr lf x with
  | case1 => exact rows_end y
  | case2 c =>
    rw [List.singleton_append, rows_cons fun both => apart both.2, rows_end]
    rfl
  | case3 c d rest ended ih =>
    rw [List.cons_append, List.cons_append, ended.1, ended.2, rows_end, ih]
    rfl
  | case4 c d rest open_ ih =>
    rw [List.cons_append] at ih
    rw [List.cons_append, List.cons_append, rows_cons open_, ih, consFirst_append (rows_ne_nil _)]

theorem rows_of_not_mem (plain : lf ∉ s) : rows cr lf s = [s] := by
  fun_induction rows cr lf s with
  | case1 => rfl
  | case2 c => rfl
  | case3 c d rest ended ih => exact absurd (by simp [ended.2]) plain
  | case4 c d rest open_ ih =>
    rw [ih fun member => plain (List.mem_cons_of_mem c member)]
    rfl

theorem rows_prepend (plain : cr ∉ x) (s : List α) : rows cr lf (x ++ s) = ontoFirst x (rows cr lf s) := by
  induction x with
  | nil =>
    cases here : rows cr lf s with
    | nil => exact absurd here (rows_ne_nil s)
    | cons first more => simp [ontoFirst, here]
  | cons c x ih =>
    simp only [List.mem_cons, not_or] at plain
    rw [List.cons_append, rows_cons_of_ne (Ne.symm plain.1), ih plain.2]
    cases rows cr lf s <;> rfl

theorem rows_snoc (other : c ≠ lf) (s : List α) : rows cr lf (s ++ [c]) = ontoLast c (rows cr lf s) := by
  fun_induction rows cr lf s with
  | case1 => rfl
  | case2 d =>
    rw [List.singleton_append, rows_cons fun both => other both.2]
    rfl
  | case3 a b rest ended ih =>
    rw [List.cons_append, List.cons_append, ended.1, ended.2, rows_end, ih, ontoLast_cons (rows_ne_nil rest)]
  | case4 a b rest open_ ih =>
    rw [List.cons_append] at ih
    rw [List.cons_append, List.cons_append, rows_cons open_, ih, ontoLast_consFirst (rows_ne_nil _)]

theorem rows_ended (apart : cr ≠ lf) (plain : ∀ row ∈ ls, lf ∉ row) (s : List α) :
    rows cr lf (ls.flatMap (· ++ [cr, lf]) ++ s) = ls ++ rows cr lf s := by
  induction ls with
  | nil => rfl
  | cons row ls ih =>
    have split : (row :: ls).flatMap (· ++ [cr, lf]) ++ s = row ++ cr :: lf :: (ls.flatMap (· ++ [cr, lf]) ++ s) := by simp
    rw [split, rows_append apart, rows_of_not_mem (plain row List.mem_cons_self),
      ih fun later member => plain later (List.mem_cons_of_mem row member)]
    rfl

theorem rows_unrows (apart : cr ≠ lf) (plain : ∀ row ∈ ls, lf ∉ row) (some : ls ≠ []) :
    rows cr lf (unrows cr lf ls) = ls := by
  induction ls with
  | nil => exact absurd rfl some
  | cons row ls ih =>
    have first : lf ∉ row := plain row List.mem_cons_self
    by_cases last : ls = []
    · rw [last]
      exact rows_of_not_mem first
    · rw [unrows_cons last, rows_append apart, rows_of_not_mem first,
        ih (fun later member => plain later (List.mem_cons_of_mem row member)) last]
      rfl

/-- Rewriting the elements one by one rewrites the lines one by one, when line ends stay what they are and
    nothing else becomes one. -/
theorem rows_flatMap {cr' lf' : β} {f : α → List β} (at_cr : f cr = [cr']) (at_lf : f lf = [lf'])
    (some : ∀ c, f c ≠ []) (elsewhere : ∀ c, (c ≠ cr → cr' ∉ f c) ∧ (c ≠ lf → lf' ∉ f c)) (s : List α) :
    rows cr' lf' (s.flatMap f) = (rows cr lf s).map (List.flatMap f) := by
  fun_induction rows cr lf s with
  | case1 => rfl
  | case2 c =>
    rw [List.flatMap_singleton]
    by_cases ends : c = lf
    · rw [ends, at_lf]
      simp [rows, at_lf]
    · rw [rows_of_not_mem ((elsewhere c).2 ends)]
      simp
  | case3 c d rest ended ih =>
    rw [ended.1, ended.2, List.flatMap_cons, List.flatMap_cons, at_cr, at_lf, List.map_cons, ← ih]
    exact rows_end _
  | case4 c d rest open_ ih =>
    rw [map_consFirst, ← ih, List.flatMap_cons]
    by_cases begins : c = cr
    · -- what comes after it does not end the line, so it begins with something else
      have other : d ≠ lf := fun ends => open_ ⟨begins, ends⟩
      obtain ⟨e, more, split⟩ := List.exists_cons_of_ne_nil (some d)
      have apart' : e ≠ lf' := by
        rintro rfl
        exact (elsewhere d).2 other (by rw [split]; exact List.mem_cons_self)
      rw [begins, at_cr, List.singleton_append, List.flatMap_cons, split, List.cons_append,
        rows_cons fun both => apart' both.2]
      cases rows cr' lf' (e :: (more ++ List.flatMap f rest)) <;> rfl
    · exact rows_prepend ((elsewhere c).1 begins) _

end Rows

def OneLine (s : List Char) : Prop := '\r' ∉ s ∧ '\n' ∉ s

instance (s : List Char) : Decidable (OneLine s) := inferInstanceAs (Decidable (_ ∧ _))

section OneLine
variable {c : Char} {s t : List Char}

@[simp] theorem oneLine_nil : OneLine [] := ⟨List.not_mem_nil, List.not_mem_nil⟩

@[simp] theorem oneLine_append : OneLine (s ++ t) ↔ OneLine s ∧ OneLine t := by
  simp only [OneLine, List.mem_append, not_or]
  constructor
  · intro ⟨⟨one, two⟩, three, four⟩
    exact ⟨⟨one, three⟩, two, four⟩
  · intro ⟨⟨one, two⟩, three, four⟩
    exact ⟨⟨one, three⟩, two, four⟩

@[simp] theorem oneLine_cons : OneLine (c :: s) ↔ (c ≠ '\r' ∧ c ≠ '\n') ∧ OneLine s := by
  rw [← List.singleton_append, oneLine_append]
  simp [OneLine, eq_comm]

theorem oneLine_of_isDigit (digits : ∀ c ∈ s, c.isDigit = true) : OneLine s :=
  ⟨fun member => absurd (digits _ member) (by decide), fun member => absurd (digits _ member) (by decide)⟩

end OneLine

end Text
