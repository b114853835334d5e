import Mathlib.Data.List.Infix

namespace Text

variable {α : Type} [DecidableEq α] {eol : α} {line s t : List α}

/-- Cuts a text after every line end. Only the last line may be without one, and none is empty. -/
def lines (eol : α) : List α → List (List α)
  | [] => []
  | c :: rest =>
    if c = eol then [c] :: lines eol rest
    else
      match lines eol rest with
      | [] => [[c]]
      | line :: later => (c :: line) :: later

-- What comes after the last line end is a line as well.
example : lines '\n' ['a', '\n', 'b'] = [['a', '\n'], ['b']] := by simp [lines]

def EndsLine (eol : α) (s : List α) : Prop := s = [] ∨ [eol] <:+ s

omit [DecidableEq α] in
theorem endsLine_nil : EndsLine eol [] := .inl rfl

omit [DecidableEq α] in
theorem endsLine_append_eol : EndsLine eol (s ++ [eol]) := .inr (List.suffix_append s [eol])

theorem lines_ne_nil (some : s ≠ []) : lines eol s ≠ [] := by
  cases s with
  | nil => exact absurd rfl some
  | cons c rest =>
    simp only [lines]
    split
    · exact List.cons_ne_nil _ _
    · split <;> exact List.cons_ne_nil _ _

@[simp] theorem flatten_lines (eol : α) (s : List α) : (lines eol s).flatten = s := by
  induction s with
  | nil => rfl
  | cons c rest ih =>
    simp only [lines]
    split
    · simp [ih]
    · split
      · rename_i none
        rw [none] at ih
        simp [← ih]
      · rename_i line later here
        rw [here] at ih
        simp [← ih]

theorem lines_append_line (plain : eol ∉ line) : lines eol (line ++ eol :: s) = (line ++ [eol]) :: lines eol s := by
  induction line with
  | nil => simp [lines]
  | cons c rest ih =>
    simp only [List.mem_cons, not_or] at plain
    have other : c ≠ eol := fun same => plain.1 same.symm
    rw [List.cons_append, lines, if_neg other, ih plain.2]
    rfl

theorem lines_of_not_mem (plain : eol ∉ line) (some : line ≠ []) : lines eol line = [line] := by
  induction line with
  | nil => exact absurd rfl some
  | cons c rest ih =>
    simp only [List.mem_cons, not_or] at plain
    have other : c ≠ eol := fun same => plain.1 same.symm
    rw [lines, if_neg other]
    cases rest with
    | nil => rfl
    | cons c' rest' => rw [ih plain.2 (List.cons_ne_nil c' rest')]

theorem lines_append (ended : EndsLine eol s) : lines eol (s ++ t) = lines eol s ++ lines eol t := by
  induction s with
  | nil => rfl
  | cons c rest ih =>
    by_cases last : rest = []
    · subst last
      have same : c = eol := by
        rcases ended with none | ends
        · cases none
        · exact (List.cons.inj (ends.eq_of_length rfl)).1.symm
      simp [lines, same]
    · have later : EndsLine eol rest := by
        rcases ended with none | ends
        · cases none
        · rcases List.suffix_cons_iff.mp ends with whole | inside
          · exact absurd (List.cons.inj whole).2.symm last
          · exact .inr inside
      rw [List.cons_append, lines, lines, ih later]
      split
      · rfl
      · cases here : lines eol rest with
        | nil => exact absurd here (lines_ne_nil last)
        | cons line rest' => rfl

theorem mem_lines (member : line ∈ lines eol s) : ∃ body, eol ∉ body ∧ (line = body ++ [eol] ∨ line = body ∧ body ≠ []) := by
  induction s generalizing line with
  | nil => cases member
  | cons c rest ih =>
    simp only [lines] at member
    split at member
    · rename_i same
      rcases List.mem_cons.mp member with rfl | later
      · exact ⟨[], by simp, .inl (by simp [same])⟩
      · exact ih later
    · rename_i other
      have apart : eol ≠ c := fun same => other same.symm
      split at member
      · rw [List.mem_singleton.mp member]
        exact ⟨[c], by simpa using apart, .inr ⟨rfl, List.cons_ne_nil c []⟩⟩
      · rename_i line' later here
        rw [here] at ih
        rcases List.mem_cons.mp member with rfl | further
        · obtain ⟨body, plain, shape⟩ := ih List.mem_cons_self
          refine ⟨c :: body, by simp [apart, plain], ?_⟩
          rcases shape with rfl | ⟨rfl, _⟩
          · exact .inl rfl
          · exact .inr ⟨rfl, List.cons_ne_nil c _⟩
        · exact ih (List.mem_cons_of_mem _ further)

theorem ne_nil_of_mem_lines (member : line ∈ lines eol s) : line ≠ [] := by
  obtain ⟨body, _, rfl | ⟨rfl, some⟩⟩ := mem_lines member
  · simp
  · exact some

omit [DecidableEq α] in
theorem EndsLine.cons (c : α) (ended : EndsLine eol s) (some : s ≠ []) : EndsLine eol (c :: s) := by
  rcases ended with none | ends
  · exact absurd none some
  · exact .inr (ends.trans (List.suffix_cons c s))

theorem endsLine_flatten_of_lines {found rest : List (List α)} (cut : lines eol s = found ++ line :: rest) :
    EndsLine eol found.flatten := by
  induction s generalizing found with
  | nil => simp [lines] at cut
  | cons c later ih =>
    simp only [lines] at cut
    cases found with
    | nil => exact endsLine_nil
    | cons first more =>
      split at cut
      · rename_i same
        obtain ⟨rfl, further⟩ := List.cons.inj (cut.trans (List.cons_append ..))
        have ended := ih further
        rw [List.flatten_cons, same]
        by_cases none : more.flatten = []
        · rw [none, List.append_nil]
          exact .inr (List.suffix_refl [eol])
        · exact ended.cons eol none
      · split at cut
        · exact absurd (List.cons.inj cut).2.symm (by simp)
        · rename_i line' later' here
          obtain ⟨rfl, rest'⟩ := List.cons.inj cut
          have whole : lines eol later = (line' :: more) ++ line :: rest := by rw [here, rest']; rfl
          have ended := ih whole
          have some : line' ≠ [] := ne_nil_of_mem_lines (by rw [here]; exact List.mem_cons_self)
          rw [List.flatten_cons, List.cons_append]
          exact ended.cons c (by simp [some])

def firstLine (eol : α) : List α → List α × List α
  | [] => ([], [])
  | c :: rest => if c = eol then ([c], rest) else (c :: (firstLine eol rest).1, (firstLine eol rest).2)

example : firstLine '\n' ['a', '\n', 'b'] = (['a', '\n'], ['b']) := by simp [firstLine]

theorem firstLine_append (eol : α) (s : List α) : (firstLine eol s).1 ++ (firstLine eol s).2 = s := by
  induction s with
  | nil => rfl
  | cons c rest ih =>
    simp only [firstLine]
    split
    · rfl
    · rw [List.cons_append, ih]

theorem lines_firstLine (some : s ≠ []) : lines eol s = (firstLine eol s).1 :: lines eol (firstLine eol s).2 := by
  induction s with
  | nil => exact absurd rfl some
  | cons c rest ih =>
    simp only [lines, firstLine]
    split
    · rfl
    · by_cases last : rest = []
      · subst last
        rfl
      · rw [ih last]

theorem head?_firstLine : (firstLine eol s).1.head? = s.head? := by
  cases s with
  | nil => rfl
  | cons c rest =>
    simp only [firstLine]
    split <;> rfl

theorem firstLine_eq_nil_iff : (firstLine eol s).1 = [] ↔ s = [] := by
  cases s with
  | nil => simp [firstLine]
  | cons c rest =>
    simp only [firstLine]
    split <;> simp

theorem firstLine_of_not_mem (plain : eol ∉ (firstLine eol s).1) : (firstLine eol s).2 = [] := by
  induction s with
  | nil => rfl
  | cons c rest ih =>
    simp only [firstLine] at plain ⊢
    split
    · rename_i same
      rw [if_pos same] at plain
      exact absurd (List.mem_singleton.mpr same.symm) plain
    · rename_i other
      rw [if_neg other] at plain
      exact ih fun member => plain (List.mem_cons_of_mem c member)

theorem firstLine_of_mem (ended : eol ∈ s) : ∃ body, eol ∉ body ∧ (firstLine eol s).1 = body ++ [eol] := by
  induction s with
  | nil => cases ended
  | cons c rest ih =>
    simp only [firstLine]
    split
    · rename_i same
      exact ⟨[], List.not_mem_nil, by rw [same]; rfl⟩
    · rename_i other
      have later : eol ∈ rest := (List.mem_cons.mp ended).resolve_left fun same => other same.symm
      obtain ⟨body, plain, line⟩ := ih later
      have apart : eol ≠ c := fun same => other same.symm
      exact ⟨c :: body, by simp [apart, plain], by rw [line]; rfl⟩

theorem firstLine_append_of_mem (ended : eol ∈ s) :
    firstLine eol (s ++ t) = ((firstLine eol s).1, (firstLine eol s).2 ++ t) := by
  induction s with
  | nil => cases ended
  | cons c rest ih =>
    simp only [List.cons_append, firstLine]
    split
    · rfl
    · rename_i other
      have later : eol ∈ rest := by
        rcases List.mem_cons.mp ended with same | later
        · exact absurd same.symm other
        · exact later
      rw [ih later]

theorem firstLine_append_of_not_mem (plain : eol ∉ s) :
    firstLine eol (s ++ t) = (s ++ (firstLine eol t).1, (firstLine eol t).2) := by
  induction s with
  | nil => rfl
  | cons c rest ih =>
    simp only [List.mem_cons, not_or] at plain
    have other : c ≠ eol := fun same => plain.1 same.symm
    rw [List.cons_append, firstLine, if_neg other, ih plain.2]
    rfl

inductive Cut (eol : α) : List (List α) → Prop where
  | nil : Cut eol []
  | last {body : List α} : eol ∉ body → body ≠ [] → Cut eol [body]
  | cons {body : List α} {later : List (List α)} : eol ∉ body → Cut eol later → Cut eol ((body ++ [eol]) :: later)

theorem Cut.lines_flatten {ls : List (List α)} (cut : Cut eol ls) : lines eol ls.flatten = ls := by
  induction cut with
  | nil => rfl
  | last plain some =>
    rw [List.flatten_singleton]
    exact lines_of_not_mem plain some
  | cons plain _ ih =>
    rw [List.flatten_cons, List.append_assoc, List.singleton_append, lines_append_line plain, ih]

theorem cut_lines (eol : α) (s : List α) : Cut eol (lines eol s) := by
  induction s with
  | nil => exact .nil
  | cons c rest ih =>
    simp only [lines]
    split
    · rename_i same
      rw [same]
      show Cut eol (([] ++ [eol]) :: lines eol rest)
      exact .cons List.not_mem_nil ih
    · rename_i other
      have apart : eol ≠ c := fun same => other same.symm
      cases here : lines eol rest with
      | nil => exact .last (by simpa using apart) (List.cons_ne_nil c [])
      | cons line later =>
        rw [here] at ih
        cases ih with
        | last plain _ => exact .last (by simp [apart, plain]) (List.cons_ne_nil c _)
        | @cons body later plain cut =>
          show Cut eol ((c :: body ++ [eol]) :: later)
          exact .cons (by simp [apart, plain]) cut

omit [DecidableEq α] in
theorem Cut.sublist {ls part : List (List α)} (cut : Cut eol ls) (within : part.Sublist ls) : Cut eol part := by
  induction within with
  | slnil => exact cut
  | cons line _ ih =>
    cases cut with
    | last _ _ => exact ih .nil
    | cons _ later => exact ih later
  | cons_cons line within ih =>
    cases cut with
    | last plain some =>
      rw [List.sublist_nil.mp within]
      exact .last plain some
    | cons plain later => exact .cons plain (ih later)

theorem lines_flatten_of_sublist {part : List (List α)} (within : part.Sublist (lines eol s)) :
    lines eol part.flatten = part :=
  ((cut_lines eol s).sublist within).lines_flatten

end Text

namespace Text

structure Ask where
  size : Nat
  ready : Nat
  early : Bool
  deriving Repr, DecidableEq

/-- What is still to be read, and the error it ends in. The error is told again whenever it is asked for. -/
structure Source (ε : Type) where
  rest : List UInt8
  err : ε
  deriving Repr, DecidableEq

structure Got (ε σ : Type) where
  bytes : List UInt8
  err : Option ε
  left : σ
  deriving Repr, DecidableEq

namespace Source

variable {ε : Type}

def read (s : Source ε) (ask : Ask) : Got ε (Source ε) :=
  let n := min ask.size (max ask.ready 1)
  let left := s.rest.drop n
  let ended := left = [] ∧ (ask.early ∨ (s.rest = [] ∧ 0 < ask.size))
  ⟨s.rest.take n, if ended then some s.err else none, { s with rest := left }⟩

def readBytes (s : Source ε) (delim : UInt8) : Got ε (Source ε) :=
  let line := firstLine delim s.rest
  ⟨line.1, if delim ∈ line.1 then none else some s.err, { s with rest := line.2 }⟩

def peek (s : Source ε) : Option UInt8 := s.rest.head?

end Source

variable {ε : Type}

/-- Of a reader that has these bytes left before its error, what one read gives and what is left then. -/
structure Reads {σ : Type} (left : σ → List UInt8) (err : ε) (ask : Ask) (s : σ) (got : Got ε σ) : Prop where
  bytes : left s = got.bytes ++ left got.left
  told : ∀ e, got.err = some e → e = err ∧ left got.left = []
  moves : 0 < ask.size → got.bytes = [] → got.err = some err

def readAll {σ : Type} (read : σ → Ask → Got ε σ) : List Ask → σ → List (List UInt8 × Option ε)
  | [], _ => []
  | ask :: asks, s => ((read s ask).bytes, (read s ask).err) :: readAll read asks (read s ask).left

/-- These reads gave the bytes in their order, and the error once they were all given, which they are
    when there were enough reads. -/
structure Yields (asks : List Ask) (got : List (List UInt8 × Option ε)) (bytes : List UInt8) (err : ε) :
    Prop where
  inOrder : (got.map Prod.fst).flatten <+: bytes
  told : ∀ before last e after, got = before ++ (last, some e) :: after →
    e = err ∧ (before.map Prod.fst).flatten ++ last = bytes
  enough : bytes.length < asks.countP (fun ask => 0 < ask.size) → ∃ last, (last, some err) ∈ got

theorem Yields.all {asks : List Ask} {got : List (List UInt8 × Option ε)} {bytes : List UInt8} {err e : ε} {last : List UInt8}
    (yields : Yields asks got bytes err) (told : (last, some e) ∈ got) : (got.map Prod.fst).flatten = bytes := by
  obtain ⟨before, after, split⟩ := List.append_of_mem told
  obtain ⟨_, whole⟩ := yields.told before last e after split
  have part := yields.inOrder
  rw [split, List.map_append, List.map_cons, List.flatten_append, List.flatten_cons, ← List.append_assoc, whole] at part ⊢
  have short := part.length_le
  rw [List.length_append] at short
  rw [List.length_eq_zero_iff.mp (by omega : (after.map Prod.fst).flatten.length = 0), List.append_nil]

theorem Source.reads (s : Source ε) (ask : Ask) : Reads Source.rest s.err ask s (s.read ask) where
  bytes := (List.take_append_drop _ s.rest).symm
  told := by
    intro e here
    simp only [Source.read] at here
    split at here
    · rename_i ended
      cases here
      exact ⟨rfl, ended.1⟩
    · cases here
  moves := by
    intro room none
    have empty : s.rest = [] := by
      rcases List.take_eq_nil_iff.mp none with zero | empty
      · omega
      · exact empty
    simp [Source.read, empty, room]

theorem yields_of_reads {σ : Type} {read : σ → Ask → Got ε σ} {left : σ → List UInt8} {err : ε} (holds : σ → Prop)
    (step : ∀ s ask, holds s → Reads left err ask s (read s ask) ∧ holds (read s ask).left)
    (asks : List Ask) {s : σ} (start : holds s) : Yields asks (readAll read asks s) (left s) err := by
  induction asks generalizing s with
  | nil => exact ⟨List.nil_prefix, by simp [readAll], by simp⟩
  | cons ask asks ih =>
    obtain ⟨⟨bytes, told, moves⟩, further⟩ := step s ask start
    obtain ⟨inOrder, toldLater, enough⟩ := ih further
    refine ⟨?_, ?_, ?_⟩
    · rw [readAll, List.map_cons, List.flatten_cons, bytes]
      exact (List.prefix_append_right_inj _).mpr inOrder
    · intro before last e after split
      rw [readAll] at split
      cases before with
      | nil =>
        obtain ⟨same, _⟩ := List.cons.inj split
        obtain ⟨rfl, here⟩ := Prod.mk.inj same
        obtain ⟨rfl, done⟩ := told e here
        exact ⟨rfl, by simp [bytes, done]⟩
      | cons first before =>
        obtain ⟨rfl, rest⟩ := List.cons.inj split
        obtain ⟨rfl, whole⟩ := toldLater before last e after rest
        exact ⟨rfl, by simp [bytes, ← whole]⟩
    · intro many
      rw [readAll]
      by_cases room : 0 < ask.size
      · by_cases none : (read s ask).bytes = []
        · exact ⟨(read s ask).bytes, by simp [moves room none]⟩
        · have some := List.length_pos_iff.mpr none
          rw [List.countP_cons_of_pos (by simpa using room), bytes, List.length_append] at many
          obtain ⟨last, member⟩ := enough (by omega)
          exact ⟨last, List.mem_cons_of_mem _ member⟩
      · rw [List.countP_cons_of_neg (by simpa using room), bytes, List.length_append] at many
        obtain ⟨last, member⟩ := enough (by omega)
        exact ⟨last, List.mem_cons_of_mem _ member⟩

theorem Source.yields (s : Source ε) (asks : List Ask) : Yields asks (readAll Source.read asks s) s.rest s.err :=
  yields_of_reads (fun t : Source ε => t.err = s.err)
    (fun t ask same => ⟨same ▸ t.reads ask, same⟩) asks rfl

end Text
