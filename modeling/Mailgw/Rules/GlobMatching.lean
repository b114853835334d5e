import Mailgw.Rules.Glob
import Mailgw.Wildcards.Language

namespace Mailgw.Rules

open Queue Wildcards

def Wild (sep : Bool) (c : Char) : Prop := sep = true → c ≠ '.'

instance decidableWild (sep : Bool) : DecidablePred (Wild sep) := fun c => inferInstanceAs (Decidable (sep = true → c ≠ '.'))

/-- A pattern without groups, piece by piece. A backslash at its end is a character like others. -/
def pieces : Name → List (Piece Char)
  | [] => []
  | '\\' :: c :: rest => .lit c :: pieces rest
  | c :: rest => (if c = '?' then .one else if c = '*' then .many else .lit c) :: pieces rest

inductive Moves (sep : Bool) (x : Char) (pat : Name) : GlobMove → Prop where
  | consume {p : Piece Char} {rest : Name} (first : pieces pat = p :: pieces rest) (single : p ≠ .many)
      (takes : p.Takes (Wild sep) x) : Moves sep x pat (.consume rest)
  | star {rest : Name} (first : pieces pat = .many :: pieces rest) : Moves sep x pat (.star rest)
  | ended (none : pieces pat = []) : Moves sep x pat .mismatch
  | refused {p : Piece Char} {ps : List (Piece Char)} (first : pieces pat = p :: ps) (single : p ≠ .many)
      (differs : ¬ p.Takes (Wild sep) x) : Moves sep x pat .mismatch

theorem globMove_moves (sep : Bool) (x : Char) (pat : Name) : Moves sep x pat (globMove sep x pat) := by
  have wild : (!sep || decide (x ≠ '.')) = true ↔ Wild sep x := by
    cases sep <;> simp [Wild]
  fun_cases globMove sep x pat with
  | case1 => exact .ended rfl
  | case2 rest => exact .consume rfl (by simp) rfl
  | case3 c rest differs => exact .refused rfl (by simp) differs
  | case4 rest free unescaped => exact .consume (p := .one) (pieces.eq_3 _ _ unescaped) (by simp) (wild.mp free)
  | case5 rest stops unescaped =>
    exact .refused (p := .one) (pieces.eq_3 _ _ unescaped) (by simp) fun free => stops (wild.mpr free)
  | case6 rest unescaped => exact .star (pieces.eq_3 _ _ unescaped)
  | case7 rest unescaped one many =>
    apply Moves.consume (p := .lit x) _ (by simp) rfl
    rw [pieces.eq_3 _ _ unescaped, if_neg one, if_neg many]
  | case8 c rest unescaped one many differs =>
    have first : pieces (c :: rest) = .lit c :: pieces rest := by
      rw [pieces.eq_3 _ _ unescaped, if_neg one, if_neg many]
    exact .refused first (by simp) differs

theorem all_star_iff (sep : Bool) (pat : Name) : pat.all (· = '*') = true ↔ [] ∈ sequence (Wild sep) (pieces pat) := by
  have spelled : ∀ (p : Piece Char) (ps : List (Piece Char)), p ≠ .many → [] ∉ sequence (Wild sep) (p :: ps) := by
    intro p ps single
    rw [mem_sequence_single single]
    simp
  fun_induction pieces pat with
  | case1 => simp
  | case2 c rest =>
    have none := spelled (.lit c) (pieces rest) (by simp)
    simp [none]
  | case3 c rest unescaped ih =>
    by_cases star : c = '*'
    · subst star
      rw [if_neg (by decide), if_pos rfl, mem_sequence_many]
      simpa using ih
    · have single : (if c = '?' then Piece.one else if c = '*' then .many else .lit c) ≠ .many := by
        split <;> simp
      have none := spelled _ (pieces rest) single
      rw [iff_false_right none]
      simp [star]

/-- Where the matcher stands: the pieces between the last star and the pattern fit the text between
    where the star was met, or has grown to, and where the text is now. -/
def Standing (sep : Bool) (pat s : Name) : Option (Name × Name) → Prop
  | none => True
  | some (back, t) => ∃ seg u, pieces back = seg ++ pieces pat ∧ t = u ++ s ∧ Fits (Wild sep) seg u

variable {sep : Bool} {pat pat' s : Name} {x : Char} {last : Option (Name × Name)} {p : Piece Char}

theorem Standing.met (back t : Name) : Standing sep back t (some (back, t)) := ⟨[], [], rfl, rfl, .nil⟩

theorem Standing.consume (standing : Standing sep pat (x :: s) last) (first : pieces pat = p :: pieces pat')
    (takes : p.Takes (Wild sep) x) : Standing sep pat' s last := by
  cases last with
  | none => exact trivial
  | some back =>
    obtain ⟨seg, u, behind, text, fits⟩ := standing
    refine ⟨seg ++ [p], u ++ [x], ?_, ?_, ?_⟩
    · rw [behind, first, List.append_assoc]
      rfl
    · rw [text, List.append_assoc]
      rfl
    · exact List.rel_append fits (.cons takes .nil)

def starRetry (sep : Bool) (last : Option (Name × Name)) : Prop :=
  Retry (Wild sep) (last.map fun back => (pieces back.1, back.2))

theorem Standing.ended (standing : Standing sep pat [] last) : ¬ starRetry sep last := by
  cases last with
  | none => exact id
  | some back =>
    obtain ⟨seg, u, behind, text, fits⟩ := standing
    rw [List.append_nil] at text
    simp only [starRetry, Option.map_some, behind, text]
    exact not_retry_of_fits fits

theorem Standing.again (standing : Standing sep pat s last) (first : pieces pat = .many :: pieces pat')
    (retry : starRetry sep last) : s ∈ sequence (Wild sep) (pieces pat) := by
  cases last with
  | none => exact absurd retry id
  | some back =>
    obtain ⟨seg, u, behind, text, fits⟩ := standing
    simp only [starRetry, Option.map_some, behind, text, first] at retry
    rw [first]
    exact mem_of_retry fits retry

theorem not_mem_of_mismatch {s : Name} (stuck : globMove sep x pat = .mismatch) : x :: s ∉ sequence (Wild sep) (pieces pat) := by
  have move := globMove_moves sep x pat
  rw [stuck] at move
  cases move with
  | ended none => simp [none]
  | refused first single differs =>
    rw [first, cons_mem_sequence single]
    exact fun both => differs both.1

/-- The matcher finds a match of what is before it, or one that gives the last star more. -/
theorem globLoop_iff (sep : Bool) (pat s : Name) (last : Option (Name × Name)) (standing : Standing sep pat s last) :
    globLoop sep pat s last = true ↔ s ∈ sequence (Wild sep) (pieces pat) ∨ starRetry sep last := by
  fun_induction globLoop sep pat s last with
  | case1 pat last => rw [all_star_iff sep, or_iff_left standing.ended]
  | case2 pat last x rest pat' moves ih =>
    have move := globMove_moves sep x pat
    rw [moves] at move
    cases move with
    | consume first single takes =>
      rw [ih (standing.consume first takes), first, cons_mem_sequence single, and_iff_right takes]
  | case3 pat last x rest pat' moves ih =>
    have move := globMove_moves sep x pat
    rw [moves] at move
    cases move with
    | star first =>
      rw [ih (.met pat' _), or_iff_left_of_imp (standing.again first), first, mem_many_iff_retry]
      rfl
  | case4 pat x rest stuck =>
    simp [not_mem_of_mismatch stuck, starRetry, Retry]
  | case5 pat x rest stuck back =>
    obtain ⟨seg, u, _, text, _⟩ := standing
    simp at text
  | case6 pat x rest stuck back y t stops =>
    have wild : ¬ Wild sep y := by simpa [Wild] using stops
    simp [not_mem_of_mismatch stuck, starRetry, retry_cons, wild]
  | case7 pat x rest stuck back y t goes ih =>
    have wild : Wild sep y := by simpa [Wild] using goes
    rw [ih (.met back t), or_iff_right (not_mem_of_mismatch stuck), starRetry, starRetry, Option.map_some, Option.map_some,
      retry_cons, and_iff_right wild]

theorem globMatch_iff (sep : Bool) (pat s : Name) : globMatch sep pat s = true ↔ s ∈ sequence (Wild sep) (pieces pat) := by
  rw [globMatch, globLoop_iff sep pat s none trivial]
  exact or_iff_left id

end Mailgw.Rules

namespace Mailgw.Rules

open Queue Wildcards

/-- How one piece is written. A bare comma is a character only outside all groups. -/
inductive Spells (top : Bool) : Name → Piece Char → Prop where
  | escaped (c : Char) : Spells top ['\\', c] (.lit c)
  | one : Spells top ['?'] .one
  | many : Spells top ['*'] .many
  | letter {c : Char} (plain : c ∉ ['\\', '?', '*', '\x7b', '\x7d']) (comma : c = ',' → top = true) : Spells top [c] (.lit c)

inductive Place where
  | text (top : Bool)
  | body

/-- The texts of a pattern. A backslash with nothing behind it is a character like others. -/
inductive Reads : Place → Name → Glob Char → Prop where
  | empty {top : Bool} : Reads (.text top) [] .empty
  | stray : Reads (.text true) ['\\'] (.piece (.lit '\\'))
  | piece {top : Bool} {u t : Name} {p : Piece Char} {g : Glob Char} (first : Spells top u p) (rest : Reads (.text top) t g) :
      Reads (.text top) (u ++ t) (.cat (.piece p) g)
  | group {top : Bool} {b t : Name} {a g : Glob Char} (alternatives : Reads .body b a) (rest : Reads (.text top) t g) :
      Reads (.text top) ('\x7b' :: b ++ '\x7d' :: t) (.cat a g)
  | last {t : Name} {g : Glob Char} (alternative : Reads (.text false) t g) : Reads .body t g
  | more {t b : Name} {a g : Glob Char} (alternative : Reads (.text false) t a) (others : Reads .body b g) :
      Reads .body (t ++ ',' :: b) (.union a g)

section Units
variable {top : Bool} {u t rest : Name} {p : Piece Char}

theorem Spells.mono (spells : Spells false u p) : Spells true u p := by
  cases spells with
  | escaped c => exact .escaped c
  | one => exact .one
  | many => exact .many
  | letter plain _ => exact .letter plain fun _ => rfl

theorem Spells.pieces (spells : Spells top u p) (t : Name) : pieces (u ++ t) = p :: pieces t := by
  cases spells with
  | escaped c => rfl
  | one => exact pieces.eq_3 _ _ (by simp)
  | many => exact pieces.eq_3 _ _ (by simp)
  | @letter c plain _ =>
    simp only [List.mem_cons, List.not_mem_nil, or_false, not_or] at plain
    rw [List.singleton_append, pieces.eq_3 _ _ (by simp [plain.1]), if_neg plain.2.1, if_neg plain.2.2.1]

theorem keepText_append (s t : Name) (found : Option (Name × Name)) :
    keepText s (keepText t found) = keepText (s ++ t) found := by
  cases found <;> simp [keepText]

@[simp] theorem keepText_nil (found : Option (Name × Name)) : keepText [] found = found := by
  cases found <;> simp [keepText]

theorem growFirst_append (s t : Name) (parts : List Name) : growFirst s (growFirst t parts) = growFirst (s ++ t) parts := by
  cases parts <;> simp [growFirst]

theorem growFirst_nil {parts : List Name} (some_ : parts ≠ []) : growFirst [] parts = parts := by
  cases parts with
  | nil => exact absurd rfl some_
  | cons part parts => rfl

-- A brace behind a backslash closes nothing.
example : closing 0 ['\\', '\x7d', '\x7d', 'a'] = some (['\\', '\x7d'], ['a']) := by simp [closing, keepText]

-- A comma in a group is one of its characters.
example : splitFrom 0 ['\x7b', ',', '\x7d', ',', 'a'] = [['\x7b', ',', '\x7d'], ['a']] := by simp [splitFrom, growFirst]

theorem closing_letter {c : Char} (plain : c ∉ ['\\', '\x7b', '\x7d']) (depth : Nat) (rest : Name) :
    closing depth (c :: rest) = keepText [c] (closing depth rest) := by
  simp only [List.mem_cons, List.not_mem_nil, or_false, not_or] at plain
  cases depth with
  | zero => rw [closing.eq_3 _ _ (by simp [plain.1]), if_neg plain.2.1, if_neg plain.2.2]
  | succ d => rw [closing.eq_4 _ _ _ (by simp [plain.1]), if_neg plain.2.1, if_neg plain.2.2]

theorem closing_open (depth : Nat) (rest : Name) :
    closing depth ('\x7b' :: rest) = keepText ['\x7b'] (closing (depth + 1) rest) := by
  cases depth with
  | zero => rw [closing.eq_3 _ _ (by simp), if_pos rfl]
  | succ d => rw [closing.eq_4 _ _ _ (by simp), if_pos rfl]

theorem closing_close_zero (rest : Name) : closing 0 ('\x7d' :: rest) = some ([], rest) := by
  rw [closing.eq_3 _ _ (by simp), if_neg (by decide), if_pos rfl]

theorem closing_close_succ (depth : Nat) (rest : Name) :
    closing (depth + 1) ('\x7d' :: rest) = keepText ['\x7d'] (closing depth rest) := by
  rw [closing.eq_4 _ _ _ (by simp), if_neg (by decide), if_pos rfl]

theorem Spells.closing (spells : Spells top u p) (depth : Nat) (t : Name) :
    closing depth (u ++ t) = keepText u (closing depth t) := by
  cases spells with
  | escaped c => exact closing.eq_2 depth c t
  | one => exact closing_letter (by decide) depth t
  | many => exact closing_letter (by decide) depth t
  | letter plain _ =>
    apply closing_letter _ depth t
    intro special
    apply plain
    simp only [List.mem_cons, List.not_mem_nil, or_false] at special ⊢
    tauto

theorem Reads.closing {place : Place} {s : Name} {g : Glob Char} (reads : Reads place s g) (inside : place ≠ .text true)
    (depth : Nat) (rest : Name) : closing depth (s ++ rest) = keepText s (closing depth rest) := by
  induction reads generalizing depth rest with
  | empty => simp
  | stray => exact absurd rfl inside
  | piece first _ ih => rw [List.append_assoc, first.closing, ih inside, keepText_append]
  | @group top b t a g _ _ ihBody ihRest =>
    have whole : '\x7b' :: b ++ '\x7d' :: t ++ rest = '\x7b' :: (b ++ '\x7d' :: (t ++ rest)) := by simp
    rw [whole, closing_open, ihBody (by simp), closing_close_succ, ihRest inside]
    simp only [keepText_append]
    simp
  | last _ ih => exact ih (by simp) depth rest
  | more _ _ ihFirst ihOthers =>
    rw [List.append_assoc, ihFirst (by simp), List.cons_append, closing_letter (by decide), ihOthers (by simp)]
    simp only [keepText_append]
    simp

theorem splitFrom_letter {c : Char} {depth : Int} (plain : c ∉ ['\\', '\x7b', '\x7d']) (comma : c = ',' → depth ≠ 0) (rest : Name) :
    splitFrom depth (c :: rest) = growFirst [c] (splitFrom depth rest) := by
  simp only [List.mem_cons, List.not_mem_nil, or_false, not_or] at plain
  rw [splitFrom.eq_3 _ _ _ (by simp [plain.1]), if_neg plain.2.1, if_neg plain.2.2, if_neg fun both => comma both.1 both.2]

theorem splitFrom_open (depth : Int) (rest : Name) :
    splitFrom depth ('\x7b' :: rest) = growFirst ['\x7b'] (splitFrom (depth + 1) rest) := by
  rw [splitFrom.eq_3 _ _ _ (by simp), if_pos rfl]

theorem splitFrom_close (depth : Int) (rest : Name) :
    splitFrom (depth + 1) ('\x7d' :: rest) = growFirst ['\x7d'] (splitFrom depth rest) := by
  rw [splitFrom.eq_3 _ _ _ (by simp), if_neg (by decide), if_pos rfl, add_sub_cancel_right]

theorem splitFrom_comma (rest : Name) : splitFrom 0 (',' :: rest) = [] :: splitFrom 0 rest := by
  rw [splitFrom.eq_3 _ _ _ (by simp), if_neg (by decide), if_neg (by decide), if_pos ⟨rfl, rfl⟩]

theorem Spells.split (spells : Spells top u p) {depth : Int} (inside : top = false ∨ depth ≠ 0) (t : Name) :
    splitFrom depth (u ++ t) = growFirst u (splitFrom depth t) := by
  cases spells with
  | escaped c => exact splitFrom.eq_2 depth c t
  | one => exact splitFrom_letter (by decide) (by simp) t
  | many => exact splitFrom_letter (by decide) (by simp) t
  | letter plain comma =>
    apply splitFrom_letter _ _ t
    · intro special
      apply plain
      simp only [List.mem_cons, List.not_mem_nil, or_false] at special ⊢
      tauto
    · intro bare
      exact inside.resolve_left (by simp [comma bare])

/-- The search for commas passes over an alternative, and over all alternatives of a group within. -/
theorem Reads.split {place : Place} {s : Name} {g : Glob Char} (reads : Reads place s g) (inside : place ≠ .text true)
    {depth : Int} (deep : 0 ≤ depth) (within : place = .body → 0 < depth) (rest : Name) :
    splitFrom depth (s ++ rest) = growFirst s (splitFrom depth rest) := by
  induction reads generalizing depth rest with
  | empty => exact (growFirst_nil (splitFrom_ne_nil _ _)).symm
  | stray => exact absurd rfl inside
  | @piece top u t p g first _ ih =>
    have branch : top = false := by simpa using inside
    rw [List.append_assoc, first.split (.inl branch), ih inside deep (by simp), growFirst_append]
  | @group top b t a g _ _ ihBody ihRest =>
    have whole : '\x7b' :: b ++ '\x7d' :: t ++ rest = '\x7b' :: (b ++ '\x7d' :: (t ++ rest)) := by simp
    rw [whole, splitFrom_open, ihBody (by simp) (by omega) (by omega), splitFrom_close, ihRest inside deep (by simp)]
    simp only [growFirst_append]
    simp
  | last _ ih => exact ih (by simp) deep (by simp) rest
  | more _ _ ihFirst ihOthers =>
    have nested : depth ≠ 0 := (within rfl).ne'
    rw [List.append_assoc, ihFirst (by simp) deep (by simp), List.cons_append, splitFrom_letter (by decide) (fun _ => nested),
      ihOthers (by simp) deep within]
    simp only [growFirst_append]
    simp

theorem Reads.alternatives {place : Place} {b : Name} {g : Glob Char} (reads : Reads place b g) (body : place = .body) :
    ∃ alts : List (Name × Glob Char), splitTopLevel b = alts.map Prod.fst ∧ (∀ alt ∈ alts, Reads (.text false) alt.1 alt.2) ∧
      ∀ den : Piece Char → Language Char, g.denote den = (alts.map fun alt => alt.2.denote den).sum := by
  induction reads with
  | empty | stray | piece | group => cases body
  | @last t g alternative _ =>
    have one := alternative.split (by simp) (le_refl 0) (by simp) []
    rw [List.append_nil] at one
    exact ⟨[(t, g)], one.trans (by simp [splitFrom, growFirst]), by simpa using alternative, by simp⟩
  | @more t b a g alternative _ _ ihOthers =>
    obtain ⟨alts, parts, all, sum⟩ := ihOthers rfl
    refine ⟨(t, a) :: alts, ?_, List.forall_mem_cons.mpr ⟨alternative, all⟩, ?_⟩
    · rw [splitTopLevel, alternative.split (by simp) (le_refl 0) (by simp), splitFrom_comma, growFirst, ← splitTopLevel, parts]
      simp
    · intro den
      rw [Glob.denote, sum den]
      simp

end Units

end Mailgw.Rules
