import Mathlib.Data.Prod.Lex
import Mailgw.Rules.Operators

namespace Mailgw.Rules

open Queue

def maxGlobExpansion : Nat := 1024

inductive GlobProblem where
  | empty | unmatchedClose (glob : Name) (offset : Nat) | unmatchedOpen (glob : Name)
  | pastLimit (glob : Name) | tooMany (glob : Name) (alternatives : Nat)
  deriving Repr, DecidableEq

structure GlobMatcher where
  pats : List Name
  sep : Bool
  ci : Bool

inductive GlobMove where
  | consume (rest : Name) | star (rest : Name) | mismatch
  deriving Repr, DecidableEq

def globMove (sep : Bool) (x : Char) : Name → GlobMove
  | [] => .mismatch
  | '\\' :: c :: rest => if c = x then .consume rest else .mismatch
  | c :: rest =>
    if c = '?' then if !sep || x ≠ '.' then .consume rest else .mismatch
    else if c = '*' then .star rest
    else if c = x then .consume rest
    else .mismatch

theorem globMove_consume {sep : Bool} {x : Char} {pat rest : Name} (moves : globMove sep x pat = .consume rest) :
    rest.length < pat.length := by
  unfold globMove at moves
  split at moves
  · cases moves
  · split at moves <;> cases moves
    simp only [List.length_cons]
    omega
  · split at moves
    · split at moves <;> cases moves
      simp
    · split at moves
      · cases moves
      · split at moves <;> cases moves
        simp

theorem globMove_star {sep : Bool} {x : Char} {pat rest : Name} (moves : globMove sep x pat = .star rest) :
    rest.length < pat.length := by
  unfold globMove at moves
  split at moves
  · cases moves
  · split at moves <;> cases moves
  · split at moves
    · split at moves <;> cases moves
    · split at moves
      · cases moves
        simp
      · split at moves <;> cases moves

/-- The longest pattern the matcher has before it or can go back to, what is left of the text for the last
    star, and the text. -/
def globMeasure (pat s : Name) (star : Option (Name × Name)) : Nat ×ₗ Nat ×ₗ Nat :=
  toLex (max pat.length (star.elim 0 fun back => back.1.length), toLex (star.elim 0 fun back => back.2.length, s.length))

theorem globMeasure_consume {pat rest s : Name} {x : Char} (star : Option (Name × Name)) (shorter : rest.length < pat.length) :
    globMeasure rest s star < globMeasure pat (x :: s) star := by
  simp only [globMeasure, Prod.Lex.toLex_lt_toLex, List.length_cons, lt_irrefl, true_and, false_or]
  omega

theorem globMeasure_star {pat rest s : Name} (star : Option (Name × Name)) (shorter : rest.length < pat.length) :
    globMeasure rest s (some (rest, s)) < globMeasure pat s star := by
  simp only [globMeasure, Prod.Lex.toLex_lt_toLex, Option.elim_some]
  omega

theorem globMeasure_back (pat s back t : Name) (y : Char) :
    globMeasure back t (some (back, t)) < globMeasure pat s (some (back, y :: t)) := by
  simp only [globMeasure, Prod.Lex.toLex_lt_toLex, Option.elim_some, List.length_cons]
  omega

/-- The matcher, with the last star: the pattern behind it, and the text it was met at or has grown to. -/
def globLoop (sep : Bool) (pat s : Name) (star : Option (Name × Name)) : Bool :=
  match s with
  | [] => pat.all (· = '*')
  | x :: rest =>
    match _moves : globMove sep x pat with
    | .consume pat' => globLoop sep pat' rest star
    | .star pat' => globLoop sep pat' (x :: rest) (some (pat', x :: rest))
    | .mismatch =>
      match star with
      | none => false
      | some (_, []) => false
      | some (back, y :: t) => if sep && y = '.' then false else globLoop sep back t (some (back, t))
termination_by globMeasure pat s star
decreasing_by
  · exact globMeasure_consume _ (globMove_consume ‹_›)
  · exact globMeasure_star _ (globMove_star ‹_›)
  · exact globMeasure_back ..

def globMatch (sep : Bool) (pat s : Name) : Bool := globLoop sep pat s none

def keepText (s : Name) (found : Option (Name × Name)) : Option (Name × Name) :=
  found.map fun parts => (s ++ parts.1, parts.2)

/-- How a pattern goes on behind the brace that opens a group: the text of the group, up to the brace that closes
    it, and what follows. A backslash and the character behind it are passed over. -/
def closing (depth : Nat) : Name → Option (Name × Name)
  | [] => none
  | '\\' :: c :: rest => keepText ['\\', c] (closing depth rest)
  | c :: rest =>
    if c = '\x7b' then keepText [c] (closing (depth + 1) rest)
    else if c = '\x7d' then
      match depth with
      | 0 => some ([], rest)
      | d + 1 => keepText [c] (closing d rest)
    else keepText [c] (closing depth rest)

inductive Group where
  | none
  | found (before body behind : Name)
  | unmatchedClose (offset : Nat)
  | unmatchedOpen
  deriving Repr, DecidableEq

def byteSize (s : Name) : Nat := (s.map Char.utf8Size).sum

def Group.behindText (s : Name) : Group → Group
  | .none => .none
  | .found before body behind => .found (s ++ before) body behind
  | .unmatchedClose offset => .unmatchedClose (byteSize s + offset)
  | .unmatchedOpen => .unmatchedOpen

def firstGroup : Name → Group
  | [] => .none
  | '\\' :: c :: rest => (firstGroup rest).behindText ['\\', c]
  | c :: rest =>
    if c = '\x7b' then
      match closing 0 rest with
      | some (body, behind) => .found [] body behind
      | none => .unmatchedOpen
    else if c = '\x7d' then .unmatchedClose 0
    else (firstGroup rest).behindText [c]

def growFirst (s : Name) : List Name → List Name
  | [] => [s]
  | part :: parts => (s ++ part) :: parts

def splitFrom (depth : Int) : Name → List Name
  | [] => [[]]
  | '\\' :: c :: rest => growFirst ['\\', c] (splitFrom depth rest)
  | c :: rest =>
    if c = '\x7b' then growFirst [c] (splitFrom (depth + 1) rest)
    else if c = '\x7d' then growFirst [c] (splitFrom (depth - 1) rest)
    else if c = ',' ∧ depth = 0 then [] :: splitFrom depth rest
    else growFirst [c] (splitFrom depth rest)

def splitTopLevel (s : Name) : List Name := splitFrom 0 s

theorem keepText_eq_some {s body behind : Name} {found : Option (Name × Name)} :
    keepText s found = some (body, behind) ↔ ∃ inner, found = some (inner, behind) ∧ body = s ++ inner := by
  cases found with
  | none => simp [keepText]
  | some parts =>
    obtain ⟨inner, behind'⟩ := parts
    simp only [keepText, Option.map_some, Option.some.injEq, Prod.mk.injEq]
    constructor
    · intro ⟨grown, same⟩
      exact ⟨inner, ⟨rfl, same⟩, grown.symm⟩
    · intro ⟨inner', ⟨kept, same⟩, grown⟩
      exact ⟨by rw [grown, kept], same⟩

theorem closing_text {depth : Nat} {s body behind : Name} (found : closing depth s = some (body, behind)) :
    s = body ++ '\x7d' :: behind := by
  fun_induction closing depth s generalizing body behind with
  | case1 => cases found
  | case2 depth c rest ih | case3 depth rest _ ih | case5 rest _ depth _ ih | case6 depth c rest _ _ _ ih =>
    obtain ⟨inner, further, rfl⟩ := keepText_eq_some.mp found
    rw [ih further]
    rfl
  | case4 rest =>
    cases found
    rfl

theorem behindText_eq_found {s before body behind : Name} {group : Group} :
    group.behindText s = .found before body behind ↔ ∃ inner, group = .found inner body behind ∧ before = s ++ inner := by
  cases group with
  | found inner body' behind' =>
    simp only [Group.behindText, Group.found.injEq]
    constructor
    · intro ⟨grown, same⟩
      exact ⟨inner, ⟨rfl, same⟩, grown.symm⟩
    · intro ⟨inner', ⟨kept, same⟩, grown⟩
      exact ⟨by rw [grown, kept], same⟩
  | _ => simp [Group.behindText]

theorem firstGroup_text {s before body behind : Name} (found : firstGroup s = .found before body behind) :
    s = before ++ '\x7b' :: body ++ '\x7d' :: behind := by
  fun_induction firstGroup s generalizing before body behind with
  | case1 => cases found
  | case2 c rest ih | case6 c rest _ _ _ ih =>
    obtain ⟨inner, further, rfl⟩ := behindText_eq_found.mp found
    rw [ih further]
    rfl
  | case3 rest body behind closed =>
    cases found
    rw [closing_text closed]
    rfl
  | case4 => cases found
  | case5 => cases found

theorem growFirst_ne_nil (s : Name) (parts : List Name) : growFirst s parts ≠ [] := by
  cases parts <;> exact List.cons_ne_nil _ _

theorem splitFrom_ne_nil (depth : Int) (s : Name) : splitFrom depth s ≠ [] := by
  fun_induction splitFrom depth s <;> first | exact growFirst_ne_nil _ _ | exact List.cons_ne_nil _ _

def partsSize (parts : List Name) : Nat := (parts.map fun part => part.length + 1).sum

theorem growFirst_size (s : Name) {parts : List Name} (some_ : parts ≠ []) :
    partsSize (growFirst s parts) = s.length + partsSize parts := by
  obtain ⟨part, rest, rfl⟩ := List.exists_cons_of_ne_nil some_
  simp [growFirst, partsSize]
  omega

theorem splitFrom_size (depth : Int) (s : Name) : partsSize (splitFrom depth s) = s.length + 1 := by
  fun_induction splitFrom depth s with
  | case1 => rfl
  | case2 depth c rest ih | case3 depth rest _ ih | case4 depth rest _ _ ih | case6 depth c rest _ _ _ _ ih =>
    rw [growFirst_size _ (splitFrom_ne_nil _ _), ih]
    simp only [List.length_cons, List.length_nil]
    omega
  | case5 depth c rest _ _ _ _ ih =>
    simp only [partsSize, List.map_cons, List.sum_cons, List.length_nil, List.length_cons] at ih ⊢
    omega

mutual
def expand (s : Name) : Except GlobProblem (List Name) :=
  match _found : firstGroup s with
  | .none => .ok [s]
  | .unmatchedClose offset => .error (.unmatchedClose s offset)
  | .unmatchedOpen => .error (.unmatchedOpen s)
  | .found before body behind => do
    let tails ← expand behind
    expandAlts s before tails (splitTopLevel body) []
termination_by s.length
decreasing_by
  · have text := congrArg List.length (firstGroup_text ‹firstGroup s = .found before body behind›)
    simp only [List.length_append, List.length_cons] at text
    omega
  · have text := congrArg List.length (firstGroup_text ‹firstGroup s = .found before body behind›)
    simp only [List.length_append, List.length_cons] at text
    rw [splitTopLevel, splitFrom_size]
    omega

def expandAlts (s before : Name) (tails : List Name) (alts out : List Name) : Except GlobProblem (List Name) :=
  match alts with
  | [] => .ok out
  | alt :: rest => do
    let heads ← expand (before ++ alt)
    let out := out ++ heads.flatMap fun head => tails.map fun tail => head ++ tail
    if maxGlobExpansion < out.length then .error (.pastLimit s) else expandAlts s before tails rest out
termination_by before.length + partsSize alts
decreasing_by
  · simp [partsSize]
    omega
  · simp [partsSize]
end

def expandBraces (pattern : Name) : Except GlobProblem (List Name) := do
  let out ← expand pattern
  if maxGlobExpansion < out.length then .error (.tooMany pattern out.length) else return out

section Matchers
variable [Text.LowerCase]

def compileGlob (pattern : Name) (sep ci : Bool) : Except GlobProblem GlobMatcher :=
  if pattern = [] then .error .empty
  else do
    let alts ← expandBraces pattern
    return { pats := alts.map (caseOf ci), sep, ci }

def GlobMatcher.matches (m : GlobMatcher) (s : Name) : Bool := m.pats.any fun p => globMatch m.sep p (caseOf m.ci s)

end Matchers

end Mailgw.Rules
