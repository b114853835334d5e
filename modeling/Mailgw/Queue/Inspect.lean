import Mathlib.Data.Char
import Mathlib.Data.List.Lex
import Mailgw.Queue.Spool

namespace Mailgw.Queue

open Calls

/-- One file as the operator's tool sees it. A file that cannot be read is reported, not
    skipped. -/
structure Entry where
  queue : Dir
  name : Name
  env : Except Failure Envelope
  due : Int

namespace Entry

/-- The identifier, recovered from the filename when the file could not be read. -/
def uuid (entry : Entry) : Name :=
  match entry.env with
  | .ok e => e.uuid
  | .error _ => (Spool.envelopeUUID entry.queue entry.name).getD []

def zeroDue : Int := -62135596800

def dueOf (dir : Dir) (name : Name) : Int :=
  match dir with
  | .ready => (parseDue name).getD zeroDue
  | .inflight => (parseDue (stripClaimPrefix name)).getD zeroDue
  | _ => zeroDue

/-- The order of the listing: active work, then what waits on a person, then what was given up. -/
def rank : Dir → Nat
  | .ready => 0
  | .inflight => 1
  | .quarantine => 2
  | .dead => 3
  | .data => 4

def sortsBefore (a b : Entry) : Prop :=
  rank a.queue < rank b.queue ∨ rank a.queue = rank b.queue ∧
    (a.due < b.due ∨ a.due = b.due ∧ a.uuid ≤ b.uuid)

instance : DecidableRel sortsBefore := fun _ _ =>
  inferInstanceAs (Decidable (_ ∨ _ ∧ (_ ∨ _ ∧ _)))

instance : Std.Total sortsBefore where
  total a b := by
    unfold sortsBefore
    rcases lt_trichotomy (rank a.queue) (rank b.queue) with queue | queue | queue
    · exact .inl (.inl queue)
    · rcases lt_trichotomy a.due b.due with due | due | due
      · exact .inl (.inr ⟨queue, .inl due⟩)
      · rcases le_total a.uuid b.uuid with uuid | uuid
        · exact .inl (.inr ⟨queue, .inr ⟨due, uuid⟩⟩)
        · exact .inr (.inr ⟨queue.symm, .inr ⟨due.symm, uuid⟩⟩)
      · exact .inr (.inr ⟨queue.symm, .inl due⟩)
    · exact .inr (.inl queue)

instance : IsTrans Entry sortsBefore where
  trans a b c := by
    unfold sortsBefore
    rintro (queue | ⟨queue, due | ⟨due, uuid⟩⟩) (queue' | ⟨queue', due' | ⟨due', uuid'⟩⟩)
    any_goals omega
    exact .inr ⟨queue.trans queue', .inr ⟨due.trans due', le_trans uuid uuid'⟩⟩

theorem sortsBefore.rank_le {a b : Entry} (before : sortsBefore a b) : rank a.queue ≤ rank b.queue := by
  rcases before with queue | ⟨queue, -⟩ <;> omega

end Entry

namespace Spool

def inspectDirs : List Dir := [.ready, .inflight, .quarantine, .dead]

def entriesIn (dir : Dir) : List Name → Spool (List Entry)
  | [] => return []
  | name :: rest => do
    let env ← result (readEnvelope dir name)
    let entries ← entriesIn dir rest
    return ⟨dir, name, env, Entry.dueOf dir name⟩ :: entries

def entriesOf : List Dir → Spool (List Entry)
  | [] => return []
  | dir :: dirs => do
    let names ← readDir dir
    let here ← entriesIn dir names
    let rest ← entriesOf dirs
    return here ++ rest

def listAll : Spool (List Entry) := do
  let entries ← entriesOf inspectDirs
  return entries.insertionSort Entry.sortsBefore

def find (uuid : Name) : Spool Entry := do
  let entries ← listAll
  match entries.find? fun entry => entry.uuid = uuid with
  | some entry => return entry
  | none => throw .notQueued

theorem find?_first {entries : List Entry} {uuid : Name} {entry : Entry}
    (found : (entries.insertionSort Entry.sortsBefore).find? (fun entry => entry.uuid = uuid) = some entry) :
    entry ∈ entries ∧ entry.uuid = uuid ∧
      ∀ other ∈ entries, other.uuid = uuid → Entry.rank entry.queue ≤ Entry.rank other.queue := by
  obtain ⟨same, before, after, sorted, skipped⟩ := List.find?_eq_some_iff_append.mp found
  have member : ∀ {other}, other ∈ entries ↔ other ∈ before ++ entry :: after := by
    intro other
    rw [← sorted, List.mem_insertionSort]
  refine ⟨member.mpr (by simp), by simpa using same, fun other within of => ?_⟩
  have order := List.pairwise_insertionSort Entry.sortsBefore entries
  rw [sorted] at order
  rcases List.mem_append.mp (member.mp within) with early | late
  · have differs := skipped other early
    simp [of] at differs
  · rcases List.mem_cons.mp late with rfl | late
    · exact le_rfl
    · have tail := (List.pairwise_append.mp order).2.1
      exact ((List.pairwise_cons.mp tail).1 other late).rank_le

/-- A file that vanished since it was listed has been claimed. -/
def orInFlight (p : Spool Unit) : Spool Unit := do
  match ← result p with
  | .ok () => return ()
  | .error .notExist => throw .inFlight
  | .error err => throw err

def flush (uuid : Name) : Spool Unit := do
  let entry ← find uuid
  match entry.queue with
  | .ready =>
    let t ← now
    let target := readyName t uuid
    if entry.name = target then return ()
    orInFlight (rename .ready entry.name .ready target)
  | .inflight => throw .inFlight
  | dir => throw (.misplaced dir)

def removeEnvelope (uuid : Name) : Spool Unit := do
  let entry ← find uuid
  if entry.queue = .inflight then throw .inFlight
  orInFlight (remove entry.queue entry.name)
  match entry.env with
  | .ok e => gcBody e
  | .error _ => return ()

/-- Moves a held envelope back into the queue, due immediately, with its attempts reset. -/
def release (uuid : Name) : Spool Unit := do
  let entry ← find uuid
  if entry.queue ≠ .quarantine then throw (.misplaced entry.queue)
  match entry.env with
  | .error err => throw err
  | .ok e =>
    let t ← now
    enqueue (e.resetAttempts.dueAt t)
    removeIfExists .quarantine entry.name

def hold (uuid : Name) : Spool Unit := do
  let entry ← find uuid
  match entry.queue with
  | .ready =>
    match entry.env with
    | .error err => throw err
    | .ok e =>
      quarantine e
      removeIfExists .ready entry.name
  | .inflight => throw .inFlight
  | dir => throw (.misplaced dir)

end Spool

end Mailgw.Queue
