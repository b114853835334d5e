import Mailgw.Events.Replayers

namespace Mailgw.Events

open Calls Files

inductive Chore where
  | replay | sweep
  deriving Repr, DecidableEq

def Chore.prog (r : Replayer) : Chore → Replay Unit
  | .replay => do
    let _ ← r.runOnce
    return ()
  | .sweep => r.sweepRejected

structure Process where
  prog : Replay Unit
  progress : Progress

/-- The failed-events directory and everybody who works on it. The last four fields only record:
    what was spilled, which of it was accepted with which body, what the retention sweep removed,
    and which files were renamed in the spill directory. -/
structure FailedEvents where
  dir : SpillDir := .empty
  now : Nat
  procs : List Process := []
  spilled : List (Chars × SpillRecord) := []
  acked : List (Chars × Chars) := []
  swept : List Chars := []
  moved : List (Chars × Chars) := []

structure Luck where
  fails : Bool := false
  status : Option Nat := none
  stop : Bool := false

inductive Act where
  | tick (now : Nat)
  | spill (time seq : Nat) (record : SpillRecord)
  | begin (r : Replayer) (chore : Chore)
  | step (proc : Nat) (luck : Luck)
  | crash (proc : Nat)

/-- The record is on disk: pending, claimed, or set aside under rejected/. -/
def Located (dir : SpillDir) (name : Chars) (record : SpillRecord) : Prop :=
  ∃ folder file modified, origin folder file = some name ∧ dir.get folder file = some ⟨.record record, modified⟩

namespace FailedEvents

/-- One call. A call that fails leaves the directory as it is. -/
def exec (luck : Luck) (now : Nat) (d : SpillDir) : (c : ReplayCall) → c.Answer × SpillDir
  | .clock => (now, d)
  | .readDir dir => (if luck.fails then none else some (d.list dir), d)
  | .readFile name => (if luck.fails then none else (d.get .spill name).map SpillFile.content, d)
  | .stat dir name => (if luck.fails then none else (d.get dir name).map SpillFile.modified, d)
  | .makeRejected => (!luck.fails, d)
  | .rename name dir name' =>
    match luck.fails, d.get .spill name with
    | false, some file => (true, d.move .spill name dir name' file)
    | _, _ => (false, d)
  | .touch name time =>
    match luck.fails, d.get .rejected name with
    | false, some file => (true, d.put .rejected name { file with modified := time })
    | _, _ => (false, d)
  | .remove dir name =>
    match luck.fails, d.get dir name with
    | false, some _ => (true, d.del dir name)
    | _, _ => (false, d)
  | .post _ _ => (luck.status, d)
  | .cancelled => (luck.stop, d)

def note (s : FailedEvents) (g : Progress) : (c : ReplayCall) → c.Answer → FailedEvents
  | .post _ body, answer =>
    match g.claim with
    | some h => if isAccepted answer then { s with acked := (h.name, body) :: s.acked } else s
    | none => s
  | .remove .rejected name, true => { s with swept := name :: s.swept }
  | .rename name .spill name', true => { s with moved := (name, name') :: s.moved }
  | _, _ => s

def next (s : FailedEvents) : Act → Option FailedEvents
  | .tick now => if s.now ≤ now ∧ now < 2 ^ 63 then some { s with now } else none
  | .spill time seq record =>
    -- the time and the sequence number in a spill's name make it new
    let name := spillName time seq record.kind
    if name ∈ s.spilled.map Prod.fst then none
    else some { s with
      dir := s.dir.put .spill name ⟨.record record, s.now⟩
      spilled := (name, record) :: s.spilled }
  | .begin r chore => some { s with procs := s.procs ++ [⟨chore.prog r, { pid := r.pid }⟩] }
  | .step i luck =>
    match s.procs[i]? with
    | some ⟨.call c rest, g⟩ =>
      let (answer, dir) := exec luck s.now s.dir c
      some { s.note g c answer with dir, procs := s.procs.set i ⟨rest answer, g.after c answer⟩ }
    | _ => none
  | .crash i => some { s with procs := s.procs.set i ⟨.done (), { pid := 0 }⟩ }

/-- The replayer works on a claim: its POST is not answered yet, or the claimed file is still there. -/
def Holds (s : FailedEvents) (p : Process) (name : Chars) : Prop :=
  ∃ h, p.progress.claim = some h ∧ h.name = name ∧ (h.answered = false ∨ s.dir.get .spill h.path ≠ none)

/-- Every POST ends within the grace: who still waits for an answer took its claim not longer ago. -/
def Prompt (s : FailedEvents) : Prop :=
  ∀ p ∈ s.procs, ∀ h, p.progress.claim = some h → h.answered = false → s.now ≤ h.time + claimGrace

end FailedEvents

/-- Every file is a spilled record under a name it may have, and no record has two files. -/
structure Shelf (dir : SpillDir) (spilled : List (Chars × SpillRecord)) : Prop where
  files : ∀ folder file entry, dir.get folder file = some entry →
    ∃ name record, origin folder file = some name ∧ (name, record) ∈ spilled ∧ entry.content = .record record
  alone : ∀ folder file entry folder' file' entry' name, dir.get folder file = some entry →
    dir.get folder' file' = some entry' → origin folder file = some name → origin folder' file' = some name →
      folder = folder' ∧ file = file'

variable {dir : SpillDir} {spilled : List (Chars × SpillRecord)} {entry : SpillFile} {name : Chars}

namespace Shelf

theorem move (shelf : Shelf dir spilled) {src dst : Chars} {folder : Folder} (found : dir.get .spill src = some entry)
    (own : origin .spill src = some name) (same : origin folder dst = some name) :
    Shelf (dir.move .spill src folder dst entry) spilled := by
  have source : ∀ folder' file' entry', (dir.move .spill src folder dst entry).get folder' file' = some entry' →
      ∃ folder₀ file₀, dir.get folder₀ file₀ = some entry' ∧ origin folder₀ file₀ = origin folder' file' ∧
        (folder' = folder ∧ file' = dst ∧ folder₀ = .spill ∧ file₀ = src ∨
          folder₀ = folder' ∧ file₀ = file' ∧ ¬ (folder' = .spill ∧ file' = src)) := by
    intro folder' file' entry' present
    rw [Folders.get_move] at present
    split at present
    · rename_i target
      cases present
      exact ⟨.spill, src, found, by rw [own, target.1, target.2, same], .inl ⟨target.1, target.2, rfl, rfl⟩⟩
    · split at present
      · cases present
      · rename_i elsewhere
        exact ⟨folder', file', present, rfl, .inr ⟨rfl, rfl, elsewhere⟩⟩
  constructor
  · intro folder' file' entry' present
    obtain ⟨folder₀, file₀, before, origins, -⟩ := source folder' file' entry' present
    rw [← origins]
    exact shelf.files folder₀ file₀ entry' before
  · intro folder₁ file₁ entry₁ folder₂ file₂ entry₂ name' present₁ present₂ origin₁ origin₂
    obtain ⟨folder₃, file₃, before₁, origins₁, place₁⟩ := source folder₁ file₁ entry₁ present₁
    obtain ⟨folder₄, file₄, before₂, origins₂, place₂⟩ := source folder₂ file₂ entry₂ present₂
    obtain ⟨sameFolder, sameFile⟩ := shelf.alone folder₃ file₃ entry₁ folder₄ file₄ entry₂ name' before₁ before₂
      (origins₁.trans origin₁) (origins₂.trans origin₂)
    rcases place₁ with ⟨rfl, rfl, rfl, rfl⟩ | ⟨rfl, rfl, other₁⟩ <;>
      rcases place₂ with ⟨rfl, rfl, rfl, rfl⟩ | ⟨rfl, rfl, other₂⟩
    · exact ⟨rfl, rfl⟩
    · exact (other₂ ⟨sameFolder.symm, sameFile.symm⟩).elim
    · exact (other₁ ⟨sameFolder, sameFile⟩).elim
    · exact ⟨sameFolder, sameFile⟩

theorem del (shelf : Shelf dir spilled) (folder : Folder) (file : Chars) : Shelf (dir.del folder file) spilled := by
  have source : ∀ folder' file' entry', (dir.del folder file).get folder' file' = some entry' →
      dir.get folder' file' = some entry' := by
    intro folder' file' entry' present
    rw [Folders.get_del] at present
    split at present
    · cases present
    · exact present
  constructor
  · intro folder' file' entry' present
    exact shelf.files folder' file' entry' (source _ _ _ present)
  · intro folder₁ file₁ entry₁ folder₂ file₂ entry₂ name' present₁ present₂
    exact shelf.alone folder₁ file₁ entry₁ folder₂ file₂ entry₂ name' (source _ _ _ present₁) (source _ _ _ present₂)

theorem touch (shelf : Shelf dir spilled) {folder : Folder} {file : Chars} (found : dir.get folder file = some entry)
    (time : Nat) : Shelf (dir.put folder file { entry with modified := time }) spilled := by
  have source : ∀ folder' file' entry', (dir.put folder file { entry with modified := time }).get folder' file' =
      some entry' → ∃ entry₀, dir.get folder' file' = some entry₀ ∧ entry₀.content = entry'.content := by
    intro folder' file' entry' present
    rw [Folders.get_put] at present
    split at present
    · rename_i same
      cases present
      exact ⟨entry, by rw [same.1, same.2, found], rfl⟩
    · exact ⟨entry', present, rfl⟩
  constructor
  · intro folder' file' entry' present
    obtain ⟨entry₀, before, content⟩ := source _ _ _ present
    rw [← content]
    exact shelf.files folder' file' entry₀ before
  · intro folder₁ file₁ entry₁ folder₂ file₂ entry₂ name' present₁ present₂
    obtain ⟨entry₃, before₁, -⟩ := source _ _ _ present₁
    obtain ⟨entry₄, before₂, -⟩ := source _ _ _ present₂
    exact shelf.alone folder₁ file₁ entry₃ folder₂ file₂ entry₄ name' before₁ before₂

theorem spill (shelf : Shelf dir spilled) (pending : isPending name = true) (fresh : name ∉ spilled.map Prod.fst)
    (record : SpillRecord) (time : Nat) :
    Shelf (dir.put .spill name ⟨.record record, time⟩) ((name, record) :: spilled) := by
  have unknown : ∀ folder file entry, dir.get folder file = some entry → origin folder file ≠ some name := by
    intro folder file entry present same
    obtain ⟨name', record', own, member, -⟩ := shelf.files folder file entry present
    rw [own] at same
    cases same
    exact fresh (List.mem_map_of_mem member)
  constructor
  · intro folder' file' entry' present
    rw [Folders.get_put] at present
    split at present
    · rename_i same
      cases present
      exact ⟨name, record, by rw [same.1, same.2, origin_pending pending], List.mem_cons_self, rfl⟩
    · obtain ⟨name', record', own, member, content⟩ := shelf.files folder' file' entry' present
      exact ⟨name', record', own, List.mem_cons_of_mem _ member, content⟩
  · intro folder₁ file₁ entry₁ folder₂ file₂ entry₂ name' present₁ present₂ origin₁ origin₂
    rw [Folders.get_put] at present₁ present₂
    split at present₁ <;> split at present₂
    · rename_i same₁ same₂
      exact ⟨same₁.1.trans same₂.1.symm, same₁.2.trans same₂.2.symm⟩
    · rename_i same₁ _
      rw [same₁.1, same₁.2, origin_pending pending] at origin₁
      cases origin₁
      exact (unknown _ _ _ present₂ origin₂).elim
    · rename_i _ same₂
      rw [same₂.1, same₂.2, origin_pending pending] at origin₂
      cases origin₂
      exact (unknown _ _ _ present₁ origin₁).elim
    · exact shelf.alone folder₁ file₁ entry₁ folder₂ file₂ entry₂ name' present₁ present₂ origin₁ origin₂

end Shelf

namespace Located

variable {record : SpillRecord}

theorem move (located : Located dir name record) {src dst name' : Chars} {folder : Folder}
    (found : dir.get .spill src = some entry) (shelf : Shelf dir spilled)
    (own : origin .spill src = some name') (same : origin folder dst = some name') :
    Located (dir.move .spill src folder dst entry) name record := by
  obtain ⟨folder', file', modified, origin', present⟩ := located
  by_cases source : folder' = .spill ∧ file' = src
  · obtain ⟨rfl, rfl⟩ := source
    rw [own] at origin'
    cases origin'
    rw [found] at present
    cases present
    exact ⟨folder, dst, modified, same, by simp [Folders.get_move]⟩
  · by_cases target : folder' = folder ∧ file' = dst
    · obtain ⟨rfl, rfl⟩ := target
      rw [same] at origin'
      cases origin'
      have sole := shelf.alone _ _ _ _ _ _ _ found present own same
      exact (source ⟨sole.1.symm, sole.2.symm⟩).elim
    · exact ⟨folder', file', modified, origin', by simp [Folders.get_move, source, target, present]⟩

theorem del (located : Located dir name record) {folder : Folder} {file : Chars}
    (other : origin folder file ≠ some name) : Located (dir.del folder file) name record := by
  obtain ⟨folder', file', modified, origin', present⟩ := located
  refine ⟨folder', file', modified, origin', ?_⟩
  rw [Folders.get_del, if_neg]
  · exact present
  · intro same
    rw [same.1, same.2] at origin'
    exact other origin'

theorem put (located : Located dir name record) {folder : Folder} {file : Chars} {entry' : SpillFile}
    (kept : ∀ entry, dir.get folder file = some entry → entry.content = entry'.content) :
    Located (dir.put folder file entry') name record := by
  obtain ⟨folder', file', modified, origin', present⟩ := located
  by_cases same : folder' = folder ∧ file' = file
  · obtain ⟨rfl, rfl⟩ := same
    have content : Content.record record = entry'.content := kept _ present
    exact ⟨folder', file', entry'.modified, origin', by simp [Folders.get_put, content]⟩
  · exact ⟨folder', file', modified, origin', by simp [Folders.get_put, same, present]⟩

end Located

end Mailgw.Events
