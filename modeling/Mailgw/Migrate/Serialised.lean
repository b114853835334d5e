import Mailgw.Migrate.Runner

namespace Mailgw.Migrate

open Calls Lists Queue

variable {files : List Name}

namespace RunStage

def known : RunStage → Option (List Name)
  | .working known | .executed known _ => some known
  | _ => none

def inside : RunStage → Bool
  | .locked | .working _ | .executed _ _ => true
  | _ => false

def settled : RunStage → Bool
  | .executed _ _ => false
  | _ => true

end RunStage

/-- A file is executed when it is not known to be recorded and every file before it is. -/
def migrating (files : List Name) : Stages MigrationCall MigrationCall.Answer RunStage where
  may
    | .getLock _, stage => stage = .locking
    | .createTable, stage | .appliedSet, stage => stage = .locked
    | .exec name, stage => ∃ known, stage = .working known ∧ name ∉ known ∧ ∀ file ∈ names files, file < name → file ∈ known
    | .record name, stage => ∃ known, stage = .executed known name
    | .releaseLock, stage => stage.settled = true
  can _ _ := True
  after call answer stage := stage.after ⟨call, answer⟩

theorem names_sorted (files : List Name) : (names files).Pairwise fun a b => a ≤ b := List.pairwise_insertionSort _ _

theorem names_nodup (distinct : files.Nodup) : (names files).Nodup :=
  (List.perm_insertionSort _ _).nodup_iff.mpr (distinct.filter _)

theorem applyAll_follows {applied known rest : List Name} (sorted : rest.Pairwise fun a b => a ≤ b) (distinct : rest.Nodup)
    (covered : ∀ file ∈ names files, file ∈ known ∨ file ∈ rest) (same : ∀ file ∈ rest, file ∈ applied ↔ file ∈ known)
    (count : Nat) :
    Follows (migrating files) (fun _ stage => stage.settled = true) (applyAll applied count rest) (.working known) := by
  induction rest generalizing known count with
  | nil => rfl
  | cons name rest ih =>
    rw [List.pairwise_cons] at sorted
    rw [List.nodup_cons] at distinct
    unfold applyAll
    by_cases done : name ∈ applied
    · rw [if_pos done]
      apply ih sorted.2 distinct.2
      · intro file member
        rcases covered file member with there | rest'
        · exact .inl there
        · rcases List.mem_cons.mp rest' with rfl | later
          · exact .inl ((same file List.mem_cons_self).mp done)
          · exact .inr later
      · intro file later
        exact same file (List.mem_cons_of_mem _ later)
    · rw [if_neg done]
      have unknown : name ∉ known := fun there => done ((same name List.mem_cons_self).mpr there)
      have before : ∀ file ∈ names files, file < name → file ∈ known := by
        intro file member below
        rcases covered file member with there | rest'
        · exact there
        · rcases List.mem_cons.mp rest' with rfl | later
          · exact absurd below (lt_irrefl _)
          · exact absurd below (not_lt.mpr (sorted.1 file later))
      have may : ∃ known', RunStage.working known = .working known' ∧ name ∉ known' ∧
          ∀ file ∈ names files, file < name → file ∈ known' := ⟨known, rfl, unknown, before⟩
      apply Follows.ask may
      intro executed _
      cases executed with
      | false => rfl
      | true =>
        have next : ∃ known', RunStage.executed known name = .executed known' name := ⟨known, rfl⟩
        apply Follows.ask next
        intro recorded _
        cases recorded with
        | false => rfl
        | true =>
          have onward : Follows (migrating files) (fun _ stage => stage.settled = true) (applyAll applied (count + 1) rest)
              (.working (name :: known)) := by
            apply ih sorted.2 distinct.2
            · intro file member
              rcases covered file member with there | rest'
              · exact .inl (List.mem_cons_of_mem _ there)
              · rcases List.mem_cons.mp rest' with rfl | later
                · exact .inl List.mem_cons_self
                · exact .inr later
            · intro file later
              have other : file ≠ name := fun own => distinct.1 (own ▸ later)
              rw [same file (List.mem_cons_of_mem _ later)]
              simp [other]
          exact onward

theorem lock_follows : Follows (migrating files) (fun got stage => got = .ok () → stage = .locked) lock .locking := by
  apply Follows.ask rfl
  intro got _
  match got with
  | none =>
    intro locked
    cases locked
  | some none =>
    intro locked
    cases locked
  | some (some true) =>
    intro _
    rfl
  | some (some false) =>
    apply Follows.ask rfl
    intro got _
    match got with
    | none =>
      intro locked
      cases locked
    | some none =>
      intro locked
      cases locked
    | some (some true) =>
      intro _
      rfl
    | some (some false) =>
      intro locked
      cases locked

theorem run_follows (distinct : files.Nodup) : Follows (migrating files) (fun _ _ => True) (run files) .locking := by
  have migrates : Follows (migrating files) (fun _ stage => stage.settled = true) (migrate files) .locked := by
    apply Follows.ask rfl
    intro created _
    cases created with
    | false => rfl
    | true =>
      apply Follows.ask rfl
      intro applied _
      cases applied with
      | none => rfl
      | some applied =>
        apply applyAll_follows (names_sorted files) (names_nodup distinct)
        · intro file member
          exact .inr member
        · intro file _
          exact Iff.rfl
  apply Follows.bind
  apply lock_follows.mono
  intro got stage locked
  cases got with
  | error err => exact trivial
  | ok _ =>
    rw [locked rfl]
    apply Follows.bind
    apply migrates.mono
    intro result stage settled
    apply Follows.ask settled
    intro _ _
    exact trivial

namespace Server

variable {s s' : Server} {i : Nat} {r : Runner}

/-- A session that still lasts is inside only with the lock, and nothing is recorded that it does not
    know. An execution is still to be recorded only while its runner is about to do that. -/
structure Serialised (files : List Name) (s : Server) : Prop where
  follows : ∀ (i : Nat) (r : Runner), s.runners[i]? = some r → Follows (migrating files) (fun _ _ => True) r.job r.stage
  holds : ∀ (i : Nat) (r : Runner), s.runners[i]? = some r → r.dead = false → r.stage.inside = true → s.holder = some i
  knows : ∀ (i : Nat) (r : Runner) (known : List Name), s.runners[i]? = some r → r.dead = false → r.stage.known = some known →
    ∀ file, file ∈ known ↔ file ∈ s.recorded
  unique : s.recorded.Nodup
  pending : ∀ e ∈ s.executions, e.fate = .pending → ∃ (r : Runner) (known : List Name), s.runners[e.runner]? = some r ∧ r.crashed = false ∧
    r.dead = false ∧ r.stage = .executed known e.file
  recorded : ∀ e ∈ s.executions, e.fate = .recorded → e.file ∈ s.recorded
  ordered : ∀ e ∈ s.executions, ∀ file ∈ names files, file < e.file → file ∈ e.before
  once : s.executions.Pairwise fun e e' => e.file = e'.file → e.fate = .interrupted

theorem known_inside {stage : RunStage} {known : List Name} (knows : stage.known = some known) : stage.inside = true := by
  cases stage <;> first | rfl | cases knows

theorem Serialised.alone (serialised : s.Serialised files) (here : s.runners[i]? = some r) (alive : r.dead = false)
    (inside : r.stage.inside = true) {j : Nat} {r' : Runner} (there : s.runners[j]? = some r') (alive' : r'.dead = false)
    (inside' : r'.stage.inside = true) : j = i := by
  have mine := serialised.holds i r here alive inside
  have theirs := serialised.holds j r' there alive' inside'
  rw [mine] at theirs
  exact (Option.some.inj theirs).symm

theorem Serialised.step {holder : Option Nat} {recorded : List Name} {executions : List Execution} {r' : Runner} {table : Bool}
    (serialised : s.Serialised files) (here : s.runners[i]? = some r)
    (follows : Follows (migrating files) (fun _ _ => True) r'.job r'.stage)
    (holds : r'.dead = false → r'.stage.inside = true → holder = some i)
    (knows : ∀ known, r'.dead = false → r'.stage.known = some known → ∀ file, file ∈ known ↔ file ∈ recorded)
    (others : (holder = s.holder ∧ recorded = s.recorded) ∨
      ∀ (j : Nat) (r : Runner), j ≠ i → s.runners[j]? = some r → r.dead = false → r.stage.inside = false)
    (unique : recorded.Nodup)
    (pending : ∀ e ∈ executions, e.fate = .pending → (e ∈ s.executions ∧ e.runner ≠ i) ∨
      e.runner = i ∧ r'.crashed = false ∧ r'.dead = false ∧ ∃ known, r'.stage = .executed known e.file)
    (marked : ∀ e ∈ executions, e.fate = .recorded → e.file ∈ recorded)
    (ordered : ∀ e ∈ executions, ∀ file ∈ names files, file < e.file → file ∈ e.before)
    (once : executions.Pairwise fun e e' => e.file = e'.file → e.fate = .interrupted) :
    Serialised files { s with table, holder, recorded, executions, runners := s.runners.set i r' } := by
  have short := (List.getElem?_eq_some_iff.mp here).1
  constructor
  · intro j r'' there
    rcases getElem?_replace there with ⟨_, rfl⟩ | ⟨_, old⟩
    · exact follows
    · exact serialised.follows j r'' old
  · intro j r'' there alive inside
    rcases getElem?_replace there with ⟨rfl, rfl⟩ | ⟨other, old⟩
    · exact holds alive inside
    · rcases others with ⟨same, _⟩ | outside
      · exact same.trans (serialised.holds j r'' old alive inside)
      · rw [outside j r'' other old alive] at inside
        cases inside
  · intro j r'' known there alive knows'
    rcases getElem?_replace there with ⟨rfl, rfl⟩ | ⟨other, old⟩
    · exact knows known alive knows'
    · rcases others with ⟨_, same⟩ | outside
      · dsimp only
        rw [same]
        exact serialised.knows j r'' known old alive knows'
      · have inside := known_inside knows'
        rw [outside j r'' other old alive] at inside
        cases inside
  · exact unique
  · intro e member waits
    rcases pending e member waits with ⟨old, other⟩ | ⟨rfl, crashed, alive, known, stage⟩
    · obtain ⟨r'', known, there, rest⟩ := serialised.pending e old waits
      exact ⟨r'', known, (List.getElem?_set_ne (Ne.symm other)).trans there, rest⟩
    · exact ⟨r', known, List.getElem?_set_self short, crashed, alive, stage⟩
  · exact marked
  · exact ordered
  · exact once

theorem mem_settle {fate : Fate} {e' : Execution} (member : e' ∈ (s.settle i fate).executions) :
    ∃ e ∈ s.executions, e'.file = e.file ∧ e'.before = e.before ∧
      ((e' = e ∧ (e.runner = i → e.fate ≠ .pending)) ∨ (e.runner = i ∧ e.fate = .pending ∧ e'.fate = fate)) := by
  obtain ⟨e, old, rfl⟩ := List.mem_map.mp member
  refine ⟨e, old, ?_⟩
  by_cases waits : e.runner = i ∧ e.fate = .pending
  · rw [if_pos waits]
    exact ⟨rfl, rfl, .inr ⟨waits.1, waits.2, rfl⟩⟩
  · rw [if_neg waits]
    exact ⟨rfl, rfl, .inl ⟨rfl, fun own pending => waits ⟨own, pending⟩⟩⟩

theorem settle_once {fate : Fate} (once : s.executions.Pairwise fun e e' => e.file = e'.file → e.fate = .interrupted) :
    (s.settle i fate).executions.Pairwise fun e e' => e.file = e'.file → e.fate = .interrupted := by
  apply List.Pairwise.map _ _ once
  intro e e' interrupted same
  have files : e.file = e'.file := by
    have left : (if e.runner = i ∧ e.fate = .pending then { e with fate } else e).file = e.file := by split <;> rfl
    have right : (if e'.runner = i ∧ e'.fate = .pending then { e' with fate } else e').file = e'.file := by split <;> rfl
    rw [← left, ← right]
    exact same
  have ended := interrupted files
  rw [if_neg fun waits => by rw [ended] at waits; cases waits.2]
  exact ended

section Work
variable {effect : Bool} {left : MigrationJob (Except RunError Nat)} {stage : RunStage}
variable (serialised : s.Serialised files) (here : s.runners[i]? = some r)
variable (onward : Follows (migrating files) (fun _ _ => True) left stage)
include serialised here

theorem Serialised.waits {e : Execution} (member : e ∈ s.executions) (pending : e.fate = .pending) (own : e.runner = i) :
    r.crashed = false ∧ r.dead = false ∧ ∃ known, r.stage = .executed known e.file := by
  obtain ⟨r', known, there, crashed, alive, executed⟩ := serialised.pending e member pending
  rw [own, here] at there
  cases there
  exact ⟨crashed, alive, known, executed⟩

theorem Serialised.settled (settled : r.stage.settled = true) :
    ∀ e ∈ s.executions, e.fate = .pending → e ∈ s.executions ∧ e.runner ≠ i := by
  intro e member pending
  refine ⟨member, fun own => ?_⟩
  obtain ⟨_, _, known, executed⟩ := serialised.waits here member pending own
  rw [executed] at settled
  cases settled

include onward

theorem Serialised.quiet {table : Bool} (settled : r.stage.settled = true)
    (inside : stage.inside = true → r.stage.inside = true)
    (knows : ∀ known, r.dead = false → stage.known = some known → ∀ file, file ∈ known ↔ file ∈ s.recorded) :
    Serialised files { s with table, runners := s.runners.set i { r with stage, job := left, sent := false } } := by
  apply serialised.step here onward
  · intro alive held
    exact serialised.holds i r here alive (inside held)
  · exact knows
  · exact .inl ⟨rfl, rfl⟩
  · exact serialised.unique
  · intro e member pending
    exact .inl (serialised.settled here settled e member pending)
  · exact serialised.recorded
  · exact serialised.ordered
  · exact serialised.once

theorem Serialised.relock {holder : Option Nat} (settled : r.stage.settled = true) (unknown : stage.known = none)
    (holds : stage.inside = true → holder = some i)
    (outside : ∀ (j : Nat) (r : Runner), j ≠ i → s.runners[j]? = some r → r.dead = false → r.stage.inside = false) :
    Serialised files { s with holder, runners := s.runners.set i { r with stage, job := left, sent := false } } := by
  apply serialised.step here onward
  · intro _ held
    exact holds held
  · intro known _ knows
    dsimp only at knows
    rw [unknown] at knows
    cases knows
  · exact .inr outside
  · exact serialised.unique
  · intro e member pending
    exact .inl (serialised.settled here settled e member pending)
  · exact serialised.recorded
  · exact serialised.ordered
  · exact serialised.once

theorem Serialised.executes {known : List Name} {name : Name} {fate : Fate} (working : r.stage = .working known)
    (alive : r.dead = false) (unknown : name ∉ known) (before : ∀ file ∈ names files, file < name → file ∈ known)
    (unfinished : fate ≠ .recorded) (waits : fate = .pending → r.crashed = false ∧ stage = .executed known name)
    (knows : stage.known = some known ∨ stage = .over) (inside : stage.inside = true → r.stage.inside = true) :
    Serialised files { s with
      executions := s.executions ++ [⟨i, name, s.recorded, fate⟩]
      runners := s.runners.set i { r with stage, job := left, sent := false } } := by
  have same := serialised.knows i r known here alive (by rw [working]; rfl)
  have settled : r.stage.settled = true := by rw [working]; rfl
  apply serialised.step here onward
  · intro _ held
    exact serialised.holds i r here alive (inside held)
  · intro known' _ knows'
    rcases knows with knows | gone
    · have own : known' = known := Option.some.inj (knows'.symm.trans knows)
      rw [own]
      exact same
    · dsimp only at knows'
      rw [gone] at knows'
      cases knows'
  · exact .inl ⟨rfl, rfl⟩
  · exact serialised.unique
  · intro e member pending
    rcases List.mem_append.mp member with old | new
    · exact .inl (serialised.settled here settled e old pending)
    · rw [List.mem_singleton.mp new] at pending ⊢
      obtain ⟨crashed, executed⟩ := waits pending
      exact .inr ⟨rfl, crashed, alive, known, executed⟩
  · intro e member marked
    rcases List.mem_append.mp member with old | new
    · exact serialised.recorded e old marked
    · rw [List.mem_singleton.mp new] at marked
      exact absurd marked unfinished
  · intro e member file listed below
    rcases List.mem_append.mp member with old | new
    · exact serialised.ordered e old file listed below
    · rw [List.mem_singleton.mp new] at below ⊢
      exact (same file).mp (before file listed below)
  · apply List.pairwise_append.mpr
    refine ⟨serialised.once, List.pairwise_singleton _ _, ?_⟩
    intro e old e' new own
    rw [List.mem_singleton.mp new] at own
    cases fate' : e.fate with
    | interrupted => rfl
    | recorded =>
      have there := (same e.file).mpr (serialised.recorded e old fate')
      rw [own] at there
      exact absurd there unknown
    | pending =>
      obtain ⟨r', known', there, _, alive', executed⟩ := serialised.pending e old fate'
      have mine := serialised.alone here alive (by rw [working]; rfl) there alive' (by rw [executed]; rfl)
      exact absurd mine (serialised.settled here settled e old fate').2

theorem Serialised.records {known : List Name} {name : Name} {fate : Fate} (executed : r.stage = .executed known name)
    (alive : r.dead = false) (fresh : name ∉ s.recorded) (finished : fate ≠ .pending)
    (knows : stage = .working (name :: known) ∨ stage = .over) :
    Serialised files { s with
      recorded := s.recorded ++ [name]
      executions := (s.settle i fate).executions
      runners := s.runners.set i { r with stage, job := left, sent := false } } := by
  have same := serialised.knows i r known here alive (by rw [executed]; rfl)
  have inside : r.stage.inside = true := by rw [executed]; rfl
  apply serialised.step here onward
  · intro _ held
    exact serialised.holds i r here alive inside
  · intro known' _ knows' file
    dsimp only at knows'
    rcases knows with working | gone
    · rw [working] at knows'
      cases knows'
      rw [List.mem_cons, List.mem_append, List.mem_singleton, same file, or_comm]
    · rw [gone] at knows'
      cases knows'
  · right
    intro j r' other there alive'
    by_contra inside'
    exact other (serialised.alone here alive inside there alive' (by simpa using inside'))
  · apply List.nodup_append.mpr
    refine ⟨serialised.unique, List.nodup_singleton _, ?_⟩
    intro a old b new same
    rw [same, List.mem_singleton.mp new] at old
    exact fresh old
  · intro e' member pending
    obtain ⟨e, old, _, _, ⟨rfl, other⟩ | ⟨_, _, ended⟩⟩ := mem_settle member
    · exact .inl ⟨old, fun own => other own pending⟩
    · exact absurd (ended.symm.trans pending) finished
  · intro e' member marked
    obtain ⟨e, old, file, _, ⟨rfl, _⟩ | ⟨own, waits, _⟩⟩ := mem_settle member
    · exact List.mem_append_left _ (serialised.recorded e' old marked)
    · obtain ⟨_, _, known', stage'⟩ := serialised.waits here old waits own
      rw [executed] at stage'
      cases stage'
      rw [file]
      exact List.mem_append_right _ List.mem_cons_self
  · intro e' member file listed below
    obtain ⟨e, old, same, before, _⟩ := mem_settle member
    rw [before]
    rw [same] at below
    exact serialised.ordered e old file listed below
  · exact settle_once serialised.once

end Work

theorem Serialised.interrupts {table : Bool} {holder : Option Nat} {r' : Runner} (serialised : s.Serialised files)
    (here : s.runners[i]? = some r) (follows : Follows (migrating files) (fun _ _ => True) r'.job r'.stage)
    (holds : r'.dead = false → r'.stage.inside = true → holder = some i)
    (knows : ∀ known, r'.dead = false → r'.stage.known = some known → ∀ file, file ∈ known ↔ file ∈ s.recorded)
    (others : holder = s.holder ∨
      ∀ (j : Nat) (r : Runner), j ≠ i → s.runners[j]? = some r → r.dead = false → r.stage.inside = false) :
    Serialised files { s with
      table, holder
      executions := (s.settle i .interrupted).executions
      runners := s.runners.set i r' } := by
  apply serialised.step here follows holds knows
  · exact others.imp_left fun same => ⟨same, rfl⟩
  · exact serialised.unique
  · intro e' member pending
    obtain ⟨e, old, _, _, ⟨rfl, other⟩ | ⟨_, _, ended⟩⟩ := mem_settle member
    · exact .inl ⟨old, fun own => other own pending⟩
    · rw [ended] at pending
      cases pending
  · intro e' member marked
    obtain ⟨e, old, file, _, ⟨rfl, _⟩ | ⟨_, _, ended⟩⟩ := mem_settle member
    · exact serialised.recorded e' old marked
    · rw [ended] at marked
      cases marked
  · intro e' member file listed below
    obtain ⟨e, old, same, before, _⟩ := mem_settle member
    rw [before]
    rw [same] at below
    exact serialised.ordered e old file listed below
  · exact settle_once serialised.once

theorem Serialised.outside (serialised : s.Serialised files) (free : s.holder = none ∨ s.holder = some i) :
    ∀ (j : Nat) (r : Runner), j ≠ i → s.runners[j]? = some r → r.dead = false → r.stage.inside = false := by
  intro j r' other there alive
  by_contra inside
  have holds := serialised.holds j r' there alive (by simpa using inside)
  rcases free with free | free
  · rw [free] at holds
    cases holds
  · rw [free] at holds
    exact other (Option.some.inj holds).symm

theorem Serialised.work {event : Statement} {effect : Bool} (serialised : s.Serialised files)
    (next : s.next files (.work i event effect) = some s') : s'.Serialised files := by
  obtain ⟨r, here, next⟩ := Option.bind_eq_some_iff.mp next
  split at next
  · cases next
  rename_i guard
  obtain ⟨left, made, next⟩ := Option.bind_eq_some_iff.mp next
  obtain ⟨between, served, next⟩ := Option.bind_eq_some_iff.mp next
  obtain ⟨may, onward⟩ := (serialised.follows i r here).step trivial made
  have alive : refused event = false ∨ effect = true → r.dead = false := by
    intro acts
    by_contra dead
    exact guard (.inr ⟨by simpa using dead, acts⟩)
  obtain ⟨call, answer⟩ := event
  replace onward : Follows (migrating files) (fun _ _ => True) left (r.stage.after ⟨call, answer⟩) := onward
  cases call with
  | getLock timeout =>
    have locking : r.stage = .locking := may
    have settled : r.stage.settled = true := by rw [locking]; rfl
    simp only [serve] at served
    split at served
    · rename_i taken
      split at served
      · rename_i free
        cases served
        cases next
        apply serialised.relock here onward settled _ (fun _ => rfl) (serialised.outside free)
        rcases taken with rfl | ⟨rfl, _⟩ <;> rfl
      · cases served
    · rename_i missed
      have unlocked : answer ≠ some (some true) := fun got => missed (.inl got)
      have idle : s' = { s with runners := s.runners.set i { r with
          stage := r.stage.after ⟨.getLock timeout, answer⟩, job := left, sent := false } } := by
        split at served
        · split at served
          · cases served
          · cases served
            cases next
            rfl
        · cases served
          cases next
          rfl
      have unknown : (r.stage.after ⟨.getLock timeout, answer⟩).inside = false := by
        simp only [RunStage.after, if_neg unlocked]
        split <;> rfl
      rw [idle]
      apply serialised.quiet here onward settled
      · intro inside
        rw [unknown] at inside
        cases inside
      · intro known _ knows
        have inside := known_inside knows
        rw [unknown] at inside
        cases inside
  | createTable =>
    have locked : r.stage = .locked := may
    have settled : r.stage.settled = true := by rw [locked]; rfl
    have unknown : (r.stage.after ⟨.createTable, answer⟩).known = none := by
      simp only [RunStage.after, locked]
      split <;> rfl
    have quiet : ∀ table, Serialised files { s with table, runners := s.runners.set i { r with
        stage := r.stage.after ⟨.createTable, answer⟩, job := left, sent := false } } := by
      intro table
      apply serialised.quiet here onward settled
      · intro _
        rw [locked]
        rfl
      · intro known _ knows
        rw [unknown] at knows
        cases knows
    simp only [serve] at served
    split at served
    · cases served
      cases next
      exact quiet true
    · cases served
      cases next
      exact quiet s.table
  | appliedSet =>
    have locked : r.stage = .locked := may
    have settled : r.stage.settled = true := by rw [locked]; rfl
    have inside : r.stage.inside = true := by rw [locked]; rfl
    simp only [serve] at served
    cases answer with
    | none =>
      cases served
      cases next
      apply serialised.quiet here onward settled (fun _ => inside)
      intro known _ knows
      cases knows
    | some applied =>
      dsimp only at served
      split at served
      · rename_i read
        cases served
        cases next
        apply serialised.quiet here onward settled (fun _ => inside)
        intro known _ knows file
        cases knows
        rw [read.2]
      · cases served
  | exec name =>
    obtain ⟨known, working, unknown, before⟩ := may
    have inside : r.stage.inside = true := by rw [working]; rfl
    have after : r.stage.after ⟨.exec name, answer⟩ = if answer = true then .executed known name else .over := by
      rw [working]
      rfl
    simp only [serve] at served
    split at served
    · rename_i ran
      cases served
      cases next
      have lasts : r.dead = false := alive (by
        rcases ran with ran | ran
        · left
          simp [refused, ran]
        · exact .inr ran)
      apply serialised.executes here onward working lasts unknown before
      · split <;> simp
      · intro pending
        split at pending
        · rename_i fine
          exact ⟨fine.2, by rw [after, if_pos fine.1]⟩
        · cases pending
      · rw [after]
        split
        · exact .inl rfl
        · exact .inr rfl
      · exact fun _ => inside
    · rename_i failed
      have answer' : answer = false := by simpa using fun ran => failed (.inl ran)
      cases served
      cases next
      apply serialised.quiet here onward (by rw [working]; rfl) (fun _ => inside)
      intro known' _ knows
      rw [after, answer'] at knows
      cases knows
  | record name =>
    obtain ⟨known, executed⟩ := may
    have after : r.stage.after ⟨.record name, answer⟩ = if answer = true then .working (name :: known) else .over := by
      rw [executed]
      rfl
    simp only [serve] at served
    split at served
    · rename_i ran
      have lasts : r.dead = false := alive (by
        rcases ran with ran | ran
        · left
          simp [refused, ran]
        · exact .inr ran)
      split at served
      · rename_i fresh
        cases served
        cases next
        apply serialised.records here onward executed lasts fresh.2
        · split <;> simp
        · rw [after]
          split
          · exact .inl rfl
          · exact .inr rfl
      · cases served
    · rename_i failed
      have answer' : answer = false := by simpa using fun ran => failed (.inl ran)
      cases served
      cases next
      have gone : r.stage.after ⟨.record name, answer⟩ = .over := by
        rw [after, answer']
        rfl
      apply serialised.interrupts here onward
      · intro _ inside
        dsimp only at inside
        rw [gone] at inside
        cases inside
      · intro known _ knows
        dsimp only at knows
        rw [gone] at knows
        cases knows
      · exact .inl rfl
  | releaseLock =>
    have settled : r.stage.settled = true := may
    simp only [serve] at served
    split at served
    · rename_i held
      cases served
      cases next
      apply serialised.relock here onward settled rfl _ (serialised.outside (.inr held.2))
      intro inside
      cases inside
    · cases served
      cases next
      apply serialised.quiet here onward settled
      · intro inside
        cases inside
      · intro known _ knows
        cases knows

theorem Serialised.start (serialised : s.Serialised files) (distinct : files.Nodup) :
    Serialised files { s with runners := s.runners ++ [{ job := run files }] } := by
  have cases_ : ∀ (j : Nat) (r : Runner), (s.runners ++ [{ job := run files }])[j]? = some r →
      s.runners[j]? = some r ∨ r = { job := run files } := by
    intro j r there
    rw [List.getElem?_append] at there
    split at there
    · exact .inl there
    · exact .inr (List.mem_singleton.mp (List.mem_of_getElem? there))
  constructor
  · intro j r there
    rcases cases_ j r there with old | rfl
    · exact serialised.follows j r old
    · exact run_follows distinct
  · intro j r there alive inside
    rcases cases_ j r there with old | rfl
    · exact serialised.holds j r old alive inside
    · cases inside
  · intro j r known there alive knows
    rcases cases_ j r there with old | rfl
    · exact serialised.knows j r known old alive knows
    · cases knows
  · exact serialised.unique
  · intro e member pending
    obtain ⟨r, known, there, rest⟩ := serialised.pending e member pending
    exact ⟨r, known, (List.getElem?_append_left (List.getElem?_eq_some_iff.mp there).1).trans there, rest⟩
  · exact serialised.recorded
  · exact serialised.ordered
  · exact serialised.once

theorem Serialised.next {move : MigrationMove} (serialised : s.Serialised files) (distinct : files.Nodup)
    (next : s.next files move = some s') : s'.Serialised files := by
  cases move with
  | start =>
    cases next
    exact serialised.start distinct
  | work i event effect => exact serialised.work next
  | crash i sent =>
    obtain ⟨r, here, next⟩ := Option.bind_eq_some_iff.mp next
    split at next
    · cases next
    · cases next
      apply serialised.interrupts here
      · exact serialised.follows i r here
      · exact serialised.holds i r here
      · intro known alive knows
        exact serialised.knows i r known here alive knows
      · exact .inl rfl
  | reap i =>
    obtain ⟨r, here, next⟩ := Option.bind_eq_some_iff.mp next
    cases next
    apply serialised.interrupts here
    · exact serialised.follows i r here
    · intro alive
      cases alive
    · intro known alive
      cases alive
    · by_cases own : s.holder = some i
      · exact .inr (serialised.outside (.inr own))
      · exact .inl (if_neg own)

end Server

/-- However many runners are started, wherever they crash: a file is recorded at most once, and it is
    executed only when all files before it are recorded, and again only when the runner that did so
    before failed or crashed ahead of recording it. -/
theorem migrations_serialised (files : List Name) (distinct : files.Nodup) (table : Bool) (recorded : List Name)
    (unique : recorded.Nodup) (s : Server)
    (reachable : Reachable (Server.next files) (fun _ _ => True) { table, recorded } s) :
    s.recorded.Nodup ∧
    (∀ e ∈ s.executions, ∀ file ∈ names files, file < e.file → file ∈ e.before) ∧
    s.executions.Pairwise fun e e' => e.file = e'.file → e.fate = .interrupted := by
  have serialised : s.Serialised files := by
    apply reachable.invariant (Server.Serialised files)
    · constructor
      · intro i r none
        cases none
      · intro i r none
        cases none
      · intro i r known none
        cases none
      · exact unique
      · intro e none
        cases none
      · intro e none
        cases none
      · intro e none
        cases none
      · exact List.Pairwise.nil
    · intro s move s' serialised _ next
      exact serialised.next distinct next
  exact ⟨serialised.unique, serialised.ordered, serialised.once⟩

section Sample

def usersFile : Name := "001_users.sql".toList
def relaysFile : Name := "002_relays.sql".toList

def twoFiles : List Name := [relaysFile, "README".toList, usersFile]

/-- The first runner crashes once it has executed the second file, the other one waits and goes on. -/
def crashAndResume : List MigrationMove :=
  [.start, .start, .work 0 ⟨.getLock 0, some (some true)⟩ true, .work 1 ⟨.getLock 0, some (some false)⟩ true,
    .work 0 ⟨.createTable, true⟩ true, .work 0 ⟨.appliedSet, some []⟩ true, .work 0 ⟨.exec usersFile, true⟩ true,
    .work 0 ⟨.record usersFile, true⟩ true, .work 0 ⟨.exec relaysFile, true⟩ true, .crash 0 false, .reap 0,
    .work 1 ⟨.getLock lockWait, some (some true)⟩ true, .work 1 ⟨.createTable, true⟩ true,
    .work 1 ⟨.appliedSet, some [usersFile]⟩ true, .work 1 ⟨.exec relaysFile, true⟩ true,
    .work 1 ⟨.record relaysFile, true⟩ true, .work 1 ⟨.releaseLock, true⟩ true]

theorem migrations_serialised_sample : ∃ s, play (Server.next twoFiles) (fun _ _ => true) {} crashAndResume = some s ∧
    s.recorded = [usersFile, relaysFile] ∧
    s.executions.map Execution.fate = [.recorded, .interrupted, .recorded] ∧
    s.executions.Pairwise fun e e' => e.file = e'.file → e.fate = .interrupted := by
  have held : (play (Server.next twoFiles) (fun _ _ => true) {} crashAndResume).any (fun s =>
      decide (s.recorded = [usersFile, relaysFile] ∧
        s.executions.map Execution.fate = [.recorded, .interrupted, .recorded])) = true := by decide
  obtain ⟨s, played, checked⟩ := (Option.any_eq_true _ _).mp held
  obtain ⟨recorded, fates⟩ := of_decide_eq_true checked
  have reachable : Reachable (Server.next twoFiles) (fun _ _ => True) { table := false, recorded := [] } s :=
    reachable_of_play (fun _ _ _ => trivial) crashAndResume played
  obtain ⟨_, _, once⟩ := migrations_serialised twoFiles (by decide) false [] List.nodup_nil s reachable
  exact ⟨s, played, recorded, fates, once⟩

end Sample

end Mailgw.Migrate
