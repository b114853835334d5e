import Mathlib.Data.Char
import Mathlib.Data.List.Lex
import Mathlib.Data.List.Sort
import Mailgw.Calls.Runs
import Mailgw.Calls.Stages
import Mailgw.Lists.Replace
import Mailgw.Queue.Names

namespace Mailgw.Migrate

open Calls Queue

inductive MigrationCall where
  | getLock (timeout : Nat)
  | createTable
  | appliedSet
  | exec (name : Name)
  | record (name : Name)
  | releaseLock
  deriving DecidableEq

/-- The answers. There is none when a statement fails; `GET_LOCK` may also answer `NULL`. -/
abbrev MigrationCall.Answer : MigrationCall → Type
  | .getLock _ => Option (Option Bool)
  | .appliedSet => Option (List Name)
  | .createTable | .exec _ | .record _ | .releaseLock => Bool

abbrev MigrationJob := Prog MigrationCall MigrationCall.Answer

abbrev Statement := Σ call : MigrationCall, call.Answer

def names (files : List Name) : List Name :=
  (files.filter fun file => ".sql".toList.isSuffixOf file).insertionSort fun a b => a ≤ b

def lockWait : Nat := 120

inductive RunError where
  | acquire | null | timedOut | createTable | readApplied
  | failed (name : Name)
  | unrecorded (name : Name)
  deriving DecidableEq

def getLock (timeout : Nat) : MigrationJob (Except RunError Bool) := do
  match ← Prog.ask (MigrationCall.getLock timeout) with
  | none => return .error .acquire
  | some none => return .error .null
  | some (some got) => return .ok got

def lock : MigrationJob (Except RunError Unit) := do
  match ← getLock 0 with
  | .error err => return .error err
  | .ok true => return .ok ()
  | .ok false =>
    match ← getLock lockWait with
    | .error err => return .error err
    | .ok true => return .ok ()
    | .ok false => return .error .timedOut

def applyAll (applied : List Name) (count : Nat) : List Name → MigrationJob (Except RunError Nat)
  | [] => return .ok count
  | name :: rest =>
    if name ∈ applied then applyAll applied count rest
    else do
      let executed : Bool ← Prog.ask (MigrationCall.exec name)
      if !executed then return .error (.failed name)
      else
        let recorded : Bool ← Prog.ask (MigrationCall.record name)
        if !recorded then return .error (.unrecorded name)
        else applyAll applied (count + 1) rest

def migrate (files : List Name) : MigrationJob (Except RunError Nat) := do
  let created : Bool ← Prog.ask MigrationCall.createTable
  if !created then return .error .createTable
  else
    match ← Prog.ask MigrationCall.appliedSet with
    | none => return .error .readApplied
    | some applied => applyAll applied 0 (names files)

/-- Applies every migration the database has not recorded, in order, under the lock. -/
def run (files : List Name) : MigrationJob (Except RunError Nat) := do
  match ← lock with
  | .error err => return .error err
  | .ok () =>
    let result ← migrate files
    let _ : Bool ← Prog.ask MigrationCall.releaseLock
    return result

inductive RunStage where
  | locking
  | locked
  | working (known : List Name)
  | executed (known : List Name) (name : Name)
  | over
  deriving DecidableEq

def RunStage.after : Statement → RunStage → RunStage
  | ⟨.getLock _, got⟩, _ => if got = some (some true) then .locked else if got = some (some false) then .locking else .over
  | ⟨.createTable, created⟩, stage => if created = true then stage else .over
  | ⟨.appliedSet, applied⟩, _ =>
    match (applied : Option (List Name)) with
    | none => .over
    | some applied => .working applied
  | ⟨.exec name, ran⟩, .working known => if ran = true then .executed known name else .over
  | ⟨.record _, recorded⟩, .executed known name => if recorded = true then .working (name :: known) else .over
  | _, _ => .over

/-- A runner on a connection of its own. A process that has crashed does nothing more, but a statement
    it had sent may still be carried out while its session lasts. -/
structure Runner where
  stage : RunStage := .locking
  job : MigrationJob (Except RunError Nat)
  crashed : Bool := false
  sent : Bool := false
  dead : Bool := false

inductive Fate where
  | pending | recorded | interrupted
  deriving DecidableEq

structure Execution where
  runner : Nat
  file : Name
  before : List Name
  fate : Fate
  deriving DecidableEq

/-- The server, and all that ever ran a migration on it. `executions` only records, the latest one last. -/
structure Server where
  table : Bool := false
  recorded : List Name := []
  holder : Option Nat := none
  runners : List Runner := []
  executions : List Execution := []

inductive MigrationMove where
  | start
  | work (i : Nat) (event : Statement) (effect : Bool)
  | crash (i : Nat) (sent : Bool)
  | reap (i : Nat)

namespace Server

def settle (s : Server) (i : Nat) (fate : Fate) : Server :=
  { s with executions := s.executions.map fun e => if e.runner = i ∧ e.fate = .pending then { e with fate } else e }

def serve (s : Server) (i : Nat) (crashed effect : Bool) : Statement → Option Server
  | ⟨.getLock _, got⟩ =>
    if got = some (some true) ∨ (got = none ∧ effect = true) then
      if s.holder = none ∨ s.holder = some i then some { s with holder := some i } else none
    else if got = some (some false) then if s.holder = none ∨ s.holder = some i then none else some s
    else some s
  | ⟨.createTable, created⟩ => if created = true ∨ effect = true then some { s with table := true } else some s
  | ⟨.appliedSet, applied⟩ =>
    match (applied : Option (List Name)) with
    | none => some s
    | some applied => if s.table = true ∧ applied = s.recorded then some s else none
  | ⟨.exec name, executed⟩ =>
    if executed = true ∨ effect = true then
      let fate := if executed = true ∧ crashed = false then Fate.pending else .interrupted
      some { s with executions := s.executions ++ [⟨i, name, s.recorded, fate⟩] }
    else some s
  | ⟨.record name, recorded⟩ =>
    if recorded = true ∨ effect = true then
      if s.table = true ∧ name ∉ s.recorded then
        some ({ s with recorded := s.recorded ++ [name] }.settle i (if recorded = true then .recorded else .interrupted))
      else none
    else some (s.settle i .interrupted)
  | ⟨.releaseLock, released⟩ =>
    if (released = true ∨ effect = true) ∧ s.holder = some i then some { s with holder := none } else some s

def refused : Statement → Bool
  | ⟨.getLock _, got⟩ => got = none
  | ⟨.appliedSet, applied⟩ => applied = none
  | ⟨.createTable, done⟩ | ⟨.exec _, done⟩ | ⟨.record _, done⟩ | ⟨.releaseLock, done⟩ => done = false

def next (files : List Name) (s : Server) : MigrationMove → Option Server
  | .start => some { s with runners := s.runners ++ [{ job := run files }] }
  | .work i event effect => do
    let r ← s.runners[i]?
    if (r.crashed = true ∧ r.sent = false) ∨ (r.dead = true ∧ (refused event = false ∨ effect = true)) then none
    else
      let left ← r.job.step event
      let s ← s.serve i r.crashed effect event
      some { s with runners := s.runners.set i { r with stage := r.stage.after event, job := left, sent := false } }
  | .crash i sent => do
    let r ← s.runners[i]?
    if r.crashed = true then none
    else some ({ s with runners := s.runners.set i { r with crashed := true, sent } }.settle i .interrupted)
  | .reap i => do
    let r ← s.runners[i]?
    some ({ s with
      runners := s.runners.set i { r with dead := true }
      holder := if s.holder = some i then none else s.holder }.settle i .interrupted)

end Server

end Mailgw.Migrate
