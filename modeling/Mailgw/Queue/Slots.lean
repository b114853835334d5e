import Mailgw.Calls.Runs
import Mailgw.Queue.Runner

namespace Mailgw.Queue

open Calls

/-- The bounds of the worker pool. The runner replaces bounds that are not positive by 10 and 5. -/
structure Limits where
  pid : Fin (2 ^ 63)
  concurrency : Nat
  perGroup : Nat
  concurrency_pos : 0 < concurrency
  perGroup_pos : 0 < perGroup

def newLimits (pid : Fin (2 ^ 63)) (concurrency perGroup : Int) : Limits where
  pid
  concurrency := if concurrency ≤ 0 then 10 else concurrency.toNat
  perGroup := if perGroup ≤ 0 then 5 else perGroup.toNat
  concurrency_pos := by split <;> omega
  perGroup_pos := by split <;> omega

/-- A goroutine with a worker slot: the envelope it attempts and what is left of the attempt.
    `permit` is the relay group whose semaphore it has entered. -/
structure Worker where
  env : Envelope
  permit : Option Name := none
  job : Job Unit

inductive Drain where
  | asleep
  | listed (names : List Name)
  | claimed (inflight : Name) (env : Envelope) (names : List Name)
  | stopped

structure Scheduler where
  ready : List (Name × Envelope)
  drain : Drain := .asleep
  workers : List Worker := []
  cancelled : Bool := false

inductive Move where
  | arrive (name : Name) (env : Envelope)
  | list (names : List Name)
  | claim (fails : Bool)
  | dispatch
  | giveBack (due : Int)
  | work (worker : Nat) (answers : (request : Effect) → request.Answer)
  | finish (worker : Nat)
  | cancel

namespace Scheduler

def put (ready : List (Name × Envelope)) (name : Name) (env : Envelope) : List (Name × Envelope) :=
  (name, env) :: ready.filter (·.1 ≠ name)

def occupied (s : Scheduler) (group : Name) : Nat := s.workers.countP fun w => w.env.relayGrp = group

def permits (s : Scheduler) (group : Name) : Nat := s.workers.countP fun w => w.permit = some group

/-- A group's semaphore lets a worker in while it has room, and turns it away only at shutdown. -/
def mayAnswer (limits : Limits) (s : Scheduler) : (request : Effect) → request.Answer → Bool
  | .acquire group, entered => if entered then s.permits group < limits.perGroup else s.cancelled
  | _, _ => true

def permitAfter (permit : Option Name) : (request : Effect) → request.Answer → Option Name
  | .acquire group, true => some group
  | _, _ => permit

def readyAfter (ready : List (Name × Envelope)) : (request : Effect) → request.Answer → List (Name × Envelope)
  | .reschedule _ env due, none => put ready (readyName (Instant.ofNanos due) env.uuid) env
  | .enqueue env, none => put ready (readyName env.nextAt env.uuid) env
  | _, _ => ready

inductive Shifts (limits : Limits) (s : Scheduler) : List Worker → Prop where
  | stay : Shifts limits s s.workers
  | start (w : Worker) (room : s.workers.length < limits.concurrency) (outside : w.permit = none) :
      Shifts limits s (w :: s.workers)
  | go (i : Nat) (w w' : Worker) (at_ : s.workers[i]? = some w) (own : w'.env = w.env)
      (entry : w'.permit = w.permit ∨ ∃ group, w'.permit = some group ∧ s.permits group < limits.perGroup) :
      Shifts limits s (s.workers.set i w')
  | stop (i : Nat) : Shifts limits s (s.workers.eraseIdx i)

theorem permitAfter_cases (limits : Limits) (s : Scheduler) (permit : Option Name) (request : Effect)
    (answer : request.Answer) (may : mayAnswer limits s request answer = true) :
    permitAfter permit request answer = permit ∨
      ∃ group, permitAfter permit request answer = some group ∧ s.permits group < limits.perGroup := by
  cases request with
  | acquire group =>
    cases answer with
    | false => exact .inl rfl
    | true =>
      simp only [mayAnswer, ite_true, decide_eq_true_eq] at may
      exact .inr ⟨group, rfl, may⟩
  | _ => exact .inl rfl

theorem Shifts.slots {limits : Limits} {s : Scheduler} {workers : List Worker} (shift : Shifts limits s workers)
    (bound : s.workers.length ≤ limits.concurrency) : workers.length ≤ limits.concurrency := by
  cases shift with
  | stay => exact bound
  | start w room outside =>
    rw [List.length_cons]
    omega
  | go i w w' at_ own entry => rwa [List.length_set]
  | stop i => exact (List.length_eraseIdx_le _ _).trans bound

theorem Shifts.permits {limits : Limits} {s : Scheduler} {workers : List Worker} (shift : Shifts limits s workers)
    (group : Name) (bound : s.permits group ≤ limits.perGroup) :
    workers.countP (fun w => w.permit = some group) ≤ limits.perGroup := by
  cases shift with
  | stay => exact bound
  | start w room outside =>
    simp only [List.countP_cons, outside, reduceCtorEq, decide_false, Bool.false_eq_true, ite_false, Nat.add_zero]
    exact bound
  | go i w w' at_ own entry =>
    obtain ⟨inside, rfl⟩ := List.getElem?_eq_some_iff.mp at_
    rw [List.countP_set inside]
    have counted : (if s.workers[i].permit = some group then 1 else 0) ≤ s.permits group := by
      split
      · rename_i held
        exact List.countP_pos_iff.mpr ⟨_, List.getElem_mem inside, by simpa using held⟩
      · omega
    simp only [decide_eq_true_eq]
    simp only [Scheduler.permits] at bound counted entry
    rcases entry with same | ⟨entered, now, room⟩
    · rw [same]
      omega
    · rw [now]
      by_cases mine : entered = group
      · subst mine
        simp only [ite_true]
        omega
      · simp only [Option.some.injEq, mine, ite_false]
        omega
  | stop i => exact (List.Sublist.countP_le (List.eraseIdx_sublist _ _)).trans bound

section
variable [CaseFolding]

def next (cfg : RunnerConfig) (limits : Limits) (s : Scheduler) : Move → Option Scheduler
  | .arrive name env => some { s with ready := put s.ready name env }
  | .list names =>
    match s.drain with
    | .asleep => some { s with drain := .listed names }
    | _ => none
  | .claim fails =>
    match s.drain with
    | .listed [] => some { s with drain := if s.cancelled then .stopped else .asleep }
    | .listed (name :: names) =>
      if s.cancelled then some { s with drain := .stopped }
      else
        match s.ready.lookup name with
        | some env =>
          if fails then some { s with drain := .listed names }
          else some { s with drain := .claimed (claimName limits.pid name) env names, ready := s.ready.filter (·.1 ≠ name) }
        | none => some { s with drain := .listed names }
    | _ => none
  | .dispatch =>
    match s.drain with
    | .claimed inflight env names =>
      if s.workers.length < limits.concurrency then
        some { s with
          drain := .listed names
          workers := { env, job := attempt cfg inflight env } :: s.workers }
      else none
    | _ => none
  | .giveBack due =>
    match s.drain with
    | .claimed _ env _ =>
      if s.cancelled then
        some { s with drain := .stopped, ready := put s.ready (readyName (Instant.ofNanos due) env.uuid) env }
      else none
    | _ => none
  | .work i answers =>
    match s.workers[i]? with
    | some { env, permit, job := .call request rest } =>
      if mayAnswer limits s request (answers request) then
        some { s with
          ready := readyAfter s.ready request (answers request)
          workers := s.workers.set i {
            env
            permit := permitAfter permit request (answers request)
            job := rest (answers request) } }
      else none
    | _ => none
  | .finish i =>
    match s.workers[i]? with
    | some { job := .done _, .. } => some { s with workers := s.workers.eraseIdx i }
    | _ => none
  | .cancel => some { s with cancelled := true }

abbrev Runs (cfg : RunnerConfig) (limits : Limits) (ready : List (Name × Envelope)) : Scheduler → Prop :=
  Reachable (next cfg limits) (fun _ _ => True) { ready }

theorem next_shifts {cfg : RunnerConfig} {limits : Limits} {s s' : Scheduler} {move : Move}
    (step : next cfg limits s move = some s') : Shifts limits s s'.workers := by
  cases move with
  | arrive name env =>
    cases step
    exact .stay
  | list names =>
    simp only [next] at step
    split at step
    · cases step
      exact .stay
    · cases step
  | claim fails =>
    simp only [next] at step
    split at step
    · cases step
      exact .stay
    · split at step
      · cases step
        exact .stay
      · split at step
        · split at step <;> cases step <;> exact .stay
        · cases step
          exact .stay
    · cases step
  | dispatch =>
    simp only [next] at step
    split at step
    · split at step
      · rename_i room
        cases step
        exact .start _ room rfl
      · cases step
    · cases step
  | giveBack due =>
    simp only [next] at step
    split at step
    · split at step
      · cases step
        exact .stay
      · cases step
    · cases step
  | work i answers =>
    simp only [next] at step
    split at step
    · rename_i env permit request rest found
      split at step
      · rename_i may
        cases step
        exact .go i _ _ found rfl (permitAfter_cases limits s permit request _ may)
      · cases step
    · cases step
  | finish i =>
    simp only [next] at step
    split at step
    · cases step
      exact .stop i
    · cases step
  | cancel =>
    cases step
    exact .stay

variable {cfg : RunnerConfig} {limits : Limits} {ready : List (Name × Envelope)}

theorem slots_le {s : Scheduler} (run : Runs cfg limits ready s) : s.workers.length ≤ limits.concurrency :=
  run.invariant (fun s => s.workers.length ≤ limits.concurrency) (Nat.zero_le _)
    fun _ _ _ bound _ step => (next_shifts step).slots bound

theorem permits_le {s : Scheduler} (run : Runs cfg limits ready s) (group : Name) :
    s.permits group ≤ limits.perGroup :=
  run.invariant (fun s => s.permits group ≤ limits.perGroup) (Nat.zero_le _)
    fun _ _ _ bound _ step => (next_shifts step).permits group bound

theorem occupied_le {s : Scheduler} (run : Runs cfg limits ready s) (group : Name) :
    s.occupied group ≤ limits.concurrency :=
  List.countP_le_length.trans (slots_le run)

/-- At no time do the envelopes of one relay group occupy more than `perGroup` slots. -/
def Fair (cfg : RunnerConfig) (limits : Limits) (ready : List (Name × Envelope)) : Prop :=
  ∀ s, Runs cfg limits ready s → ∀ group, s.occupied group ≤ limits.perGroup

/-- One more envelope arrives, is claimed and gets a slot, whatever its group is doing. -/
theorem occupy {s : Scheduler} (run : Runs cfg limits ready s) (asleep : s.drain = .asleep)
    (live : s.cancelled = false) (room : s.workers.length < limits.concurrency) (env : Envelope) :
    ∃ s', Runs cfg limits ready s' ∧ s'.drain = .asleep ∧ s'.cancelled = false ∧
      s'.workers.length = s.workers.length + 1 ∧ s'.occupied env.relayGrp = s.occupied env.relayGrp + 1 := by
  let arrived : Scheduler := { s with ready := put s.ready [] env }
  let claimed : Scheduler := {
    s with ready := arrived.ready.filter (·.1 ≠ []), drain := .claimed (claimName limits.pid []) env [] }
  let started : Scheduler := {
    claimed with drain := .asleep, workers := { env, job := attempt cfg (claimName limits.pid []) env } :: s.workers }
  have first : next cfg limits s (.arrive [] env) = some arrived := rfl
  have second : next cfg limits arrived (.list [[]]) = some { arrived with drain := .listed [[]] } := by
    simp only [next, arrived, asleep]
  have third : next cfg limits { arrived with drain := .listed [[]] } (.claim false) = some claimed := by
    simp only [next, arrived, claimed, live, put, List.lookup_cons, beq_self_eq_true, Bool.false_eq_true, ite_false]
  have fourth : next cfg limits claimed .dispatch = some { started with drain := .listed [] } := by
    simp only [next, claimed, started, room, ite_true]
  have last : next cfg limits { started with drain := .listed [] } (.claim false) = some started := by
    simp only [next, started, claimed, live, Bool.false_eq_true, ite_false]
  have reached : Runs cfg limits ready started :=
    ((((run.step trivial first).step trivial second).step trivial third).step trivial fourth).step trivial last
  refine ⟨started, reached, rfl, live, rfl, ?_⟩
  simp [occupied, started]

theorem fill (env : Envelope) {count : Nat} (fits : count ≤ limits.concurrency) :
    ∃ s, Runs cfg limits ready s ∧ s.drain = .asleep ∧ s.cancelled = false ∧ s.workers.length = count ∧
      s.occupied env.relayGrp = count := by
  induction count with
  | zero => exact ⟨_, .start, rfl, rfl, rfl, rfl⟩
  | succ count ih =>
    obtain ⟨s, run, asleep, live, length, own⟩ := ih (by omega)
    obtain ⟨s', run', asleep', live', length', own'⟩ := occupy run asleep live (by omega) env
    exact ⟨s', run', asleep', live', by omega, by omega⟩

/-- A worker waits for its group inside a slot, so only a pool no larger than the share of one
    group keeps the group to its share. -/
theorem fair_iff (cfg : RunnerConfig) (limits : Limits) (ready : List (Name × Envelope)) :
    Fair cfg limits ready ↔ limits.concurrency ≤ limits.perGroup := by
  constructor
  · intro fair
    by_contra larger
    have fits : limits.perGroup + 1 ≤ limits.concurrency := by omega
    let env : Envelope := { uuid := [], txnUUID := [], connUUID := [], body := [], rcpts := [], relayGrp := [] }
    obtain ⟨s, run, -, -, -, own⟩ : ∃ s, Runs cfg limits ready s ∧ _ := fill env fits
    have bound := fair s run env.relayGrp
    omega
  · intro small s run group
    exact (occupied_le run group).trans small

end

section Sample

local instance : CaseFolding := ⟨Char.toLower⟩

def slowMail : Envelope where
  uuid := "a.1".toList
  txnUUID := "a".toList
  connUUID := "c".toList
  body := "a.eml".toList
  rcpts := [{ addr := "bob@example.com".toList }]
  relayGrp := "slow".toList

def plainRunner : RunnerConfig := { backoff := fun _ => 60000000000 }

def oneMore : List Move :=
  [.arrive "000000000000.a.1.json".toList slowMail, .list ["000000000000.a.1.json".toList],
    .claim false, .dispatch, .claim false]

def sixOfTen : List Move := (List.replicate 6 oneMore).flatten

/-- With the shipped bounds six of the ten slots go to one group. -/
theorem six_slots_for_one_group : ¬ Fair plainRunner (newLimits 4711 10 5) [] := by
  intro fair
  have played : (play (next plainRunner (newLimits 4711 10 5)) (fun _ _ => true) { ready := [] } sixOfTen).map
      (fun s => s.occupied "slow".toList) = some 6 := by decide
  obtain ⟨s, reached, own⟩ := Option.map_eq_some_iff.mp played
  have run : Runs plainRunner (newLimits 4711 10 5) [] s := reachable_of_play (fun _ _ _ => trivial) sixOfTen reached
  have bound : s.occupied "slow".toList ≤ 5 := fair s run _
  omega

end Sample

end Scheduler

end Mailgw.Queue
