import Mailgw.Queue.Orderly

namespace Mailgw.Queue

open Calls Disk Spool

def Cfg.emptySpool : Cfg where
  disk := Disk.empty
  threads := fun _ => .idle
  phase := .running
  pid := 1
  maxLifetime := 0
  owner := fun _ => none
  issued := []
  log := []

theorem AtRest.emptySpool : AtRest Cfg.emptySpool where
  consistent := {
    named := fun _ _ _ _ got => by cases got
    oneBody := fun _ _ _ member => by cases member
    bodies := fun _ _ _ _ holds => by cases holds
    owned := fun _ _ owned => by cases owned }
  idle _ := rfl
  sole _ := fun _ _ _ _ _ _ _ _ holds => by cases holds

def Decision.thread? : Decision → Option Nat
  | .begin t _ _ | .step t _ | .abort t => some t
  | .crash _ => none

theorem idle_of_other {cfg cfg' : Cfg} {d : Decision} (move : cfg.next d = some cfg') {t : Nat}
    (other : d.thread? ≠ some t) (idle : cfg.threads t = .idle) : cfg'.threads t = .idle := by
  rw [← idle]
  cases d with
  | begin t₀ op clock =>
    simp only [Cfg.next] at move
    split at move
    · cases move
      exact Function.update_of_ne (fun same => other (congrArg some same.symm)) _ _
    · cases move
  | step t₀ choice =>
    simp only [Cfg.next] at move
    split at move
    · cases move
      exact Function.update_of_ne (fun same => other (congrArg some same.symm)) _ _
    · cases move
  | crash pid =>
    cases move
    simp only [idle]
    rfl
  | abort t₀ =>
    simp only [Cfg.next] at move
    split at move
    · split at move
      · cases move
        exact Function.update_of_ne (fun same => other (congrArg some same.symm)) _ _
      · cases move
    · cases move

def Decision.below (n : Nat) (d : Decision) : Bool := d.thread?.all fun t => t < n

theorem idle_of_below {start cfg : Cfg} {ok : Cfg → Decision → Prop} (n : Nat) (rest : AtRest start)
    (few : ∀ cfg d, ok cfg d → d.below n = true) (run : Reachable Cfg.next ok start cfg) {t : Nat} (high : n ≤ t) :
    cfg.threads t = .idle := by
  refine run.invariant (fun cfg => cfg.threads t = .idle) (rest.idle t) fun s d s' idle allowed move => ?_
  refine idle_of_other move (fun same => ?_) idle
  have bound := few s d allowed
  rw [Decision.below, same] at bound
  simp at bound
  omega

theorem run_of_single {start cfg : Cfg} {allowed ok : Cfg → Decision → Prop} (t : Nat)
    (rest : ∀ t', start.threads t' = .idle) (only : ∀ cfg d t', allowed cfg d → d.thread? = some t' → t' = t)
    (weaker : ∀ cfg d cfg', allowed cfg d → (∀ t', t' ≠ t → cfg.threads t' = .idle) → cfg.next d = some cfg' → ok cfg d)
    (run : Reachable Cfg.next allowed start cfg) : Reachable Cfg.next ok start cfg := by
  suffices both : Reachable Cfg.next ok start cfg ∧ ∀ t', t' ≠ t → cfg.threads t' = .idle from both.1
  induction run with
  | start => exact ⟨.start, fun t' _ => rest t'⟩
  | step _ permitted move ih =>
    refine ⟨.step ih.1 (weaker _ _ _ permitted ih.2 move) move, fun t' other => ?_⟩
    apply idle_of_other move _ (ih.2 t' other)
    exact fun same => other (only _ _ _ permitted same)

/-- A run in which only the first threads work meets what such threads cannot break. -/
theorem run_of_few {start cfg : Cfg} {allowed ok : Cfg → Decision → Prop} (n : Nat) (rest : AtRest start)
    (few : ∀ cfg d, allowed cfg d → d.below n = true)
    (weaker : ∀ cfg d, allowed cfg d → (∀ t, n ≤ t → cfg.threads t = .idle) → ok cfg d)
    (run : Reachable Cfg.next allowed start cfg) : Reachable Cfg.next ok start cfg := by
  induction run with
  | start => exact .start
  | step before permitted move ih =>
    exact .step ih (weaker _ _ permitted fun t high => idle_of_below n rest few before high) move

instance : (op : Op) → (body : Name) → Decidable (op.refills body)
  | .data txnUUID _ _, body => inferInstanceAs (Decidable (Op.bodyName txnUUID = body))
  | .reschedule _ e _, body => inferInstanceAs (Decidable (e.body = body))
  | .release uuid, body => inferInstanceAs (Decidable (bodyOwnedBy body uuid = true))
  | .enqueue _, _ | .quarantine _, _ | .claim _, _ | .complete _ _, _ | .bury _ _, _ | .flush _, _ | .hold _, _
  | .remove _, _ | .recover, _ => inferInstanceAs (Decidable False)

def Op.spares (op other : Op) : Bool :=
  (!op.duplicates || op.uuid?.all fun uuid => decide (other.uuid? ≠ some uuid)) &&
  match op with
  | .complete _ e | .bury _ e => !decide (other.refills e.body)
  | .remove _ => false
  | _ => true

theorem Op.undisturbed_of_spares {op other : Op} (spares : op.spares other = true) : Undisturbed op other := by
  obtain ⟨apart, settled⟩ := Bool.and_eq_true_iff.mp spares
  constructor
  · intro duplicates uuid same
    simpa [duplicates, same] using apart
  · intro body collects
    cases op with
    | complete inflightName e =>
      obtain rfl : e.body = body := collects
      simpa using settled
    | bury inflightName e =>
      obtain rfl : e.body = body := collects
      simpa using settled
    | remove uuid => cases settled
    | _ => exact collects.elim

def Thread.spared (op : Op) : Thread → Bool
  | .busy op' _ => op.spares op' && op'.spares op
  | _ => true

def orderlyBelow (n : Nat) (cfg : Cfg) : Decision → Bool
  | .begin t op _ => decide (t < n) && op.spooled && (op == .recover || cfg.phase == .running) &&
    (List.range n).all fun t' => (cfg.threads t').spared op
  | .step t choice => decide (t < n) && !choice.fails
  | .crash _ => (List.range n).all fun t => !(cfg.threads t matches .busy _ _)
  | .abort _ => false

theorem below_of_orderlyBelow {n : Nat} {cfg : Cfg} {d : Decision} (checked : orderlyBelow n cfg d = true) :
    d.below n = true := by
  cases d <;> simp_all [orderlyBelow, Decision.below, Decision.thread?]

theorem orderly_of_below {n : Nat} {cfg : Cfg} {d : Decision} (checked : orderlyBelow n cfg d = true)
    (idle : ∀ t, n ≤ t → cfg.threads t = .idle) : Orderly cfg d := by
  have low : ∀ {t op rest}, cfg.threads t = .busy op rest → t < n := by
    intro t op rest busy
    by_contra high
    rw [idle t (by omega)] at busy
    cases busy
  cases d with
  | begin t op clock =>
    obtain ⟨⟨⟨-, spooled⟩, phase⟩, spared⟩ : ((t < n ∧ op.spooled = true) ∧ (op = .recover ∨ cfg.phase = .running)) ∧
        ∀ t' < n, (cfg.threads t').spared op = true := by
      simpa [orderlyBelow] using checked
    refine ⟨spooled, phase.resolve_left, fun t' op' rest busy => ?_⟩
    have both := spared t' (low busy)
    rw [busy] at both
    obtain ⟨mine, yours⟩ := Bool.and_eq_true_iff.mp both
    exact ⟨Op.undisturbed_of_spares mine, Op.undisturbed_of_spares yours⟩
  | step t choice =>
    obtain ⟨-, calm⟩ : t < n ∧ choice.fails = false := by simpa [orderlyBelow] using checked
    exact calm
  | crash pid =>
    intro t op rest busy
    have free : ∀ t < n, ¬ (cfg.threads t matches .busy _ _) := by simpa [orderlyBelow] using checked
    exact absurd (by simp [busy]) (free t (low busy))
  | abort t => cases checked

theorem orderly_run_of_below {start cfg : Cfg} (n : Nat) {allowed ok : Cfg → Decision → Prop} (rest : AtRest start)
    (checked : ∀ cfg d, allowed cfg d → orderlyBelow n cfg d = true)
    (weaker : ∀ cfg d, allowed cfg d → Orderly cfg d → ok cfg d)
    (run : Reachable Cfg.next allowed start cfg) : Reachable Cfg.next ok start cfg :=
  run_of_few n rest (fun cfg d permitted => below_of_orderlyBelow (checked cfg d permitted))
    (fun cfg d permitted idle => weaker cfg d permitted (orderly_of_below (checked cfg d permitted) idle)) run

/-- No operation is in progress and the gateway has recovered. Workers may have envelopes in hand. -/
def Cfg.Quiet (cfg : Cfg) : Prop := cfg.phase = .running ∧ ∀ t op rest, cfg.threads t ≠ .busy op rest

def Cfg.quietBelow (n : Nat) (cfg : Cfg) : Bool :=
  cfg.phase == .running && (List.range n).all fun t => !(cfg.threads t matches .busy _ _)

theorem Cfg.quiet_of_below {cfg : Cfg} {n : Nat} (high : ∀ t, n ≤ t → cfg.threads t = .idle)
    (quiet : cfg.quietBelow n = true) : cfg.Quiet := by
  obtain ⟨running, free⟩ : cfg.phase = .running ∧ ∀ t < n, ¬ (cfg.threads t matches .busy _ _) := by
    simpa [Cfg.quietBelow] using quiet
  refine ⟨running, fun t op rest busy => ?_⟩
  by_cases low : t < n
  · exact free t low (by simp [busy])
  · rw [high t (by omega)] at busy
    cases busy

def Delivery : Decision → Prop
  | .begin _ op _ => match op with
    | .data _ _ _ | .claim _ | .complete _ _ | .reschedule _ _ _ | .bury _ _ => True
    | _ => False
  | .step _ choice => choice.fails = false
  | _ => False

def Decision.delivers : Decision → Bool
  | .begin _ op _ => match op with
    | .data _ _ _ | .claim _ | .complete _ _ | .reschedule _ _ _ | .bury _ _ => true
    | _ => false
  | .step _ choice => !choice.fails
  | _ => false

theorem delivers_iff (d : Decision) : d.delivers = true ↔ Delivery d := by
  cases d with
  | begin t op clock => cases op <;> simp [Decision.delivers, Delivery]
  | step t choice => simp [Decision.delivers, Delivery]
  | _ => simp [Decision.delivers, Delivery]

instance (d : Decision) : Decidable (Delivery d) := decidable_of_iff _ (delivers_iff d)

/-- Whoever begins an operation may overlap with everybody at work. -/
def Sheltered (cfg : Cfg) : Decision → Prop
  | .begin _ op _ => ∀ t' op' rest, cfg.threads t' = .busy op' rest → Undisturbed op op' ∧ Undisturbed op' op
  | _ => True

/-- An envelope that references the body is on disk, or its session is still at work on it. -/
def Cfg.Needs (cfg : Cfg) (body : Name) : Prop :=
  (∃ dir ∈ bodyDirs, ∃ name e, cfg.disk.Holds dir name e ∧ e.body = body) ∨
    ∃ t txnUUID bytes parts rest, cfg.threads t = .busy (.data txnUUID bytes parts) rest ∧
      Op.bodyName txnUUID = body

theorem running_of_delivery {cfg cfg' : Cfg} {d : Decision} (running : cfg.phase = .running) (delivery : Delivery d)
    (move : cfg.next d = some cfg') (inv : Inv cfg) : cfg'.phase = .running := by
  cases d with
  | begin t op clock =>
    have other : op ≠ .recover := by
      rintro rfl
      exact delivery
    simp only [Cfg.next] at move
    split at move
    · cases move
      exact (Inv.phaseAfter_other other).trans running
    · cases move
  | step t choice =>
    simp only [Cfg.next] at move
    split at move
    · rename_i op c next thread
      cases move
      obtain ⟨-, recovering, -⟩ | ⟨other, -⟩ := (inv.busy thread).2
      · rw [running] at recovering
        cases recovering
      · exact (Inv.phaseAfter_other other).trans running
    · cases move
  | _ => exact delivery.elim

theorem orderly_of_delivery {cfg : Cfg} {d : Decision} (running : cfg.phase = .running) (delivery : Delivery d)
    (sheltered : Sheltered cfg d) : Orderly cfg d := by
  cases d with
  | begin t op clock =>
    refine ⟨?_, fun _ => running, sheltered⟩
    cases op <;> first | rfl | exact delivery.elim
  | step t choice => exact delivery
  | _ => exact delivery.elim

theorem inv_of_delivery {start cfg : Cfg} (rest : AtRest start) (running : start.phase = .running)
    (run : Reachable Cfg.next (fun cfg d => Delivery d ∧ Sheltered cfg d) start cfg) :
    Inv cfg ∧ cfg.phase = .running := by
  refine run.invariant (fun cfg => Inv cfg ∧ cfg.phase = .running) ⟨rest.inv, running⟩ ?_
  rintro cfg d cfg' ⟨inv, running⟩ ⟨delivery, sheltered⟩ move
  exact ⟨inv.step _ _ _ (orderly_of_delivery running delivery sheltered) move,
    running_of_delivery running delivery move inv⟩

/-- One step of a thread deletes no body that is still needed. -/
theorem Inv.body_kept {cfg : Cfg} (inv : Inv cfg) {t : Nat} {op : Op} {c : FsCall}
    {next : c.Answer → Fs (Option (Name × Envelope))} {choice : Choice} (running : cfg.phase = .running)
    (thread : cfg.threads t = .busy op (.call c next)) (calm : choice.fails = false) {body : Name}
    (needed : cfg.Needs body) (present : (cfg.disk.get .data body).isSome) :
    ((exec choice cfg.disk c).2.get .data body).isSome := by
  obtain ⟨-, recovering, -⟩ | ⟨-, -, -, sat⟩ := (inv.busy thread).2
  · rw [running] at recovering
    cases recovering
  have guar := (sat.answer (Inv.worldStep_stepped cfg t op c next calm)).1
  rcases needed with ⟨dir, live, name, e, holds, rfl⟩ | ⟨t', txnUUID, bytes, parts, rest, busy, rfl⟩
  · exact guar.needed dir name e live holds
  · refine guar.bodies _ (fun collects => ?_) present
    by_cases same : t = t'
    · subst same
      rw [thread] at busy
      cases busy
      exact collects
    · exact (inv.undisturbed _ _ _ _ _ _ same thread busy).settled _ collects rfl

/-- In a run whose operations overlap only with operations they may overlap with, no step deletes
    a body that an envelope on disk or a session at work still needs, and every envelope in a
    worker's hands can open its body. -/
theorem needed_body_kept {start cfg cfg' : Cfg} {d : Decision} (rest : AtRest start)
    (running : start.phase = .running)
    (run : Reachable Cfg.next (fun cfg d => Delivery d ∧ Sheltered cfg d) start cfg)
    (delivery : Delivery d) (sheltered : Sheltered cfg d) (move : cfg.next d = some cfg') :
    (∀ body, cfg.Needs body → (cfg.disk.get .data body).isSome → (cfg'.disk.get .data body).isSome) ∧
      ∀ t inflightName e, cfg'.threads t = .holding inflightName e → (cfg'.disk.get .data e.body).isSome := by
  obtain ⟨inv, running⟩ := inv_of_delivery rest running run
  have inv' := inv.step _ _ _ (orderly_of_delivery running delivery sheltered) move
  refine ⟨fun body needed present => ?_, fun t inflightName e thread => ?_⟩
  · cases d with
    | begin t op clock =>
      simp only [Cfg.next] at move
      split at move
      · cases move
        exact present
      · cases move
    | step t choice =>
      simp only [Cfg.next] at move
      split at move
      · rename_i op c next thread
        cases move
        exact inv.body_kept running thread delivery needed present
      · cases move
    | _ => exact delivery.elim
  · obtain ⟨-, -, holds⟩ := inv'.holding thread
    exact Option.isSome_iff_exists.mpr (inv'.consistent.bodies .inflight inflightName e (by decide) holds)

section Sample

def sampleTxn : Name := "A0.1".toList

theorem pid_zero_lt : 0 < 2 ^ 63 := by decide

def samplePid (n : Nat) : Fin (2 ^ 63) := ⟨n % 2 ^ 63, Nat.mod_lt n pid_zero_lt⟩

def sampleClock : Instant := ⟨9000, by decide⟩

def sampleEnvelope (n : Name) : Envelope where
  uuid := sampleTxn ++ '.' :: n
  txnUUID := sampleTxn
  connUUID := "A0".toList
  body := Op.bodyName sampleTxn
  rcpts := [{ addr := "rcpt@example.com".toList }]
  relayGrp := "default".toList
  nextAt := sampleClock

def sampleName (n : Name) : Name := readyName sampleClock (sampleTxn ++ '.' :: n)

def sampleDone (n : Name) : Envelope :=
  { sampleEnvelope n with rcpts := [{ addr := "rcpt@example.com".toList, status := .delivered }], attempts := 1 }

def sampleData : Op := .data sampleTxn [] [(false, sampleEnvelope ['1']), (false, sampleEnvelope ['2'])]

def steps (t n : Nat) : List Decision := List.replicate n (.step t ⟨sampleClock, false⟩)

end Sample

def Thread.isHolding (body : Name) : Thread → Bool
  | .holding _ e => decide (e.body = body)
  | _ => false

theorem Thread.of_isHolding {body : Name} {thread : Thread} (holds : thread.isHolding body = true) :
    ∃ inflightName e, thread = .holding inflightName e ∧ e.body = body := by
  cases thread with
  | holding inflightName e => exact ⟨inflightName, e, rfl, of_decide_eq_true holds⟩
  | _ => cases holds

def Thread.isBusyWith (op : Op) : Thread → Bool
  | .busy op' _ => decide (op' = op)
  | _ => false

theorem Thread.of_isBusyWith {op : Op} {thread : Thread} (works : thread.isBusyWith op = true) :
    ∃ rest, thread = .busy op rest := by
  cases thread with
  | busy op' rest =>
    obtain rfl := of_decide_eq_true works
    exact ⟨rest, rfl⟩
  | _ => cases works

theorem sheltered_of_orderly {cfg : Cfg} {d : Decision} (orderly : Orderly cfg d) : Sheltered cfg d := by
  cases d with
  | begin t op clock => exact orderly.2.2
  | _ => trivial

def lateTxn : Name := "A0.2".toList

def lateEnvelope (n : Name) : Envelope :=
  { sampleEnvelope n with uuid := lateTxn ++ '.' :: n, txnUUID := lateTxn, body := Op.bodyName lateTxn }

def lateName (n : Name) : Name := readyName sampleClock (lateTxn ++ '.' :: n)

def lateData : Op := .data lateTxn [] [(false, lateEnvelope ['1']), (false, lateEnvelope ['2'])]

/-- A worker finishes one transaction while the session of the next one is at work and another worker
    takes its first envelope. -/
def sharedRun : List Decision :=
  .begin 0 sampleData sampleClock :: steps 0 15 ++
  .begin 1 (.claim (sampleName ['1'])) sampleClock :: steps 1 2 ++
  .begin 0 lateData sampleClock :: steps 0 4 ++
  .begin 1 (.complete (claimName (samplePid 1) (sampleName ['1'])) (sampleDone ['1'])) sampleClock :: steps 1 1 ++
  steps 0 6 ++ steps 1 2 ++
  .begin 2 (.claim (lateName ['1'])) sampleClock :: .begin 1 (.claim (sampleName ['2'])) sampleClock ::
  steps 2 2 ++ steps 1 2 ++
  .begin 1 (.complete (claimName (samplePid 1) (sampleName ['2'])) (sampleDone ['2'])) sampleClock :: steps 1 2 ++
  steps 0 2 ++ steps 1 2

/-- The last step collects the body of the first transaction, and the other body stays. -/
theorem needed_body_kept_sample : ∃ (cfg cfg' : Cfg) (inflightName : Name) (e : Envelope),
    (cfg.disk.get .data (Op.bodyName sampleTxn)).isSome ∧ cfg'.disk.get .data (Op.bodyName sampleTxn) = none ∧
    cfg'.threads 2 = .holding inflightName e ∧ e.body = Op.bodyName lateTxn ∧
    (cfg'.disk.get .data (Op.bodyName lateTxn)).isSome ∧ (cfg'.disk.get .data e.body).isSome := by
  have outcome : ((play Cfg.next (fun cfg d => orderlyBelow 3 cfg d && decide (Delivery d)) .emptySpool sharedRun).bind
      fun cfg => (cfg.next (.step 1 ⟨sampleClock, false⟩)).map fun cfg' =>
        (cfg.disk.get .data (Op.bodyName sampleTxn)).isSome && (cfg.threads 0).isBusyWith lateData &&
        (cfg.disk.get .data (Op.bodyName lateTxn)).isSome && (cfg'.disk.get .data (Op.bodyName sampleTxn)).isNone &&
        (cfg'.threads 2).isHolding (Op.bodyName lateTxn)) = some true := by decide
  obtain ⟨cfg, played, last⟩ := Option.bind_eq_some_iff.mp outcome
  obtain ⟨cfg', move, facts⟩ := Option.map_eq_some_iff.mp last
  simp only [Bool.and_eq_true, Option.isNone_iff_eq_none] at facts
  obtain ⟨⟨⟨⟨there, works⟩, here⟩, gone⟩, held⟩ := facts
  have run : Reachable Cfg.next (fun cfg d => Delivery d ∧ Sheltered cfg d) .emptySpool cfg := by
    refine orderly_run_of_below 3 AtRest.emptySpool ?_ ?_ (reachable_of_play (fun _ _ => id) sharedRun played)
    · exact fun cfg d both => (Bool.and_eq_true_iff.mp both).1
    · exact fun cfg d both orderly =>
        ⟨of_decide_eq_true (Bool.and_eq_true_iff.mp both).2, sheltered_of_orderly orderly⟩
  obtain ⟨bodies, holders⟩ := needed_body_kept AtRest.emptySpool rfl run
    (show Delivery (.step 1 ⟨sampleClock, false⟩) from rfl) trivial move
  obtain ⟨rest, busy⟩ := Thread.of_isBusyWith works
  have needed : cfg.Needs (Op.bodyName lateTxn) := .inr ⟨0, lateTxn, [], _, rest, busy, rfl⟩
  obtain ⟨inflightName, e, holding, own⟩ := Thread.of_isHolding held
  exact ⟨cfg, cfg', inflightName, e, there, gone, holding, own, bodies _ needed here, holders 2 inflightName e holding⟩

/-- The worker finishes the first envelope while the session writes the second one. -/
def hastyRun : List Decision :=
  .begin 0 sampleData sampleClock :: steps 0 10 ++
  .begin 1 (.claim (sampleName ['1'])) sampleClock :: steps 1 2 ++
  .begin 1 (.complete (claimName (samplePid 1) (sampleName ['1'])) (sampleDone ['1'])) sampleClock :: steps 1 5 ++
  steps 0 5 ++ .begin 1 (.claim (sampleName ['2'])) sampleClock :: steps 1 2

def holdsOrphan (cfg : Cfg) : Bool :=
  match cfg.threads 1 with
  | .holding _ e => (cfg.disk.get .data e.body).isNone
  | _ => false

/-- A worker may claim an envelope whose body is gone. -/
theorem claimed_without_body : ∃ cfg t inflightName e, Reachable Cfg.next (fun _ d => Delivery d) .emptySpool cfg ∧
    cfg.threads t = .holding inflightName e ∧ cfg.disk.get .data e.body = none := by
  have outcome : ((play Cfg.next (fun _ d => decide (Delivery d)) .emptySpool hastyRun).map holdsOrphan) = some true := by
    decide
  obtain ⟨cfg, played, orphan⟩ := Option.map_eq_some_iff.mp outcome
  have run := reachable_of_play (fun _ d => of_decide_eq_true) hastyRun played
  unfold holdsOrphan at orphan
  split at orphan
  · rename_i inflightName e thread
    exact ⟨cfg, 1, inflightName, e, run, thread, by simpa using orphan⟩
  · cases orphan

/-- Whatever workers, operators and crashes do in an orderly run: between operations every envelope
    has at most one live copy, and every live copy has its body. -/
theorem single_copy {start cfg : Cfg} (rest : AtRest start) (run : Reachable Cfg.next Orderly start cfg) :
    (cfg.Quiet → ∀ uuid, cfg.disk.Sole uuid) ∧
      ∀ dir name e, dir ∈ bodyDirs → cfg.disk.Holds dir name e → (cfg.disk.get .data e.body).isSome := by
  have inv := inv_of_reachable rest run
  refine ⟨fun quiet uuid => inv.sole quiet.1 uuid fun t op rest busy => (quiet.2 t op rest busy).elim, ?_⟩
  exact fun dir name e live holds => Option.isSome_iff_exists.mpr (inv.consistent.bodies dir name e live holds)

/-- The session and the first worker finish, an operator holds the last envelope, and the gateway is
    killed while the other worker has one in hand. -/
def partedRun : List Decision :=
  sharedRun ++ steps 1 1 ++ steps 0 3 ++ .begin 3 (.hold (lateTxn ++ ".2".toList)) sampleClock :: steps 3 12 ++
  .crash (samplePid 2) :: .begin 0 .recover sampleClock :: steps 0 6

theorem single_copy_sample : ∃ cfg : Cfg, cfg.Quiet ∧ cfg.disk.list .ready = [lateName ['1']] ∧
    cfg.disk.list .quarantine = [plainName (lateTxn ++ ".2".toList)] ∧
    cfg.disk.get .data (Op.bodyName sampleTxn) = none ∧ ∀ uuid, cfg.disk.Sole uuid := by
  have outcome : (play Cfg.next (orderlyBelow 4) .emptySpool partedRun).map (fun cfg => cfg.quietBelow 4 &&
      (decide (cfg.disk.list .ready = [lateName ['1']]) &&
        decide (cfg.disk.list .quarantine = [plainName (lateTxn ++ ".2".toList)]) &&
        (cfg.disk.get .data (Op.bodyName sampleTxn)).isNone)) = some true := by decide
  obtain ⟨cfg, played, rests⟩ := Option.map_eq_some_iff.mp outcome
  simp only [Bool.and_eq_true, Option.isNone_iff_eq_none, decide_eq_true_eq] at rests
  obtain ⟨free, ⟨ready, held⟩, gone⟩ := rests
  have checked := reachable_of_play (fun _ _ => id) partedRun played
  have run : Reachable Cfg.next Orderly .emptySpool cfg :=
    orderly_run_of_below 4 AtRest.emptySpool (fun _ _ => id) (fun _ _ _ => id) checked
  have quiet := Cfg.quiet_of_below (fun t high => idle_of_below 4 AtRest.emptySpool
    (fun _ _ => below_of_orderlyBelow) checked high) free
  exact ⟨cfg, quiet, ready, held, gone, (single_copy AtRest.emptySpool run).1 quiet⟩

def Faultless : Decision → Bool
  | .begin _ op _ => op.spooled
  | .step _ choice => !choice.fails
  | _ => true

def heldWhileClaimed : List Decision :=
  .begin 0 sampleData sampleClock :: steps 0 15 ++
  .begin 2 (.hold (sampleTxn ++ ".1".toList)) sampleClock :: steps 2 11 ++
  .begin 1 (.claim (sampleName ['1'])) sampleClock :: steps 1 2 ++ steps 2 1

/-- An operator and a worker can leave two live copies behind. -/
theorem two_copies : ∃ cfg uuid, Reachable Cfg.next (fun _ d => Faultless d = true) .emptySpool cfg ∧ cfg.Quiet ∧
    ¬ cfg.disk.Sole uuid := by
  have outcome : (play Cfg.next (fun _ d => Faultless d && d.below 3) .emptySpool heldWhileClaimed).map
      (fun cfg => cfg.quietBelow 3 &&
        (cfg.disk.get .inflight (claimName 1 (sampleName ['1'])) == some (.json (sampleEnvelope ['1'])) &&
          cfg.disk.get .quarantine (plainName (sampleTxn ++ ".1".toList)) == some (.json (sampleEnvelope ['1'])))) =
        some true := by decide
  obtain ⟨cfg, played, left⟩ := Option.map_eq_some_iff.mp outcome
  obtain ⟨free, copies⟩ := Bool.and_eq_true_iff.mp left
  obtain ⟨first, second⟩ := Bool.and_eq_true_iff.mp copies
  have run := reachable_of_play (fun _ _ => id) heldWhileClaimed played
  refine ⟨cfg, (sampleEnvelope ['1']).uuid, run.mono fun _ d both => (Bool.and_eq_true_iff.mp both).1, ?_, fun sole => ?_⟩
  · exact Cfg.quiet_of_below (fun t high => idle_of_below 3 AtRest.emptySpool
      (fun _ _ both => (Bool.and_eq_true_iff.mp both).2) run high) free
  · have same := sole _ _ _ _ _ _ (by decide) (by decide) (beq_iff_eq.mp first) (beq_iff_eq.mp second) rfl rfl
    cases same.1

end Mailgw.Queue
