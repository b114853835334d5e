import Mailgw.Queue.Interventions
import Mailgw.Queue.SharedBody

namespace Mailgw.Queue

open Calls Spool Disk

def Cfg.ledger (cfg : Cfg) : Ledger := ⟨cfg.disk, cfg.owner, cfg.log⟩

/-- One operation after another, no call fails, and an enqueued envelope is new. A crash of the
    gateway, or of the operator's command in progress, may come between any two system calls. -/
def Sequential (cfg : Cfg) : Decision → Prop
  | .begin _ op _ => (∀ t' op' rest, cfg.threads t' ≠ .busy op' rest) ∧ (op ≠ .recover → cfg.phase = .running) ∧
    match op with
    | .data _ _ _ => False
    | .enqueue e | .quarantine e => ¬ cfg.disk.Present e.uuid
    | _ => True
  | .step _ choice => choice.fails = false
  | .crash _ => ∀ t op rest, cfg.threads t = .busy op rest → op.isOperator = false
  | .abort _ => True

/-- Recovery may drop the copy in flight: there is none, a newer one is in the queue, no other copy
    is committed, or the one in quarantine is the version that stands. -/
def Trail.Recoverable (s : Trail) : Prop :=
  ∀ e, s.version = some e → (s.copies .inflight).Nonempty → s.copies .ready = ∅ →
    s.copies .dead = ∅ ∧ s.copies .quarantine = ∅ ∨ ∃ name, (name, e) ∈ s.copies .quarantine

/-- Whenever recovery begins, no envelope that is in flight only has an outdated copy elsewhere. -/
def Provident (cfg : Cfg) : Decision → Prop
  | .begin _ op _ => op = .recover → ∀ uuid, (cfg.ledger.trail uuid).Recoverable
  | _ => True

namespace Trail

variable {s : Trail} {name : Name} {e : Envelope} {dir : Dir}

theorem Recoverable.landed (still : s.copies .inflight = ∅) : s.Recoverable := by
  intro e _ flying
  rw [still] at flying
  exact absurd flying Set.not_nonempty_empty

theorem Tidy.drop_backed (tidy : s.Tidy) (recoverable : s.Recoverable) (flying : (name, e) ∈ s.copies .inflight)
    (outside : dir ≠ .data) (resting : dir ≠ .inflight) (elsewhere : (s.copies dir).Nonempty) :
    (s.drop .inflight name).Tidy := by
  refine ⟨by simpa [copies_drop] using tidy.ready, by simpa [copies_drop] using drop_subsingleton tidy.inflight, ?_⟩
  intro e₁ stands
  rcases tidy.leads e₁ stands with queued | ⟨free, -⟩
  · left
    simpa [copies_drop] using queued
  · right
    have held : ∃ name, (name, e₁) ∈ s.copies .quarantine := by
      rcases recoverable e₁ stands ⟨_, flying⟩ free with ⟨dead, held⟩ | kept
      · cases dir with
        | data => exact absurd rfl outside
        | inflight => exact absurd rfl resting
        | ready => exact absurd free elsewhere.ne_empty
        | dead => exact absurd dead elsewhere.ne_empty
        | quarantine => exact absurd held elsewhere.ne_empty
      · exact kept
    refine ⟨by simpa [copies_drop] using free, .inr ⟨?_, by simpa [copies_drop] using held⟩⟩
    simpa [copies_drop] using drop_only tidy.inflight flying

theorem Tidy.requeue (tidy : s.Tidy) (flying : (name, e) ∈ s.copies .inflight)
    (only : ∀ dir, dir ≠ .inflight → s.copies dir = ∅) (name' : Name) :
    ((s.drop .inflight name).add .ready name' e).Tidy := by
  have free := only .ready (by decide)
  refine ⟨by simp [copies_add, copies_drop, free], ?_, ?_⟩
  · simpa [copies_add, copies_drop] using drop_subsingleton tidy.inflight
  · intro e₁ stands
    rcases tidy.leads e₁ stands with ⟨name₁, queued⟩ | ⟨-, ⟨name₁, flying₁⟩ | ⟨still, -⟩⟩
    · rw [free] at queued
      exact absurd queued (Set.notMem_empty _)
    · cases tidy.inflight flying₁ flying
      left
      exact ⟨name', by simp [copies_add]⟩
    · rw [still] at flying
      exact absurd flying (Set.notMem_empty _)

end Trail

section Recovery
variable {w w₁ : World} {log log' : List Event}

theorem RecoverStep.trails (step : RecoverStep w w₁) (filed : w.disk.Filed)
    (silent : ∀ uuid, standing uuid log' = standing uuid log)
    (sound : ∀ uuid, ((⟨w.disk, w.owner, log⟩ : Ledger).trail uuid).Tidy ∧
      ((⟨w.disk, w.owner, log⟩ : Ledger).trail uuid).Recoverable) (uuid : Name) :
    ((⟨w₁.disk, w₁.owner, log'⟩ : Ledger).trail uuid).Tidy ∧
      ((⟨w₁.disk, w₁.owner, log'⟩ : Ledger).trail uuid).Recoverable := by
  obtain ⟨tidy, recoverable⟩ := sound uuid
  have same : ∀ {d : Disk} {owner}, d.copies uuid = w.disk.copies uuid →
      (⟨d, owner, log'⟩ : Ledger).trail uuid = (⟨w.disk, w.owner, log⟩ : Ledger).trail uuid := by
    intro d owner copies
    simp [Ledger.trail, copies, silent uuid]
  cases step with
  | quiet =>
    rw [same rfl]
    exact ⟨tidy, recoverable⟩
  | @drop name e holds committed =>
    by_cases mine : uuid = e.uuid
    · subst mine
      have flying : (name, e) ∈ w.disk.copies e.uuid .inflight := ⟨by decide, holds, rfl⟩
      have gone := Trail.drop_only tidy.inflight flying
      obtain ⟨dir, name', e', outside, resting, there, of⟩ := committed
      have elsewhere : (w.disk.copies e.uuid dir).Nonempty := ⟨(name', e'), outside, there, of⟩
      constructor
      · have backed := tidy.drop_backed recoverable flying outside resting elsewhere
        simpa only [Ledger.trail, Trail.drop, copies_del, silent] using backed
      · apply Trail.Recoverable.landed
        simpa [Ledger.trail, copies_del] using gone
    · rw [same (copies_congr (untouched_del holds mine))]
      exact ⟨tidy, recoverable⟩
  | @requeue name e due holds only =>
    obtain ⟨valid, -⟩ := filed.file (by decide) holds
    by_cases mine : uuid = e.uuid
    · subst mine
      have flying : (name, e) ∈ w.disk.copies e.uuid .inflight := ⟨by decide, holds, rfl⟩
      have gone := Trail.drop_only tidy.inflight flying
      have alone : ∀ dir, dir ≠ .inflight → w.disk.copies e.uuid dir = ∅ := by
        intro dir resting
        apply Set.eq_empty_of_forall_notMem
        rintro ⟨name', e'⟩ ⟨outside, there, of⟩
        exact only ⟨dir, name', e', outside, resting, there, of⟩
      constructor
      · have queued := tidy.requeue flying alone (readyName due e.uuid)
        have ready : Dir.ready ≠ .data := by decide
        simpa only [Ledger.trail, Trail.add, Trail.drop, copies_put ready, copies_del, silent] using queued
      · apply Trail.Recoverable.landed
        simpa [Ledger.trail, copies_put, copies_del] using gone
    · have dropped : Disk.Filed (w.disk.del .inflight name) := filed.del
      have away := untouched_put dropped (show Dir.ready ≠ .data by decide) valid ⟨due, rfl⟩ mine
      rw [same ((copies_congr away).trans (copies_congr (untouched_del holds mine)))]
      exact ⟨tidy, recoverable⟩

theorem RecoverStep.sound (step : RecoverStep w w₁) (sound : (⟨w.disk, w.owner, log⟩ : Ledger).Sound) :
    (⟨w₁.disk, w₁.owner, log'⟩ : Ledger).Sound := by
  have released : ∀ {name name' : Name} {t : Nat}, handOver w.owner .inflight name none name' = some t →
      name' ≠ name ∧ w.owner name' = some t := by
    intro name name' t owned
    by_cases same : Dir.inflight = .inflight ∧ name' = name
    · obtain ⟨-, rfl⟩ := same
      rw [handOver_self] at owned
      cases owned
    · rw [handOver_other same] at owned
      exact ⟨fun this => same ⟨rfl, this⟩, owned⟩
  cases step with
  | quiet => exact ⟨sound.filed, sound.owned⟩
  | drop holds _ =>
    refine ⟨sound.filed.del, fun name' t owned => ?_⟩
    obtain ⟨other, owned⟩ := released owned
    obtain ⟨e', there⟩ := sound.owned name' t owned
    exact ⟨e', holds_del_iff.mpr ⟨fun same => other same.2, there⟩⟩
  | @requeue name e due holds _ =>
    obtain ⟨valid, -⟩ := sound.filed.file (by decide) holds
    have dropped : Disk.Filed (w.disk.del .inflight name) := sound.filed.del
    refine ⟨dropped.put valid ⟨due, rfl⟩, fun name' t owned => ?_⟩
    obtain ⟨other, owned⟩ := released owned
    obtain ⟨e', there⟩ := sound.owned name' t owned
    exact ⟨e', holds_put_iff.mpr (.inr ⟨by simp, holds_del_iff.mpr ⟨fun same => other same.2, there⟩⟩)⟩

def FsCall.publishes : FsCall → Bool
  | .publish _ _ _ => true
  | _ => false

theorem all_recoverNames (committed : List Name) (due : Instant) (names : List Name) :
    (recoverNames committed due names).run.All fun c => c.publishes = false := by
  induction names with
  | nil => trivial
  | cons name rest ih =>
    unfold recoverNames
    dsimp only
    split
    · exact Prog.All.except_bind ⟨rfl, fun _ => trivial⟩ fun _ => ih
    · apply Prog.All.except_bind
      · exact ⟨rfl, fun _ => trivial⟩
      · exact fun _ => Prog.All.except_bind ih fun _ => trivial

theorem all_recover : recover.run.All fun c => c.publishes = false := by
  have listing : ∀ dir, (readDir dir).run.All fun c => c.publishes = false := fun dir => ⟨rfl, fun _ => trivial⟩
  apply Prog.All.except_bind (listing _)
  intro entries
  apply Prog.All.except_bind
  · apply Prog.All.except_bind (listing _)
    intro ready
    apply Prog.All.except_bind (listing _)
    intro dead
    exact Prog.All.except_bind (listing _) fun _ => trivial
  · intro committed
    apply Prog.All.except_bind
    · exact ⟨rfl, fun _ => trivial⟩
    · exact fun due => all_recoverNames committed due entries

theorem standing_recovered {c : FsCall} (answer : c.Answer) (reads : c.publishes = false) (uuid : Name) (log : List Event) :
    standing uuid (Cfg.record .recover c answer ++ log) = standing uuid log := by
  cases c with
  | publish dir name file => cases reads
  | rename dir name dir' name' =>
    cases answer with
    | ok _ => exact standing_cons_none rfl
    | error _ => rfl
  | remove dir name =>
    cases answer with
    | ok _ =>
      apply standing_cons_none
      cases dir <;> rfl
    | error _ => rfl
  | _ => rfl

end Recovery

namespace Ledger

def Stops (t : Nat) (op : Op) (claimed : Option (Name × Envelope)) (w : Ledger) : Prop :=
  (∀ name e, claimed = some (name, e) → w.owner name = some t ∧ w.disk.Holds .inflight name e) ∧
    ∀ uuid, op.uuid? = some uuid → (w.trail uuid).Rested

theorem sat_prog {t : Nat} {op : Op} {w : Ledger} (pid : Fin (2 ^ 63)) (other : op ≠ .recover)
    (single : ∀ txnUUID bytes parts, op ≠ .data txnUUID bytes parts) (armed : Armed t op w) :
    Sat (tracked t op) (Ended t op w) (op.prog pid) w := by
  cases op with
  | data txnUUID bytes parts => exact (single _ _ _ rfl).elim
  | enqueue e => exact sat_enqueue armed
  | quarantine e => exact sat_quarantine armed
  | claim name => exact sat_claim armed
  | complete name e => exact sat_complete armed
  | reschedule name e due => exact sat_reschedule armed
  | bury name e => exact sat_bury armed
  | flush uuid => exact sat_flush armed
  | hold uuid => exact sat_hold armed
  | release uuid => exact sat_release armed
  | remove uuid => exact sat_removeEnvelope armed
  | recover => exact (other rfl).elim

theorem Ended.stops {t : Nat} {op : Op} {w w₀ : Ledger} {claimed : Option (Name × Envelope)}
    (ended : Ended t op w₀ claimed w) : Stops t op claimed w :=
  ⟨fun name e same => ⟨(ended.held name e same).1, (ended.held name e same).2.1⟩, ended.rested⟩

end Ledger

def Cfg.Proceeds (cfg : Cfg) (t : Nat) (op : Op) (rest : Fs (Option (Name × Envelope))) : Prop :=
  op = .recover ∧ cfg.phase = .recovering ∧ Sat (aloneContract t) Recovered rest cfg.world ∧
      (rest.All fun c => c.publishes = false) ∧ (∀ uuid, (cfg.ledger.trail uuid).Recoverable) ∨
    op ≠ .recover ∧ cfg.phase = .running ∧ Sat (Ledger.tracked t op) (Ledger.Stops t op) rest cfg.ledger

structure Steady (cfg : Cfg) : Prop where
  sound : cfg.ledger.Sound
  tidy : ∀ uuid, (cfg.ledger.trail uuid).Tidy
  single : ∀ t op rest t' op' rest', cfg.threads t = .busy op rest → cfg.threads t' = .busy op' rest' → t = t'
  proceeds : ∀ t op rest, cfg.threads t = .busy op rest → (∃ c next, rest = .call c next) ∧ cfg.Proceeds t op rest
  held : ∀ t name e, cfg.threads t = .holding name e →
    cfg.phase = .running ∧ cfg.owner name = some t ∧ cfg.disk.Holds .inflight name e
  rested : cfg.phase = .running → ∀ uuid,
    (∀ t op rest, cfg.threads t = .busy op rest → op.isOperator = true ∨ op.uuid? ≠ some uuid) →
      (cfg.ledger.trail uuid).Rested

namespace Steady

variable {cfg : Cfg} {t : Nat} {op : Op}

theorem trail_begun (cfg : Cfg) (clock : Instant) (uuid : Name) :
    (⟨cfg.disk, cfg.owner, .begun op clock :: cfg.log⟩ : Ledger).trail uuid = cfg.ledger.trail uuid := by
  simp only [Ledger.trail, Cfg.ledger, standing_cons_none (show (Event.begun op clock).about = none from rfl)]

theorem armed (steady : Steady cfg) {clock : Instant} (may : (cfg.threads t).mayBegin cfg clock op)
    (other : op ≠ .recover) (sequential : Sequential cfg (.begin t op clock)) :
    Ledger.Armed t op ⟨cfg.disk, cfg.owner, .begun op clock :: cfg.log⟩ := by
  obtain ⟨nobody, running, listed⟩ := sequential
  have rested : ∀ uuid, (cfg.ledger.trail uuid).Rested := fun uuid =>
    steady.rested (running other) uuid fun t' op' rest busy => (nobody t' op' rest busy).elim
  have finishing : ∀ {name e'}, (∃ e, cfg.threads t = .holding name e ∧ Attempted e e') →
      e'.Valid ∧ cfg.owner name = some t ∧ ∃ e₀, cfg.disk.Holds .inflight name e₀ ∧ e₀.uuid = e'.uuid := by
    rintro name e' ⟨e, thread, attempted⟩
    obtain ⟨-, owned, holds⟩ := steady.held t name e thread
    obtain ⟨valid, -⟩ := steady.sound.file (by decide) holds
    obtain ⟨valid', uuid, -⟩ := attempted.identity valid
    exact ⟨valid', owned, e, holds, uuid.symm⟩
  have absent : ∀ {e : Envelope}, ¬ cfg.disk.Present e.uuid → ∀ dir,
      ((⟨cfg.disk, cfg.owner, .begun op clock :: cfg.log⟩ : Ledger).trail e.uuid).copies dir = ∅ := by
    intro e missing dir
    apply Set.eq_empty_of_forall_notMem
    rintro ⟨name, e'⟩ ⟨outside, holds, of⟩
    exact missing ⟨dir, name, e', outside, holds, of⟩
  refine ⟨⟨steady.sound.filed, steady.sound.owned⟩, fun uuid _ => ?_, ?_⟩
  · rw [trail_begun]
    exact rested uuid
  · cases op with
    | enqueue e => exact absent listed
    | quarantine e => exact absent listed
    | complete name e' =>
      obtain ⟨e, thread, attempted, -⟩ := may.complete
      exact finishing ⟨e, thread, attempted⟩
    | reschedule name e' due => exact finishing may.reschedule
    | bury name e' =>
      obtain ⟨e, thread, attempted, -⟩ := may.bury
      exact finishing ⟨e, thread, attempted⟩
    | _ => exact trivial

theorem settled (cfg : Cfg) {p : Fs (Option (Name × Envelope))} (other : op ≠ .recover) (running : cfg.phase = .running)
    (sat : Sat (Ledger.tracked t op) (Ledger.Stops t op) p cfg.ledger) :
    (∀ op' rest, Thread.settle op p = .busy op' rest → (∃ c next, rest = .call c next) ∧ cfg.Proceeds t op' rest) ∧
      (∀ name e, Thread.settle op p = .holding name e →
        cfg.owner name = some t ∧ cfg.disk.Holds .inflight name e) ∧
      ((∀ rest, Thread.settle op p ≠ .busy op rest) → ∀ uuid, op.uuid? = some uuid → (cfg.ledger.trail uuid).Rested) := by
  match p with
  | .done none => exact ⟨fun _ _ same => (by cases same), fun _ _ same => (by cases same), fun _ => sat.2⟩
  | .done (some (name, e)) =>
    refine ⟨fun _ _ same => (by cases same), fun name' e' same => ?_, fun _ => sat.2⟩
    cases same
    exact sat.1 name e rfl
  | .call c next =>
    refine ⟨fun op' rest same => ?_, fun _ _ same => (by cases same), fun idle => (idle _ rfl).elim⟩
    cases same
    exact ⟨⟨c, next, rfl⟩, .inr ⟨other, running, sat⟩⟩

theorem begin_op (steady : Steady cfg) {clock : Instant} (may : (cfg.threads t).mayBegin cfg clock op)
    (other : op ≠ .recover) (sequential : Sequential cfg (.begin t op clock)) :
    Steady { cfg with
      threads := Function.update cfg.threads t (Thread.settle op (op.prog cfg.pid))
      issued := Cfg.issuedBy op ++ cfg.issued
      log := .begun op clock :: cfg.log } := by
  have armed := steady.armed may other sequential
  obtain ⟨nobody, running, listed⟩ := sequential
  have single : ∀ txnUUID bytes parts, op ≠ .data txnUUID bytes parts := by
    rintro txnUUID bytes parts rfl
    exact listed
  have sat := (Ledger.sat_prog cfg.pid other single armed).mono fun _ _ ended => ended.stops
  obtain ⟨works, held, ended⟩ := settled { cfg with
    threads := Function.update cfg.threads t (Thread.settle op (op.prog cfg.pid))
    issued := Cfg.issuedBy op ++ cfg.issued
    log := .begun op clock :: cfg.log } other (running other) sat
  have alone : ∀ {t' op' rest}, Function.update cfg.threads t (Thread.settle op (op.prog cfg.pid)) t' = .busy op' rest →
      t' = t ∧ Thread.settle op (op.prog cfg.pid) = .busy op' rest := by
    intro t' op' rest busy
    by_cases same : t' = t
    · subst same
      rw [Function.update_self] at busy
      exact ⟨rfl, busy⟩
    · rw [Function.update_of_ne same] at busy
      exact (nobody _ _ _ busy).elim
  constructor
  · exact armed.sound
  · intro uuid
    show ((⟨cfg.disk, cfg.owner, .begun op clock :: cfg.log⟩ : Ledger).trail uuid).Tidy
    rw [trail_begun]
    exact steady.tidy uuid
  · intro t₁ op₁ rest₁ t₂ op₂ rest₂ busy₁ busy₂
    exact (alone busy₁).1.trans (alone busy₂).1.symm
  · intro t' op' rest busy
    obtain ⟨rfl, started⟩ := alone busy
    exact works op' rest started
  · intro t' name e thread
    refine ⟨running other, ?_⟩
    by_cases same : t' = t
    · subst same
      simp only [Function.update_self] at thread
      exact held name e thread
    · simp only [Function.update_of_ne same] at thread
      exact (steady.held t' name e thread).2
  · intro _ uuid still
    show ((⟨cfg.disk, cfg.owner, .begun op clock :: cfg.log⟩ : Ledger).trail uuid).Rested
    rw [trail_begun]
    exact steady.rested (running other) uuid fun t' op' rest busy => (nobody t' op' rest busy).elim

theorem begin_recover (steady : Steady cfg) {clock : Instant} (may : (cfg.threads t).mayBegin cfg clock .recover)
    (nobody : ∀ t' op' rest, cfg.threads t' ≠ .busy op' rest)
    (recoverable : ∀ uuid, (cfg.ledger.trail uuid).Recoverable) :
    Steady { cfg with
      threads := Function.update cfg.threads t (.busy .recover (Op.recover.prog cfg.pid))
      phase := .recovering
      log := .begun .recover clock :: cfg.log } := by
  have alone : ∀ {t' op' rest}, Function.update cfg.threads t (.busy .recover (Op.recover.prog cfg.pid)) t' =
      .busy op' rest → t' = t ∧ op' = .recover ∧ rest = Op.recover.prog cfg.pid := by
    intro t' op' rest busy
    by_cases same : t' = t
    · subst same
      rw [Function.update_self] at busy
      cases busy
      exact ⟨rfl, rfl, rfl⟩
    · rw [Function.update_of_ne same] at busy
      exact (nobody _ _ _ busy).elim
  have one : cfg.disk.OneInflight := by
    intro name e name' e' holds holds' same
    have within : (name, e) ∈ (cfg.ledger.trail e'.uuid).copies .inflight := ⟨by decide, holds, same⟩
    have within' : (name', e') ∈ (cfg.ledger.trail e'.uuid).copies .inflight := ⟨by decide, holds', rfl⟩
    exact congrArg Prod.fst ((steady.tidy e'.uuid).inflight within within')
  constructor
  · exact ⟨steady.sound.filed, steady.sound.owned⟩
  · intro uuid
    show ((⟨cfg.disk, cfg.owner, .begun .recover clock :: cfg.log⟩ : Ledger).trail uuid).Tidy
    rw [trail_begun]
    exact steady.tidy uuid
  · intro t₁ op₁ rest₁ t₂ op₂ rest₂ busy₁ busy₂
    exact (alone busy₁).1.trans (alone busy₂).1.symm
  · intro t' op' rest busy
    obtain ⟨rfl, rfl, rfl⟩ := alone busy
    refine ⟨⟨_, _, rfl⟩, .inl ⟨rfl, rfl, ?_, all_recover.bind fun _ => trivial, fun uuid => ?_⟩⟩
    · apply Sat.bind
      have filed : cfg.world.disk.Filed := steady.sound.filed
      exact (sat_recover filed one).mono fun r w' done => ⟨rfl, done.2⟩
    · show ((⟨cfg.disk, cfg.owner, .begun .recover clock :: cfg.log⟩ : Ledger).trail uuid).Recoverable
      rw [trail_begun]
      exact recoverable uuid
  · intro t' name e thread
    by_cases same : t' = t
    · subst same
      simp only [Function.update_self] at thread
      cases thread
    · simp only [Function.update_of_ne same] at thread
      have running := (steady.held t' name e thread).1
      rw [may.crashed] at running
      cases running
  · intro running
    cases running

section Step
variable {c : FsCall} {next : c.Answer → Fs (Option (Name × Envelope))} {choice : Choice}

theorem step_op (steady : Steady cfg) (other : op ≠ .recover) (thread : cfg.threads t = .busy op (.call c next))
    (calm : choice.fails = false) : Steady (Inv.stepped cfg t op c next choice) := by
  obtain ⟨recovers, -⟩ | ⟨-, running, sat⟩ := (steady.proceeds _ _ _ thread).2
  · exact (other recovers).elim
  have made : Ledger.Step t op c cfg.ledger (exec choice cfg.disk c).1 (Inv.stepped cfg t op c next choice).ledger :=
    ⟨choice, by simp [calm], rfl, rfl, rfl⟩
  obtain ⟨guar, rest⟩ := sat.answer made
  have phase : (Inv.stepped cfg t op c next choice).phase = .running := (Inv.phaseAfter_other other).trans running
  obtain ⟨works, held, ended⟩ := settled (Inv.stepped cfg t op c next choice) other phase rest
  have alone : ∀ {t' op' rest'}, (Inv.stepped cfg t op c next choice).threads t' = .busy op' rest' →
      t' = t ∧ Thread.settle op (next (exec choice cfg.disk c).1) = .busy op' rest' := by
    intro t' op' rest' busy
    by_cases same : t' = t
    · subst same
      simp only [Inv.stepped, Function.update_self] at busy
      exact ⟨rfl, busy⟩
    · simp only [Inv.stepped, Function.update_of_ne same] at busy
      exact (same (steady.single _ _ _ _ _ _ busy thread)).elim
  constructor
  · exact guar.sound
  · intro uuid
    by_cases mine : op.uuid? = some uuid
    · exact guar.tidy uuid mine (steady.tidy uuid)
    · rw [guar.others uuid mine]
      exact steady.tidy uuid
  · intro t₁ op₁ rest₁ t₂ op₂ rest₂ busy₁ busy₂
    exact (alone busy₁).1.trans (alone busy₂).1.symm
  · intro t' op' rest' busy
    obtain ⟨rfl, waits⟩ := alone busy
    exact works op' rest' waits
  · intro t' name e waiting
    refine ⟨phase, ?_⟩
    by_cases same : t' = t
    · subst same
      simp only [Inv.stepped, Function.update_self] at waiting
      exact held name e waiting
    · simp only [Inv.stepped, Function.update_of_ne same] at waiting
      obtain ⟨-, owned, holds⟩ := steady.held t' name e waiting
      obtain ⟨kept, unchanged⟩ := guar.owned name t' same
      exact ⟨kept.mpr owned, (unchanged owned).trans holds⟩
  · intro _ uuid still
    by_cases mine : op.uuid? = some uuid
    · by_cases waits : ∃ rest', Thread.settle op (next (exec choice cfg.disk c).1) = .busy op rest'
      · obtain ⟨rest', busy⟩ := waits
        have operator : op.isOperator = true := by
          apply (still t op rest' _).resolve_right
          · exact fun not => not mine
          · simpa only [Inv.stepped, Function.update_self] using busy
        apply guar.rested uuid mine (.inr operator)
        apply steady.rested running uuid
        intro t' op' rest₁ busy'
        cases steady.single _ _ _ _ _ _ busy' thread
        cases busy'.symm.trans thread
        exact .inl operator
      · exact ended (fun rest' busy => waits ⟨rest', busy⟩) uuid mine
    · rw [guar.others uuid mine]
      apply steady.rested running uuid
      intro t' op' rest' busy
      cases steady.single _ _ _ _ _ _ busy thread
      cases busy.symm.trans thread
      exact .inr mine

theorem step_recover (steady : Steady cfg) (thread : cfg.threads t = .busy .recover (.call c next))
    (calm : choice.fails = false) : Steady (Inv.stepped cfg t .recover c next choice) ∧
      ((Inv.stepped cfg t .recover c next choice).phase = .running → ∀ name e,
        ¬ (Inv.stepped cfg t .recover c next choice).disk.Holds .inflight name e) := by
  obtain ⟨-, recovering, sat, reads, recoverable⟩ | ⟨not, -⟩ := (steady.proceeds _ _ _ thread).2
  swap
  · exact (not rfl).elim
  obtain ⟨moved, rest⟩ := sat.answer (Inv.worldStep_stepped cfg t .recover c next calm)
  have moved : RecoverStep cfg.world (Inv.stepped cfg t .recover c next choice).world := moved
  have silent : ∀ uuid, standing uuid (Inv.stepped cfg t .recover c next choice).log = standing uuid cfg.log :=
    fun uuid => standing_recovered _ reads.1 uuid cfg.log
  have trails := moved.trails steady.sound.filed silent fun uuid => ⟨steady.tidy uuid, recoverable uuid⟩
  have alone : ∀ {t' op' rest'}, (Inv.stepped cfg t .recover c next choice).threads t' = .busy op' rest' →
      t' = t ∧ Thread.settle .recover (next (exec choice cfg.disk c).1) = .busy op' rest' := by
    intro t' op' rest' busy
    by_cases same : t' = t
    · subst same
      simp only [Inv.stepped, Function.update_self] at busy
      exact ⟨rfl, busy⟩
    · simp only [Inv.stepped, Function.update_of_ne same] at busy
      exact (same (steady.single _ _ _ _ _ _ busy thread)).elim
  have emptied : (Inv.stepped cfg t .recover c next choice).phase = .running → ∀ name e,
      ¬ (Inv.stepped cfg t .recover c next choice).disk.Holds .inflight name e := by
    intro running
    cases settled : next (exec choice cfg.disk c).1 with
    | call c' next' =>
      simp only [Inv.stepped, settled] at running
      cases running
    | done value =>
      rw [settled] at rest
      exact rest.2
  refine ⟨⟨moved.sound steady.sound, fun uuid => (trails uuid).1, ?_, ?_, ?_, ?_⟩, emptied⟩
  · intro t₁ op₁ rest₁ t₂ op₂ rest₂ busy₁ busy₂
    exact (alone busy₁).1.trans (alone busy₂).1.symm
  · intro t' op' rest' busy
    obtain ⟨rfl, waits⟩ := alone busy
    obtain ⟨rfl, rfl, call⟩ := Thread.settle_busy waits
    refine ⟨call, .inl ⟨rfl, ?_, rest, reads.2 _, fun uuid => (trails uuid).2⟩⟩
    simp only [Inv.stepped, waits]
    rfl
  · intro t' name e waiting
    by_cases same : t' = t
    · subst same
      simp only [Inv.stepped, Function.update_self] at waiting
      cases settled : next (exec choice cfg.disk c).1 with
      | done value =>
        rw [settled] at waiting rest
        cases rest.1
        cases waiting
      | call c' next' =>
        rw [settled] at waiting
        cases waiting
    · simp only [Inv.stepped, Function.update_of_ne same] at waiting
      have running := (steady.held t' name e waiting).1
      rw [recovering] at running
      cases running
  · intro running uuid _
    refine ⟨(trails uuid).1, fun _ => ?_⟩
    apply Set.eq_empty_of_forall_notMem
    rintro ⟨name, e⟩ ⟨-, holds, -⟩
    exact emptied running name e holds

end Step

theorem crash (steady : Steady cfg) (pid : Fin (2 ^ 63))
    (calm : ∀ t op rest, cfg.threads t = .busy op rest → op.isOperator = false) :
    ∀ cfg', cfg.next (.crash pid) = some cfg' → Steady cfg' := by
  rintro _ ⟨⟩
  have idle : ∀ t', (cfg.threads t').afterCrash = .idle := by
    intro t'
    match thread : cfg.threads t' with
    | .idle => rfl
    | .holding name e => rfl
    | .busy op rest =>
      simp only [Thread.afterCrash, calm t' op rest thread]
      rfl
  have nobody : ∀ {t' op rest}, (cfg.threads t').afterCrash ≠ .busy op rest := by
    intro t' op rest busy
    rw [idle t'] at busy
    cases busy
  refine ⟨⟨steady.sound.filed, fun _ _ owned => ?_⟩, steady.tidy, fun _ _ _ _ _ _ busy => (nobody busy).elim,
    fun _ _ _ busy => (nobody busy).elim, fun t' name e waiting => ?_, fun running => ?_⟩
  · cases owned
  · have waiting : (cfg.threads t').afterCrash = .holding name e := waiting
    rw [idle t'] at waiting
    cases waiting
  · cases running

theorem abort (steady : Steady cfg) {rest : Fs (Option (Name × Envelope))} (thread : cfg.threads t = .busy op rest)
    (operator : op.isOperator = true) : Steady { cfg with threads := Function.update cfg.threads t .idle } := by
  have older : ∀ {t' thread'}, Function.update cfg.threads t .idle t' = thread' → thread' ≠ .idle →
      cfg.threads t' = thread' := by
    intro t' thread' now works
    by_cases same : t' = t
    · subst same
      rw [Function.update_self] at now
      exact (works now.symm).elim
    · rwa [Function.update_of_ne same] at now
  refine ⟨steady.sound, steady.tidy, fun _ _ _ _ _ _ busy busy' => ?_, fun _ _ _ busy => ?_, fun _ _ _ waiting => ?_,
    fun running uuid still => ?_⟩
  · exact steady.single _ _ _ _ _ _ (older busy (by simp)) (older busy' (by simp))
  · exact steady.proceeds _ _ _ (older busy (by simp))
  · exact steady.held _ _ _ (older waiting (by simp))
  · apply steady.rested running uuid
    intro t' op' rest' busy
    by_cases same : t' = t
    · subst same
      cases busy.symm.trans thread
      exact .inl operator
    · apply still t' op' rest'
      show Function.update cfg.threads t .idle t' = _
      rwa [Function.update_of_ne same]

theorem step (cfg : Cfg) (d : Decision) (cfg' : Cfg) (steady : Steady cfg) (sequential : Sequential cfg d)
    (provident : Provident cfg d) (move : cfg.next d = some cfg') : Steady cfg' := by
  cases d with
  | begin t op clock =>
    simp only [Cfg.next] at move
    split at move
    · rename_i may
      cases move
      by_cases recovers : op = .recover
      · subst recovers
        exact steady.begin_recover may sequential.1 (provident rfl)
      · rw [Inv.phaseAfter_other recovers]
        exact steady.begin_op may recovers sequential
    · cases move
  | step t choice =>
    simp only [Cfg.next] at move
    split at move
    · rename_i op c next thread
      cases move
      by_cases recovers : op = .recover
      · subst recovers
        exact (steady.step_recover thread sequential).1
      · exact steady.step_op recovers thread sequential
    · cases move
  | crash pid => exact steady.crash pid sequential cfg' move
  | abort t =>
    simp only [Cfg.next] at move
    split at move
    · rename_i op rest thread
      split at move
      · rename_i operator
        cases move
        exact steady.abort thread operator
      · cases move
    · cases move

end Steady

theorem AtRest.trail_rested {cfg : Cfg} (rest : AtRest cfg) (unwritten : cfg.log = []) (uuid : Name) :
    (cfg.ledger.trail uuid).Rested := by
  have one : ∀ {dir name e dir' name' e'}, dir ∈ bodyDirs → dir' ∈ bodyDirs →
      (name, e) ∈ (cfg.ledger.trail uuid).copies dir → (name', e') ∈ (cfg.ledger.trail uuid).copies dir' →
      dir = dir' ∧ (name, e) = (name', e') := by
    rintro dir name e dir' name' e' live live' ⟨-, holds, of⟩ ⟨-, holds', of'⟩
    obtain ⟨rfl, rfl⟩ := rest.sole uuid _ _ _ _ _ _ live live' holds holds' of of'
    exact ⟨rfl, Prod.ext rfl (holds_unique holds holds')⟩
  refine ⟨⟨?_, ?_, fun e stands => ?_⟩, ?_⟩
  · intro copy within copy' within'
    exact (one (by decide) (by decide) within within').2
  · intro copy within copy' within'
    exact (one (by decide) (by decide) within within').2
  · have stands : standing uuid cfg.log = some e := stands
    rw [unwritten] at stands
    cases stands
  · rintro ⟨copy, queued⟩
    apply Set.eq_empty_of_forall_notMem
    intro copy' flying
    have same := (one (by decide) (by decide) queued flying).1
    cases same

theorem AtRest.steady {cfg : Cfg} (rest : AtRest cfg) (unwritten : cfg.log = []) : Steady cfg where
  sound := ⟨rest.consistent.filed, rest.consistent.owned⟩
  tidy uuid := (rest.trail_rested unwritten uuid).toTidy
  single _ _ _ _ _ _ busy := by
    rw [rest.idle] at busy
    cases busy
  proceeds _ _ _ busy := by
    rw [rest.idle] at busy
    cases busy
  held _ _ _ waiting := by
    rw [rest.idle] at waiting
    cases waiting
  rested _ uuid _ := rest.trail_rested unwritten uuid

/-- However a sequence of operations is cut by crashes: when recovery returns, every envelope that
    was committed, and not completed, buried or removed since, is in q/ or in quarantine/ as it was
    committed last. -/
theorem recovered_standing {start cfg cfg' : Cfg} {d : Decision} (rest : AtRest start) (unwritten : start.log = [])
    (run : Reachable Cfg.next (fun cfg d => Sequential cfg d ∧ Provident cfg d) start cfg)
    (sequential : Sequential cfg d) (provident : Provident cfg d) (move : cfg.next d = some cfg')
    (recovering : cfg.phase = .recovering) (returned : cfg'.phase = .running) :
    ∀ uuid e, standing uuid cfg'.log = some e →
      ∃ name, cfg'.disk.Holds .ready name e ∨ cfg'.disk.Holds .quarantine name e := by
  have steady : Steady cfg := by
    apply run.invariant Steady (rest.steady unwritten)
    exact fun cfg d cfg' steady allowed move => steady.step cfg d cfg' allowed.1 allowed.2 move
  have steady' := steady.step cfg d cfg' sequential provident move
  have emptied : ∀ name e, ¬ cfg'.disk.Holds .inflight name e := by
    cases d with
    | begin t op clock =>
      simp only [Cfg.next] at move
      split at move
      · rename_i may
        cases move
        by_cases recovers : op = .recover
        · subst recovers
          rw [may.crashed] at recovering
          cases recovering
        · rw [sequential.2.1 recovers] at recovering
          cases recovering
      · cases move
    | step t choice =>
      simp only [Cfg.next] at move
      split at move
      · rename_i op c next thread
        cases move
        by_cases recovers : op = .recover
        · subst recovers
          exact (steady.step_recover thread sequential).2 returned
        · have phase := (Inv.phaseAfter_other recovers).symm.trans returned
          rw [recovering] at phase
          cases phase
      · cases move
    | crash pid =>
      cases move
      cases returned
    | abort t =>
      simp only [Cfg.next] at move
      split at move
      · split at move
        · cases move
          rw [recovering] at returned
          cases returned
        · cases move
      · cases move
  intro uuid e stands
  rcases (steady'.tidy uuid).leads e stands with ⟨name, -, holds, -⟩ | ⟨-, ⟨name, -, holds, -⟩ | ⟨-, name, -, holds, -⟩⟩
  · exact ⟨name, .inl holds⟩
  · exact (emptied name e holds).elim
  · exact ⟨name, .inr holds⟩

section Sample

def envelopeDirs : List Dir := [.ready, .inflight, .dead, .quarantine]

def soloSequence (cfg : Cfg) : Decision → Bool
  | .begin t op _ => t == 0 && (op == .recover || cfg.phase == .running) &&
    match op with
    | .data _ _ _ => false
    | .enqueue _ | .quarantine _ => envelopeDirs.all fun dir => (cfg.disk.list dir).isEmpty
    | _ => true
  | .step t choice => t == 0 && !choice.fails
  | .crash _ => !(cfg.threads 0 matches .busy _ _)
  | .abort t => t == 0

theorem absent_of_empty {d : Disk} (uuid : Name) (empty : (envelopeDirs.all fun dir => (d.list dir).isEmpty) = true) :
    ¬ d.Present uuid := by
  rintro ⟨dir, name, e, outside, holds, -⟩
  have within : dir ∈ envelopeDirs := by cases dir <;> simp_all [envelopeDirs]
  have none := List.all_eq_true.mp empty dir within
  rw [List.isEmpty_iff] at none
  have listed : name ∈ d.list dir := mem_list.mpr ⟨_, holds⟩
  rw [none] at listed
  cases listed

theorem sequential_of_solo {cfg cfg' : Cfg} {d : Decision} (idle : ∀ t, t ≠ 0 → cfg.threads t = .idle)
    (mine : soloSequence cfg d = true) (move : cfg.next d = some cfg') : Sequential cfg d := by
  cases d with
  | begin t op clock =>
    simp only [soloSequence, Bool.and_eq_true, beq_iff_eq, Bool.or_eq_true] at mine
    obtain ⟨⟨rfl, phase⟩, listed⟩ := mine
    refine ⟨fun t' op' rest busy => ?_, phase.resolve_left, ?_⟩
    · simp only [Cfg.next] at move
      split at move
      · rename_i may
        by_cases same : t' = 0
        · exact Inv.not_busy_of_mayBegin may op' rest (same ▸ busy)
        · rw [idle t' same] at busy
          cases busy
      · cases move
    · cases op with
      | data _ _ _ => cases listed
      | enqueue e => exact absent_of_empty _ listed
      | quarantine e => exact absent_of_empty _ listed
      | _ => trivial
  | step t choice =>
    simp only [soloSequence, Bool.and_eq_true, beq_iff_eq, Bool.not_eq_true'] at mine
    exact mine.2
  | crash pid =>
    intro t op rest busy
    by_cases same : t = 0
    · subst same
      simp [soloSequence, busy] at mine
    · rw [idle t same] at busy
      cases busy
  | abort t => trivial

theorem thread_of_soloSequence {cfg : Cfg} {t : Nat} {d : Decision} (mine : soloSequence cfg d = true)
    (moves : d.thread? = some t) : t = 0 := by
  cases d <;> simp_all [soloSequence, Decision.thread?]

def bare (cfg : Cfg) : Bool := (cfg.disk.list .dead).isEmpty && (cfg.disk.list .quarantine).isEmpty

theorem provident_of_bare {cfg : Cfg} (empty : bare cfg = true) (d : Decision) : Provident cfg d := by
  cases d with
  | begin t op clock =>
    intro _ uuid e _ _ _
    obtain ⟨dead, held⟩ := Bool.and_eq_true_iff.mp empty
    have none : ∀ dir, (cfg.disk.list dir).isEmpty = true → (cfg.ledger.trail uuid).copies dir = ∅ := by
      intro dir empty
      rw [List.isEmpty_iff] at empty
      apply Set.eq_empty_of_forall_notMem
      rintro ⟨name, e'⟩ ⟨-, holds, -⟩
      have listed : name ∈ cfg.disk.list dir := mem_list.mpr ⟨_, holds⟩
      rw [empty] at listed
      cases listed
    exact .inl ⟨none _ dead, none _ held⟩
  | _ => trivial

def crashedRun : List Decision :=
  .begin 0 (.enqueue (sampleEnvelope ['1'])) sampleClock :: steps 0 5 ++
  .begin 0 (.claim (sampleName ['1'])) sampleClock :: steps 0 2 ++
  .crash (samplePid 2) :: .begin 0 .recover sampleClock :: steps 0 5

end Sample

theorem recovered_standing_sample : ∃ (cfg : Cfg) (name : Name), cfg.phase = .running ∧
    standing (sampleEnvelope ['1']).uuid cfg.log = some (sampleEnvelope ['1']) ∧
    (cfg.disk.Holds .ready name (sampleEnvelope ['1']) ∨ cfg.disk.Holds .quarantine name (sampleEnvelope ['1'])) := by
  have outcome : ((play Cfg.next (fun cfg d => soloSequence cfg d && bare cfg) .emptySpool crashedRun).bind fun cfg =>
      (cfg.next (.step 0 ⟨sampleClock, false⟩)).map fun cfg' => cfg.phase == .recovering &&
        (cfg'.phase == .running && standing (sampleEnvelope ['1']).uuid cfg'.log == some (sampleEnvelope ['1']))) =
      some true := by decide
  obtain ⟨cfg, played, last⟩ := Option.bind_eq_some_iff.mp outcome
  obtain ⟨cfg', move, returned⟩ := Option.map_eq_some_iff.mp last
  simp only [Bool.and_eq_true, beq_iff_eq] at returned
  obtain ⟨recovering, running, stands⟩ := returned
  have run : Reachable Cfg.next (fun cfg d => Sequential cfg d ∧ Provident cfg d) .emptySpool cfg := by
    apply run_of_single 0 AtRest.emptySpool.idle _ _ (reachable_of_play (fun _ _ => id) crashedRun played)
    · exact fun cfg d t both => thread_of_soloSequence (Bool.and_eq_true_iff.mp both).1
    · intro cfg d cfg' both idle move
      obtain ⟨mine, empty⟩ := Bool.and_eq_true_iff.mp both
      exact ⟨sequential_of_solo idle mine move, provident_of_bare empty d⟩
  obtain ⟨name, kept⟩ := recovered_standing AtRest.emptySpool rfl run (show Sequential cfg (.step 0 ⟨sampleClock, false⟩) from rfl)
    trivial move recovering running _ _ stands
  exact ⟨cfg', name, running, stands, kept⟩

def laterClock : Instant := ⟨20000, by decide⟩

def sampleAttempted : Envelope := { sampleEnvelope ['1'] with attempts := 1 }

/-- An operator's Hold is cut between its two steps, recovery keeps both copies, the copy in the
    queue moves on, and the next crash leaves the outdated one. -/
def outdatedRun : List Decision :=
  .begin 0 (.enqueue (sampleEnvelope ['1'])) sampleClock :: steps 0 5 ++
  .begin 0 (.hold (sampleTxn ++ ".1".toList)) sampleClock :: steps 0 10 ++
  .abort 0 :: .crash (samplePid 2) :: .begin 0 .recover sampleClock :: steps 0 5 ++
  .begin 0 (.claim (sampleName ['1'])) sampleClock :: steps 0 2 ++
  .begin 0 (.reschedule (claimName (samplePid 2) (sampleName ['1'])) sampleAttempted laterClock) sampleClock :: steps 0 6 ++
  .begin 0 (.claim (readyName laterClock (sampleTxn ++ ".1".toList))) laterClock :: steps 0 2 ++
  .crash (samplePid 3) :: .begin 0 .recover laterClock :: steps 0 5

/-- Recovery can drop the only copy that is up to date. -/
theorem outdated_recovered : ∃ cfg d cfg' uuid e, Reachable Cfg.next Sequential .emptySpool cfg ∧ Sequential cfg d ∧
    cfg.next d = some cfg' ∧ cfg.phase = .recovering ∧ cfg'.phase = .running ∧ standing uuid cfg'.log = some e ∧
    ∀ name, ¬ cfg'.disk.Holds .ready name e ∧ ¬ cfg'.disk.Holds .quarantine name e := by
  have outcome : ((play Cfg.next soloSequence .emptySpool outdatedRun).bind fun cfg =>
      (cfg.next (.step 0 ⟨sampleClock, false⟩)).map fun cfg' => cfg.phase == .recovering &&
        (cfg'.phase == .running && (standing (sampleEnvelope ['1']).uuid cfg'.log == some (sampleAttempted.dueAt laterClock) &&
          [Dir.ready, .quarantine].all fun dir => (cfg'.disk.list dir).all fun name =>
            decide (cfg'.disk.get dir name ≠ some (.json (sampleAttempted.dueAt laterClock)))))) =
      some true := by decide
  obtain ⟨cfg, played, last⟩ := Option.bind_eq_some_iff.mp outcome
  obtain ⟨cfg', move, returned⟩ := Option.map_eq_some_iff.mp last
  simp only [Bool.and_eq_true, beq_iff_eq, List.all_eq_true] at returned
  obtain ⟨recovering, running, stands, lost⟩ := returned
  have absent : ∀ dir ∈ [Dir.ready, .quarantine], ∀ name, ¬ cfg'.disk.Holds dir name (sampleAttempted.dueAt laterClock) := by
    intro dir within name holds
    have differs := lost dir within name (mem_list.mpr ⟨_, holds⟩)
    exact of_decide_eq_true differs holds
  refine ⟨cfg, _, cfg', _, _, ?_, show Sequential cfg (.step 0 ⟨sampleClock, false⟩) from rfl, move, recovering, running,
    stands, fun name => ⟨absent _ (by simp) name, absent _ (by simp) name⟩⟩
  apply run_of_single 0 AtRest.emptySpool.idle _ _ (reachable_of_play (fun _ _ => id) outdatedRun played)
  · exact fun cfg d t => thread_of_soloSequence
  · exact fun cfg d cfg' mine idle move => sequential_of_solo idle mine move

end Mailgw.Queue
