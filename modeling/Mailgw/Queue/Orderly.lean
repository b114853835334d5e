import Mailgw.Calls.Runs
import Mailgw.Queue.Recovery

namespace Mailgw.Queue

open Calls Spool Disk

def Cfg.world (cfg : Cfg) : World := ⟨cfg.disk, cfg.owner, cfg.issued⟩

def Op.spooled : Op → Bool
  | .enqueue _ | .quarantine _ => false
  | _ => true

/-- The steps that keep every message in one place with its body: no call fails, an operation
    starts only next to operations it may overlap with, no command is cut off between its two
    copies, and none is running while the gateway is down or recovering. -/
def Orderly (cfg : Cfg) : Decision → Prop
  | .begin _ op _ => op.spooled ∧ (op ≠ .recover → cfg.phase = .running) ∧
    ∀ t' op' rest, cfg.threads t' = .busy op' rest → Undisturbed op op' ∧ Undisturbed op' op
  | .step _ choice => choice.fails = false
  | .crash _ => ∀ t op rest, cfg.threads t = .busy op rest → op.isOperator = false
  | .abort t => ∀ op rest, cfg.threads t = .busy op rest → op.parks = false

def Recovered (claimed : Option (Name × Envelope)) (w : World) : Prop :=
  claimed = none ∧ ∀ name e, ¬ w.disk.Holds .inflight name e

def Cfg.Works (cfg : Cfg) (t : Nat) (op : Op) (rest : Fs (Option (Name × Envelope))) : Prop :=
  op = .recover ∧ cfg.phase = .recovering ∧ Sat (aloneContract t) Recovered rest cfg.world ∨
    op ≠ .recover ∧ cfg.phase = .running ∧ op.Grounded cfg.issued ∧ Sat (contract t op) (Ended t op) rest cfg.world

def Thread.Sound (cfg : Cfg) (t : Nat) : Thread → Prop
  | .idle => True
  | .holding inflightName e =>
    cfg.phase = .running ∧ cfg.owner inflightName = some t ∧ cfg.disk.Holds .inflight inflightName e
  | .busy op rest => (∃ c next, rest = .call c next) ∧ cfg.Works t op rest

structure Inv (cfg : Cfg) : Prop where
  consistent : Consistent cfg.world
  sound : ∀ t, (cfg.threads t).Sound cfg t
  undisturbed : ∀ t op rest t' op' rest', t ≠ t' → cfg.threads t = .busy op rest → cfg.threads t' = .busy op' rest' →
    Undisturbed op op'
  separate : ∀ t op rest t' op' rest', t ≠ t' → cfg.threads t = .busy op rest → cfg.threads t' = .busy op' rest' →
    ∀ uuid ∈ op.creates, uuid ∉ op'.creates
  alone : ∀ t t' rest rest', cfg.threads t = .busy .recover rest → cfg.threads t' = .busy .recover rest' → t = t'
  sole : cfg.phase = .running → ∀ uuid,
    (∀ t op rest, cfg.threads t = .busy op rest → ¬ (op.duplicates ∧ op.uuid? = some uuid)) → cfg.disk.Sole uuid
  paired : ∀ uuid, (∀ t op rest, cfg.threads t = .busy op rest → ¬ (op.parks ∧ op.uuid? = some uuid)) →
    cfg.disk.Paired uuid

theorem Rely.of_issued {t : Nat} {op : Op} {w w' : World} (consistent : Consistent w') (disk : w'.disk = w.disk)
    (owner : w'.owner = w.owner) (grows : ∀ entry ∈ w.issued, entry ∈ w'.issued) : Rely t op w w' := by
  obtain ⟨d, o, i⟩ := w
  obtain ⟨d', o', i'⟩ := w'
  simp only at disk owner
  subst disk owner
  exact {
    consistent
    issued := grows
    frozen := fun _ uuid _ _ => Untouched.refl _ uuid
    absent := fun _ _ absent => absent
    sole := fun _ _ sole => sole
    clearBody := fun _ _ _ clear => clear
    clearUuid := fun _ _ _ _ clear => clear
    bodies := fun _ _ present => present
    owned := fun _ owned => ⟨owned, rfl⟩ }

theorem Op.duplicates_of_parks {op : Op} (parks : op.parks = true) : op.duplicates = true := by
  cases op <;> first | rfl | cases parks

theorem Op.isOperator_of_parks {op : Op} (parks : op.parks = true) : op.isOperator = true := by
  cases op <;> first | rfl | cases parks

theorem Op.Grounded.mono {op : Op} {issued issued' : List (Name × Name)} (grounded : op.Grounded issued)
    (grows : ∀ entry ∈ issued, entry ∈ issued') : op.Grounded issued' := by
  cases op with
  | data txnUUID bytes parts => exact fun part member => ⟨(grounded part member).1, grows _ (grounded part member).2⟩
  | complete | reschedule | bury => exact grows _ grounded
  | _ => exact grounded

theorem sat_prog {t : Nat} {op : Op} {w : World} (pid : Fin (2 ^ 63)) (spooled : op.spooled = true)
    (other : op ≠ .recover) (armed : Armed t op w) : Sat (contract t op) (Ended t op) (op.prog pid) w := by
  cases op with
  | data txnUUID bytes parts => exact sat_data armed
  | enqueue e | quarantine e => cases spooled
  | claim name => exact sat_claim armed
  | complete inflightName e => exact sat_complete armed
  | reschedule inflightName e due => exact sat_reschedule armed
  | bury inflightName e => exact sat_bury armed
  | flush uuid => exact sat_flush armed
  | hold uuid => exact sat_hold armed
  | release uuid => exact sat_release armed
  | remove uuid => exact sat_removeEnvelope armed
  | recover => exact (other rfl).elim

theorem Thread.settle_busy {op op' : Op} {p rest : Fs (Option (Name × Envelope))}
    (busy : Thread.settle op p = .busy op' rest) : op' = op ∧ rest = p ∧ ∃ c next, p = .call c next := by
  match p with
  | .done none => cases busy
  | .done (some (inflightName, e)) => cases busy
  | .call c next =>
    cases busy
    exact ⟨rfl, rfl, c, next, rfl⟩

theorem Attempted.identity {e e' : Envelope} (attempted : Attempted e e') (valid : e.Valid) :
    e'.Valid ∧ e'.uuid = e.uuid ∧ e'.body = e.body := by
  obtain ⟨same, addrs⟩ := attempted
  have uuid : e'.uuid = e.uuid := by rw [same]
  have body : e'.body = e.body := by rw [same]
  refine ⟨valid.congr ?_ uuid ?_ ?_ body ?_ ?_, uuid, body⟩
  · rw [same]
  · rw [same]
  · rw [same]
  · unfold Envelope.rcptAddrs at addrs
    rw [← List.map_eq_nil_iff (f := Recipient.addr), addrs, List.map_eq_nil_iff]
  · rw [same]

theorem Thread.Sound.mono {cfg cfg' : Cfg} {t : Nat} {thread : Thread} (sound : thread.Sound cfg t)
    (phase : cfg'.phase = cfg.phase) (held : ∀ inflightName e, thread = .holding inflightName e →
      cfg.owner inflightName = some t → cfg.disk.Holds .inflight inflightName e →
      cfg'.owner inflightName = some t ∧ cfg'.disk.Holds .inflight inflightName e)
    (rely : ∀ op rest, thread = .busy op rest → op ≠ .recover → Rely t op cfg.world cfg'.world)
    (alone : ∀ rest, thread = .busy .recover rest → cfg'.world = cfg.world) : thread.Sound cfg' t := by
  match thread with
  | .idle => trivial
  | .holding inflightName e =>
    obtain ⟨running, owned, holds⟩ := sound
    exact ⟨phase.trans running, held _ _ rfl owned holds⟩
  | .busy op rest =>
    obtain ⟨⟨c, next, rfl⟩, ⟨recovers, recovering, sat⟩ | ⟨other, running, grounded, sat⟩⟩ := sound
    · subst recovers
      refine ⟨⟨c, next, rfl⟩, .inl ⟨rfl, phase.trans recovering, ?_⟩⟩
      rwa [alone _ rfl]
    · have move := rely _ _ rfl other
      exact ⟨⟨c, next, rfl⟩, .inr ⟨other, phase.trans running, grounded.mono move.issued, sat.interfere move⟩⟩

/-- A thread that has just started or made a call is sound, and if it has returned, its operation
    leaves a single copy. -/
theorem settled_sound (cfg : Cfg) {t : Nat} {op : Op} {p : Fs (Option (Name × Envelope))} (other : op ≠ .recover)
    (running : cfg.phase = .running) (grounded : op.Grounded cfg.issued)
    (sat : Sat (contract t op) (Ended t op) p cfg.world) :
    (Thread.settle op p).Sound cfg t ∧
      ((∀ rest, Thread.settle op p ≠ .busy op rest) → op.duplicates → ∀ uuid, op.uuid? = some uuid →
        cfg.disk.Sole uuid) := by
  match p with
  | .done none => exact ⟨trivial, fun _ => sat.sole⟩
  | .done (some (inflightName, e)) =>
    obtain ⟨owned, holds⟩ := sat.held inflightName e rfl
    exact ⟨⟨running, owned, holds⟩, fun _ => sat.sole⟩
  | .call c next =>
    exact ⟨⟨⟨c, next, rfl⟩, .inr ⟨other, running, grounded, sat⟩⟩, fun idle => (idle _ rfl).elim⟩

theorem Consistent.issue {w : World} {txnUUID bytes : Name} {parts : List (Bool × Envelope)}
    (consistent : Consistent w) (fresh : freshParts w.issued txnUUID parts) :
    Consistent { w with issued := Cfg.issuedBy (.data txnUUID bytes parts) ++ w.issued } := by
  obtain ⟨-, each, -⟩ := fresh
  have made : ∀ {uuid body}, (uuid, body) ∈ Cfg.issuedBy (.data txnUUID bytes parts) →
      body = Op.bodyName txnUUID ∧ uuid ∉ w.issued.map Prod.fst := by
    intro uuid body member
    obtain ⟨part, within, same⟩ := List.mem_map.mp member
    cases same
    exact each part within
  refine ⟨?_, ?_, consistent.bodies, consistent.owned⟩
  · intro dir name file outside got
    obtain ⟨e, same, valid, named, ident⟩ := consistent.named dir name file outside got
    exact ⟨e, same, valid, named, List.mem_append_right _ ident⟩
  · intro uuid body body' member member'
    rcases List.mem_append.mp member with new | old <;> rcases List.mem_append.mp member' with new' | old'
    · exact (made new).1.trans (made new').1.symm
    · exact ((made new).2 (List.mem_map_of_mem old')).elim
    · exact ((made new').2 (List.mem_map_of_mem old)).elim
    · exact consistent.oneBody uuid body body' old old'

theorem Consistent.fresh_absent {w : World} {uuid : Name} (consistent : Consistent w)
    (fresh : uuid ∉ w.issued.map Prod.fst) : ¬ w.disk.Present uuid := by
  rintro ⟨dir, name, e, outside, holds, rfl⟩
  obtain ⟨-, -, ident⟩ := consistent.file outside holds
  exact fresh (List.mem_map_of_mem ident)

section MayBegin
variable {thread : Thread} {cfg : Cfg} {clock : Instant} {inflightName : Name} {e' : Envelope}

theorem Thread.mayBegin.fresh {txnUUID bytes : Name} {parts : List (Bool × Envelope)}
    (may : thread.mayBegin cfg clock (.data txnUUID bytes parts)) : freshParts cfg.issued txnUUID parts := by
  cases thread <;> exact And.right may

theorem Thread.mayBegin.crashed (may : thread.mayBegin cfg clock .recover) : cfg.phase = .crashed := by
  cases thread <;> exact And.right may

theorem Thread.mayBegin.complete (may : thread.mayBegin cfg clock (.complete inflightName e')) :
    ∃ e, thread = .holding inflightName e ∧ Attempted e e' ∧ e'.isDone = true := by
  cases thread with
  | holding held e =>
    obtain ⟨rfl, attempted, done⟩ := may
    exact ⟨e, rfl, attempted, done⟩
  | _ => exact may.elim

theorem Thread.mayBegin.reschedule {due : Instant} (may : thread.mayBegin cfg clock (.reschedule inflightName e' due)) :
    ∃ e, thread = .holding inflightName e ∧ Attempted e e' := by
  cases thread with
  | holding held e =>
    obtain ⟨rfl, attempted⟩ := may
    exact ⟨e, rfl, attempted⟩
  | _ => exact may.elim

theorem Thread.mayBegin.bury (may : thread.mayBegin cfg clock (.bury inflightName e')) :
    ∃ e, thread = .holding inflightName e ∧ Attempted e e' ∧ outlived cfg.maxLifetime clock e' := by
  cases thread with
  | holding held e =>
    obtain ⟨rfl, attempted, old⟩ := may
    exact ⟨e, rfl, attempted, old⟩
  | _ => exact may.elim

end MayBegin

namespace Inv

variable {cfg cfg' : Cfg} {t : Nat}

theorem holding (inv : Inv cfg) {inflightName : Name} {e : Envelope} (thread : cfg.threads t = .holding inflightName e) :
    cfg.phase = .running ∧ cfg.owner inflightName = some t ∧ cfg.disk.Holds .inflight inflightName e := by
  have sound := inv.sound t
  rwa [thread] at sound

theorem busy (inv : Inv cfg) {op : Op} {rest : Fs (Option (Name × Envelope))} (thread : cfg.threads t = .busy op rest) :
    (∃ c next, rest = .call c next) ∧ cfg.Works t op rest := by
  have sound := inv.sound t
  rwa [thread] at sound

theorem armed (inv : Inv cfg) {op : Op} {clock : Instant} (running : cfg.phase = .running) (other : op ≠ .recover)
    (may : (cfg.threads t).mayBegin cfg clock op)
    (apart : ∀ t' op' rest, cfg.threads t' = .busy op' rest → Undisturbed op' op) :
    Armed t op { cfg.world with issued := Cfg.issuedBy op ++ cfg.issued } := by
  have one : ∀ uuid, op.uuid? = some uuid → cfg.disk.Sole uuid := by
    intro uuid mine
    refine inv.sole running uuid fun t' op' rest busy both => ?_
    exact (apart t' op' rest busy).apart both.1 uuid both.2 mine
  have finishing : ∀ {inflightName e'}, (∃ e, cfg.threads t = .holding inflightName e ∧ Attempted e e') →
      e'.Valid ∧ cfg.owner inflightName = some t ∧
        (∃ e₀, cfg.disk.Holds .inflight inflightName e₀ ∧ e₀.uuid = e'.uuid) ∧ (e'.uuid, e'.body) ∈ cfg.issued := by
    rintro inflightName e' ⟨e, thread, attempted⟩
    obtain ⟨-, owned, holds⟩ := inv.holding thread
    obtain ⟨valid, -, ident⟩ := inv.consistent.file (by decide) holds
    obtain ⟨valid', uuid, body⟩ := attempted.identity valid
    exact ⟨valid', owned, ⟨e, holds, uuid.symm⟩, by rw [uuid, body]; exact ident⟩
  cases op with
  | recover => exact (other rfl).elim
  | data txnUUID bytes parts =>
    have fresh := may.fresh
    refine ⟨inv.consistent.issue fresh, fun part member => ?_, fun _ none => (by cases none), fresh.1, ?_⟩
    · exact ⟨(fresh.2.1 part member).1, List.mem_append_left _ (List.mem_map_of_mem member)⟩
    · exact fun part member => inv.consistent.fresh_absent (fresh.2.1 part member).2
  | complete inflightName e' =>
    obtain ⟨e, thread, attempted, -⟩ := may.complete
    obtain ⟨valid, owned, there, ident⟩ := finishing ⟨e, thread, attempted⟩
    exact ⟨inv.consistent, ident, one, valid, owned, there⟩
  | reschedule inflightName e' due =>
    obtain ⟨valid, owned, there, ident⟩ := finishing may.reschedule
    exact ⟨inv.consistent, ident, one, valid, owned, there⟩
  | bury inflightName e' =>
    obtain ⟨e, thread, attempted, -⟩ := may.bury
    obtain ⟨valid, owned, there, ident⟩ := finishing ⟨e, thread, attempted⟩
    exact ⟨inv.consistent, ident, one, valid, owned, there⟩
  | _ => exact ⟨inv.consistent, trivial, one, trivial⟩

theorem not_busy_of_mayBegin {op : Op} {clock : Instant} (may : (cfg.threads t).mayBegin cfg clock op) (op' : Op)
    (rest : Fs (Option (Name × Envelope))) : cfg.threads t ≠ .busy op' rest := by
  intro thread
  rw [thread] at may
  cases op <;> simp [Thread.mayBegin] at may

theorem settle_update {op op' : Op} {p rest : Fs (Option (Name × Envelope))} {threads : Nat → Thread} {t' : Nat}
    (busy : Function.update threads t (Thread.settle op p) t' = .busy op' rest) :
    t' = t ∧ op' = op ∧ rest = p ∨ t' ≠ t ∧ threads t' = .busy op' rest := by
  by_cases same : t' = t
  · subst same
    rw [Function.update_self] at busy
    obtain ⟨rfl, rfl, -⟩ := Thread.settle_busy busy
    exact .inl ⟨rfl, rfl, rfl⟩
  · rw [Function.update_of_ne same] at busy
    exact .inr ⟨same, busy⟩

theorem begin_recover (inv : Inv cfg) {clock : Instant} (may : (cfg.threads t).mayBegin cfg clock .recover) :
    Inv { cfg with
      threads := Function.update cfg.threads t (.busy .recover (Op.recover.prog cfg.pid))
      phase := .recovering
      log := .begun .recover clock :: cfg.log } := by
  have down := may.crashed
  have nobody : ∀ t' op rest, cfg.threads t' ≠ .busy op rest := by
    intro t' op rest thread
    rcases (inv.busy thread).2 with ⟨-, recovering, -⟩ | ⟨-, running, -⟩
    · rw [down] at recovering
      cases recovering
    · rw [down] at running
      cases running
  have pairs := fun uuid => inv.paired uuid fun t' op rest thread => (nobody t' op rest thread).elim
  have quiet : ∀ t' op rest, Function.update cfg.threads t (.busy .recover (Op.recover.prog cfg.pid)) t' = .busy op rest →
      t' = t ∧ op = .recover := by
    intro t' op rest busy
    by_cases same : t' = t
    · subst same
      rw [Function.update_self] at busy
      cases busy
      exact ⟨rfl, rfl⟩
    · rw [Function.update_of_ne same] at busy
      exact (nobody t' op rest busy).elim
  refine ⟨inv.consistent, ?_, ?_, ?_, ?_, ?_, fun uuid _ => pairs uuid⟩
  · intro t'
    by_cases same : t' = t
    · subst same
      simp only [Function.update_self]
      refine ⟨⟨_, _, rfl⟩, .inl ⟨rfl, rfl, Sat.bind ((sat_recover inv.consistent.filed ?_).mono ?_)⟩⟩
      · exact oneInflight_of_paired pairs
      · exact fun r w' done => ⟨rfl, done.2⟩
    · simp only [Function.update_of_ne same]
      match thread : cfg.threads t' with
      | .idle => trivial
      | .holding inflightName e =>
        have running := (inv.holding thread).1
        rw [down] at running
        cases running
      | .busy op rest => exact (nobody t' op rest thread).elim
  · intro t₁ op₁ rest₁ t₂ op₂ rest₂ differs busy₁ busy₂
    exact (differs ((quiet _ _ _ busy₁).1.trans (quiet _ _ _ busy₂).1.symm)).elim
  · intro t₁ op₁ rest₁ t₂ op₂ rest₂ differs busy₁ busy₂
    exact (differs ((quiet _ _ _ busy₁).1.trans (quiet _ _ _ busy₂).1.symm)).elim
  · exact fun t₁ t₂ rest₁ rest₂ busy₁ busy₂ => (quiet _ _ _ busy₁).1.trans (quiet _ _ _ busy₂).1.symm
  · exact fun running => by cases running

theorem phaseAfter_other {phase : Phase} {op : Op} {thread : Thread} (other : op ≠ .recover) :
    Cfg.phaseAfter phase op thread = phase := by
  cases op <;> first | rfl | exact (other rfl).elim

theorem begin_op (inv : Inv cfg) {op : Op} {clock : Instant} (may : (cfg.threads t).mayBegin cfg clock op)
    (other : op ≠ .recover) (spooled : op.spooled = true) (running : cfg.phase = .running)
    (apart : ∀ t' op' rest, cfg.threads t' = .busy op' rest → Undisturbed op op' ∧ Undisturbed op' op) :
    Inv { cfg with
      threads := Function.update cfg.threads t (Thread.settle op (op.prog cfg.pid))
      issued := Cfg.issuedBy op ++ cfg.issued
      log := .begun op clock :: cfg.log } := by
  have armed := inv.armed running other may fun t' op' rest busy => (apart t' op' rest busy).2
  have free := not_busy_of_mayBegin may
  have grows : ∀ entry ∈ cfg.issued, entry ∈ Cfg.issuedBy op ++ cfg.issued :=
    fun entry member => List.mem_append_right _ member
  obtain ⟨started, ended⟩ := settled_sound { cfg with
    threads := Function.update cfg.threads t (Thread.settle op (op.prog cfg.pid))
    issued := Cfg.issuedBy op ++ cfg.issued
    log := .begun op clock :: cfg.log } other running armed.grounded (sat_prog cfg.pid spooled other armed)
  have known : ∀ {t' op' rest}, cfg.threads t' = .busy op' rest → ∀ uuid ∈ op'.creates, uuid ∈ cfg.issued.map Prod.fst := by
    intro t' op' rest busy uuid member
    rcases (inv.busy busy).2 with ⟨rfl, -⟩ | ⟨-, -, grounded, -⟩
    · cases member
    · cases op' with
      | data txnUUID bytes parts =>
        obtain ⟨part, within, rfl⟩ := List.mem_map.mp member
        exact List.mem_map_of_mem (grounded part within).2
      | _ => cases member
  have fresh : ∀ uuid ∈ op.creates, uuid ∉ cfg.issued.map Prod.fst := by
    intro uuid member
    cases op with
    | data txnUUID bytes parts =>
      obtain ⟨part, within, rfl⟩ := List.mem_map.mp member
      exact (may.fresh.2.1 part within).2
    | _ => cases member
  refine ⟨armed.consistent, ?_, ?_, ?_, ?_, ?_, ?_⟩
  · intro t'
    by_cases same : t' = t
    · subst same
      simpa only [Function.update_self] using started
    · simp only [Function.update_of_ne same]
      refine (inv.sound t').mono rfl (fun _ _ _ owned holds => ⟨owned, holds⟩) ?_ ?_
      · exact fun op' rest _ _ => Rely.of_issued armed.consistent rfl rfl grows
      · intro rest busy
        rcases (inv.busy busy).2 with ⟨-, recovering, -⟩ | ⟨not, -⟩
        · rw [running] at recovering
          cases recovering
        · exact (not rfl).elim
  · intro t₁ op₁ rest₁ t₂ op₂ rest₂ differs busy₁ busy₂
    rcases settle_update busy₁ with ⟨rfl, rfl, -⟩ | ⟨-, old₁⟩ <;>
      rcases settle_update busy₂ with ⟨rfl, rfl, -⟩ | ⟨-, old₂⟩
    · exact (differs rfl).elim
    · exact (apart _ _ _ old₂).1
    · exact (apart _ _ _ old₁).2
    · exact inv.undisturbed _ _ _ _ _ _ differs old₁ old₂
  · intro t₁ op₁ rest₁ t₂ op₂ rest₂ differs busy₁ busy₂ uuid created created'
    rcases settle_update busy₁ with ⟨rfl, rfl, -⟩ | ⟨-, old₁⟩ <;>
      rcases settle_update busy₂ with ⟨rfl, rfl, -⟩ | ⟨-, old₂⟩
    · exact differs rfl
    · exact fresh uuid created (known old₂ uuid created')
    · exact fresh uuid created' (known old₁ uuid created)
    · exact inv.separate _ _ _ _ _ _ differs old₁ old₂ uuid created created'
  · intro t₁ t₂ rest₁ rest₂ busy₁ busy₂
    rcases settle_update busy₁ with ⟨-, same, -⟩ | ⟨-, old₁⟩
    · exact (other same.symm).elim
    · rcases settle_update busy₂ with ⟨-, same, -⟩ | ⟨-, old₂⟩
      · exact (other same.symm).elim
      · exact inv.alone _ _ _ _ old₁ old₂
  · intro _ uuid still
    refine inv.sole running uuid fun t' op' rest busy => ?_
    have same : t' ≠ t := fun same => free op' rest (same ▸ busy)
    exact still t' op' rest (by simpa only [Function.update_of_ne same] using busy)
  · intro uuid still
    refine inv.paired uuid fun t' op' rest busy => ?_
    have same : t' ≠ t := fun same => free op' rest (same ▸ busy)
    exact still t' op' rest (by simpa only [Function.update_of_ne same] using busy)

section Step
variable {op : Op} {c : FsCall} {next : c.Answer → Fs (Option (Name × Envelope))} {choice : Choice}

def stepped (cfg : Cfg) (t : Nat) (op : Op) (c : FsCall) (next : c.Answer → Fs (Option (Name × Envelope)))
    (choice : Choice) : Cfg :=
  let result := exec choice cfg.disk c
  let thread := Thread.settle op (next result.1)
  { cfg with
    disk := result.2
    threads := Function.update cfg.threads t thread
    phase := Cfg.phaseAfter cfg.phase op thread
    owner := Cfg.ownAfter t cfg.owner c result.1
    log := Cfg.record op c result.1 ++ cfg.log }

theorem worldStep_stepped (cfg : Cfg) (t : Nat) (op : Op) (c : FsCall)
    (next : c.Answer → Fs (Option (Name × Envelope))) (calm : choice.fails = false) :
    worldStep t c cfg.world (exec choice cfg.disk c).1 (stepped cfg t op c next choice).world :=
  ⟨choice, calm, rfl, rfl, rfl⟩

theorem step_op (inv : Inv cfg) (other : op ≠ .recover) (thread : cfg.threads t = .busy op (.call c next))
    (calm : choice.fails = false) : Inv (stepped cfg t op c next choice) := by
  obtain ⟨recovers, -⟩ | ⟨-, running, grounded, sat⟩ := (inv.busy thread).2
  · exact (other recovers).elim
  obtain ⟨guar, rest⟩ := sat.answer (worldStep_stepped cfg t op c next calm)
  have phase : (stepped cfg t op c next choice).phase = cfg.phase := phaseAfter_other other
  obtain ⟨started, ended⟩ := settled_sound (stepped cfg t op c next choice) other (phase.trans running)
    grounded rest
  have pending : ∀ {t' op' rest'}, cfg.threads t' = .busy op' rest' → t' ≠ t →
      (stepped cfg t op c next choice).threads t' = .busy op' rest' := by
    intro t' op' rest' busy apart
    rw [← busy]
    exact Function.update_of_ne apart _ _
  refine ⟨guar.consistent, ?_, ?_, ?_, ?_, ?_, ?_⟩
  · intro t'
    by_cases same : t' = t
    · subst same
      simpa only [stepped, Function.update_self] using started
    · simp only [stepped, Function.update_of_ne same]
      refine (inv.sound t').mono phase ?_ ?_ ?_
      · intro inflightName e _ owned holds
        obtain ⟨owned', kept⟩ := guar.owned inflightName t' same owned
        exact ⟨owned', kept.trans holds⟩
      · intro op' rest' busy other'
        obtain ⟨recovers, -⟩ | ⟨-, -, grounded', -⟩ := (inv.busy busy).2
        · exact (other' recovers).elim
        · exact guar.rely inv.consistent same grounded grounded'
            (inv.undisturbed _ _ _ _ _ _ (Ne.symm same) thread busy)
            (inv.undisturbed _ _ _ _ _ _ same busy thread) (inv.separate _ _ _ _ _ _ same busy thread)
      · intro rest' busy
        obtain ⟨-, recovering, -⟩ | ⟨not, -⟩ := (inv.busy busy).2
        · rw [running] at recovering
          cases recovering
        · exact (not rfl).elim
  · intro t₁ op₁ rest₁ t₂ op₂ rest₂ differs busy₁ busy₂
    rcases settle_update busy₁ with ⟨rfl, rfl, -⟩ | ⟨-, old₁⟩ <;>
      rcases settle_update busy₂ with ⟨rfl, rfl, -⟩ | ⟨-, old₂⟩
    · exact (differs rfl).elim
    · exact inv.undisturbed _ _ _ _ _ _ differs thread old₂
    · exact inv.undisturbed _ _ _ _ _ _ differs old₁ thread
    · exact inv.undisturbed _ _ _ _ _ _ differs old₁ old₂
  · intro t₁ op₁ rest₁ t₂ op₂ rest₂ differs busy₁ busy₂
    rcases settle_update busy₁ with ⟨rfl, rfl, -⟩ | ⟨-, old₁⟩ <;>
      rcases settle_update busy₂ with ⟨rfl, rfl, -⟩ | ⟨-, old₂⟩
    · exact (differs rfl).elim
    · exact inv.separate _ _ _ _ _ _ differs thread old₂
    · exact inv.separate _ _ _ _ _ _ differs old₁ thread
    · exact inv.separate _ _ _ _ _ _ differs old₁ old₂
  · intro t₁ t₂ rest₁ rest₂ busy₁ busy₂
    rcases settle_update busy₁ with ⟨-, same, -⟩ | ⟨-, old₁⟩
    · exact (other same.symm).elim
    · rcases settle_update busy₂ with ⟨-, same, -⟩ | ⟨-, old₂⟩
      · exact (other same.symm).elim
      · exact inv.alone _ _ _ _ old₁ old₂
  · intro _ uuid still
    by_cases mine : op.duplicates ∧ op.uuid? = some uuid
    · refine ended (fun rest' settled => still t op rest' ?_ mine) mine.1 uuid mine.2
      rw [← settled]
      exact Function.update_self _ _ _
    · refine guar.sole uuid mine (inv.sole running uuid fun t' op' rest' busy => ?_)
      by_cases same : t' = t
      · subst same
        rw [thread] at busy
        cases busy
        exact mine
      · exact still t' op' rest' (pending busy same)
  · intro uuid still
    by_cases mine : op.parks ∧ op.uuid? = some uuid
    · refine (ended (fun rest' settled => still t op rest' ?_ mine) (Op.duplicates_of_parks mine.1) uuid mine.2).paired
      rw [← settled]
      exact Function.update_self _ _ _
    · refine guar.paired uuid mine (inv.paired uuid fun t' op' rest' busy => ?_)
      by_cases same : t' = t
      · subst same
        rw [thread] at busy
        cases busy
        exact mine
      · exact still t' op' rest' (pending busy same)

theorem step_recover (inv : Inv cfg) (thread : cfg.threads t = .busy .recover (.call c next))
    (calm : choice.fails = false) : Inv (stepped cfg t .recover c next choice) := by
  obtain ⟨-, recovering, sat⟩ | ⟨not, -⟩ := (inv.busy thread).2
  swap
  · exact (not rfl).elim
  obtain ⟨moved, rest⟩ := sat.answer (worldStep_stepped cfg t .recover c next calm)
  have quiet : ∀ {t' op' rest'}, cfg.threads t' = .busy op' rest' → t' = t ∧ op' = .recover := by
    intro t' op' rest' busy
    obtain ⟨rfl, -⟩ | ⟨-, running, -⟩ := (inv.busy busy).2
    · exact ⟨inv.alone _ _ _ _ busy thread, rfl⟩
    · rw [recovering] at running
      cases running
  have quiet' : ∀ {t' op' rest'}, (stepped cfg t .recover c next choice).threads t' = .busy op' rest' →
      t' = t ∧ op' = .recover := by
    intro t' op' rest' busy
    rcases settle_update busy with ⟨rfl, rfl, -⟩ | ⟨-, old⟩
    · exact ⟨rfl, rfl⟩
    · exact quiet old
  have pairs : ∀ uuid, cfg.disk.Paired uuid := by
    refine fun uuid => inv.paired uuid fun t' op' rest' busy parks => ?_
    obtain ⟨-, rfl⟩ := quiet busy
    exact Bool.noConfusion parks.1
  have pairs' : ∀ uuid, (stepped cfg t .recover c next choice).disk.Paired uuid :=
    fun uuid => moved.paired inv.consistent.filed (pairs uuid)
  have consistent := moved.consistent inv.consistent
  refine ⟨consistent, ?_, ?_, ?_, ?_, ?_, fun uuid _ => pairs' uuid⟩
  · intro t'
    by_cases same : t' = t
    · subst same
      simp only [stepped, Function.update_self]
      match settled : next (exec choice cfg.disk c).1 with
      | .done none => trivial
      | .done (some (inflightName, e)) =>
        rw [settled] at rest
        cases rest.1
      | .call c' next' =>
        rw [settled] at rest
        exact ⟨⟨c', next', rfl⟩, .inl ⟨rfl, rfl, rest⟩⟩
    · simp only [stepped, Function.update_of_ne same]
      match waiting : cfg.threads t' with
      | .idle => trivial
      | .holding inflightName e =>
        have running := (inv.holding waiting).1
        rw [recovering] at running
        cases running
      | .busy op' rest' => exact (same (quiet waiting).1).elim
  · intro t₁ op₁ rest₁ t₂ op₂ rest₂ differs busy₁ busy₂
    exact (differs ((quiet' busy₁).1.trans (quiet' busy₂).1.symm)).elim
  · intro t₁ op₁ rest₁ t₂ op₂ rest₂ differs busy₁ busy₂
    exact (differs ((quiet' busy₁).1.trans (quiet' busy₂).1.symm)).elim
  · exact fun t₁ t₂ rest₁ rest₂ busy₁ busy₂ => (quiet' busy₁).1.trans (quiet' busy₂).1.symm
  · intro running uuid _
    match settled : next (exec choice cfg.disk c).1 with
    | .call c' next' =>
      simp only [stepped, settled] at running
      cases running
    | .done value =>
      rw [settled] at rest
      have empty := rest.2
      intro dir₁ name₁ e₁ dir₂ name₂ e₂ live₁ live₂ holds₁ holds₂ of₁ of₂
      refine pairs' uuid _ _ _ _ _ _ live₁ live₂ holds₁ holds₂ of₁ of₂ ⟨?_, ?_⟩
      · rintro rfl
        exact (empty _ _ holds₁).elim
      · rintro rfl
        exact (empty _ _ holds₂).elim

end Step

theorem crash (inv : Inv cfg) (pid : Fin (2 ^ 63))
    (calm : ∀ t op rest, cfg.threads t = .busy op rest → op.isOperator = false) :
    ∀ cfg', cfg.next (.crash pid) = some cfg' → Inv cfg' := by
  rintro _ ⟨⟩
  have idle : ∀ t', (cfg.threads t').afterCrash = .idle := by
    intro t'
    match thread : cfg.threads t' with
    | .idle => rfl
    | .holding inflightName e => rfl
    | .busy op rest =>
      simp only [Thread.afterCrash, calm t' op rest thread]
      rfl
  have nobody : ∀ {t' op rest}, (cfg.threads t').afterCrash ≠ .busy op rest := by
    intro t' op rest busy
    rw [idle t'] at busy
    cases busy
  refine ⟨⟨inv.consistent.named, inv.consistent.oneBody, inv.consistent.bodies, fun _ _ owned => (by cases owned)⟩,
    fun t' => ?_, fun _ _ _ _ _ _ _ busy => (nobody busy).elim, fun _ _ _ _ _ _ _ busy => (nobody busy).elim,
    fun _ _ _ _ busy => (nobody busy).elim, fun running => (by cases running), fun uuid _ => ?_⟩
  · simp only [idle t']
    trivial
  · refine inv.paired uuid fun t' op rest busy parks => ?_
    have operator := Op.isOperator_of_parks parks.1
    rw [calm t' op rest busy] at operator
    cases operator

theorem abort (inv : Inv cfg) {op : Op} {rest : Fs (Option (Name × Envelope))} (thread : cfg.threads t = .busy op rest)
    (single : op.parks = false) (operator : op.isOperator = true) :
    Inv { cfg with threads := Function.update cfg.threads t .idle } := by
  have older : ∀ {t' op' rest'}, Function.update cfg.threads t .idle t' = .busy op' rest' →
      cfg.threads t' = .busy op' rest' := by
    intro t' op' rest' busy
    by_cases same : t' = t
    · subst same
      rw [Function.update_self] at busy
      cases busy
    · rwa [Function.update_of_ne same] at busy
  have still : ∀ {t' op' rest'}, cfg.threads t' = .busy op' rest' →
      Function.update cfg.threads t .idle t' = .busy op' rest' ∨ op' = op := by
    intro t' op' rest' busy
    by_cases same : t' = t
    · subst same
      rw [thread] at busy
      cases busy
      exact .inr rfl
    · exact .inl (by rwa [Function.update_of_ne same])
  refine ⟨inv.consistent, fun t' => ?_, fun _ _ _ _ _ _ differs busy busy' =>
    inv.undisturbed _ _ _ _ _ _ differs (older busy) (older busy'), fun _ _ _ _ _ _ differs busy busy' =>
    inv.separate _ _ _ _ _ _ differs (older busy) (older busy'), fun _ _ _ _ busy busy' =>
    inv.alone _ _ _ _ (older busy) (older busy'), fun running uuid none => ?_, fun uuid none => ?_⟩
  · by_cases same : t' = t
    · subst same
      simp only [Function.update_self]
      trivial
    · simp only [Function.update_of_ne same]
      exact inv.sound t'
  · refine inv.sole running uuid fun t' op' rest' busy both => ?_
    rcases still busy with remains | rfl
    · exact none t' op' rest' remains both
    · cases op' <;> simp_all [Op.duplicates, Op.parks, Op.isOperator]
  · refine inv.paired uuid fun t' op' rest' busy both => ?_
    rcases still busy with remains | rfl
    · exact none t' op' rest' remains both
    · rw [single] at both
      exact Bool.noConfusion both.1

theorem step (cfg : Cfg) (d : Decision) (cfg' : Cfg) (inv : Inv cfg) (orderly : Orderly cfg d)
    (move : cfg.next d = some cfg') : Inv cfg' := by
  cases d with
  | begin t op clock =>
    obtain ⟨spooled, running, apart⟩ := orderly
    simp only [Cfg.next] at move
    split at move
    · rename_i may
      cases move
      by_cases recovers : op = .recover
      · subst recovers
        exact inv.begin_recover may
      · rw [phaseAfter_other recovers]
        exact inv.begin_op may recovers spooled (running recovers) apart
    · cases move
  | step t choice =>
    simp only [Cfg.next] at move
    split at move
    · rename_i op c next thread
      cases move
      by_cases recovers : op = .recover
      · subst recovers
        exact inv.step_recover thread orderly
      · exact inv.step_op recovers thread orderly
    · cases move
  | crash pid => exact inv.crash pid orderly cfg' move
  | abort t =>
    simp only [Cfg.next] at move
    split at move
    · rename_i op rest thread
      split at move
      · rename_i operator
        cases move
        exact inv.abort thread (orderly op rest thread) operator
      · cases move
    · cases move

end Inv

/-- A spool at rest: nobody works on it, and what is on disk is in order. -/
structure AtRest (cfg : Cfg) : Prop where
  consistent : Consistent cfg.world
  idle : ∀ t, cfg.threads t = .idle
  sole : ∀ uuid, cfg.disk.Sole uuid

theorem AtRest.inv {cfg : Cfg} (rest : AtRest cfg) : Inv cfg where
  consistent := rest.consistent
  sound t := by
    rw [rest.idle t]
    trivial
  undisturbed _ _ _ _ _ _ _ busy := by
    rw [rest.idle] at busy
    cases busy
  separate _ _ _ _ _ _ _ busy := by
    rw [rest.idle] at busy
    cases busy
  alone _ _ _ _ busy := by
    rw [rest.idle] at busy
    cases busy
  sole _ uuid _ := rest.sole uuid
  paired uuid _ := (rest.sole uuid).paired

theorem inv_of_reachable {start cfg : Cfg} (rest : AtRest start) (reachable : Reachable Cfg.next Orderly start cfg) :
    Inv cfg :=
  reachable.invariant Inv rest.inv Inv.step

end Mailgw.Queue
