import Mailgw.Queue.CrashSafety

namespace Mailgw.Queue

open Calls Spool Disk

namespace Op

def gateway : Op → Bool
  | enqueue _ | quarantine _ | claim _ | complete _ _ | reschedule _ _ _ | bury _ _ => true
  | _ => false

def creating : Op → Bool
  | enqueue _ | quarantine _ => true
  | _ => false

end Op

/-- The steps of a gateway that does not crash, whatever calls fail. The uuid of an envelope that
    is being enqueued is new, and nobody else's yet. -/
def Uninterrupted (cfg : Cfg) : Decision → Prop
  | .begin _ op _ => op.gateway = true ∧
    (∀ uuid, op.creating = true → op.uuid? = some uuid → ¬ cfg.disk.Present uuid) ∧
    ∀ t op' rest, cfg.threads t = .busy op' rest → op.creating = true ∨ op'.creating = true → op.uuid? ≠ op'.uuid?
  | .step _ _ => True
  | _ => False

/-- No call of a reschedule fails, nor the read of a claim, and no claim overlaps with the
    reschedule of its envelope. -/
def Spared (cfg : Cfg) : Decision → Prop
  | .begin _ op _ => ∀ t op' rest, cfg.threads t = .busy op' rest → op.duplicates = true ∨ op'.duplicates = true →
    op.uuid? ≠ op'.uuid?
  | .step t choice => ∀ op c next, cfg.threads t = .busy op (.call c next) → choice.fails = true → op.brittle c = false
  | _ => True

/-- A worker found no recipient of the envelope pending, or that it outlived its time. -/
def Settled (maxLifetime : Nat) (uuid : Name) (log : List Event) : Prop :=
  (∃ name e clock, .begun (.complete name e) clock ∈ log ∧ e.uuid = uuid ∧ e.isDone = true) ∨
    ∃ name e clock, .begun (.bury name e) clock ∈ log ∧ e.uuid = uuid ∧ outlived maxLifetime clock e

def Thread.Processes (uuid : Name) : Thread → Prop
  | .idle => False
  | .holding _ e => e.uuid = uuid
  | .busy op _ => op.uuid? = some uuid

theorem Settled.mono {maxLifetime : Nat} {uuid : Name} {log log' : List Event} (settled : Settled maxLifetime uuid log)
    (grows : ∀ event ∈ log, event ∈ log') : Settled maxLifetime uuid log' := by
  rcases settled with ⟨name, e, clock, begun, rest⟩ | ⟨name, e, clock, begun, rest⟩
  · exact .inl ⟨name, e, clock, grows _ begun, rest⟩
  · exact .inr ⟨name, e, clock, grows _ begun, rest⟩

namespace Op

variable {op : Op}

theorem creating_or_duplicates (exclusive : op.exclusive = true) : op.creating = true ∨ op.duplicates = true := by
  cases op <;> first | exact .inl rfl | exact .inr rfl | cases exclusive

theorem gateway_not_operator (gateway : op.gateway = true) : op.isOperator = false := by
  cases op <;> first | rfl | cases gateway

theorem exclusive_of_duplicates (gateway : op.gateway = true) (duplicates : op.duplicates = true) :
    op.exclusive = true := by
  cases op <;> first | rfl | exact Bool.noConfusion gateway | exact Bool.noConfusion duplicates

theorem gathers_of_buries (gateway : op.gateway = true) (buries : op.buries = true) : op.gathers = true := by
  cases op <;> first | rfl | exact Bool.noConfusion gateway | exact Bool.noConfusion buries

end Op

namespace Ledger

variable {t t' : Nat} {op op' : Op} {w w₁ : Ledger}

theorem Guar.rely (guar : Guar t op w w₁) (other : t' ≠ t) (gateway : op.gateway = true) (gateway' : op'.gateway = true)
    (apart : op.exclusive = true → op.uuid? ≠ op'.uuid?) (apart' : op'.exclusive = true → op'.uuid? ≠ op.uuid?) :
    Rely t' op' w w₁ where
  sound _ := guar.sound
  alone operator := by
    rw [Op.gateway_not_operator gateway'] at operator
    cases operator
  rested uuid mine rested := by
    by_cases same : op.uuid? = some uuid
    · apply guar.rested uuid same (.inl _) rested
      by_contra duplicates
      have exclusive := Op.exclusive_of_duplicates gateway (by simpa using duplicates)
      exact apart exclusive (same.trans mine.symm)
    · rwa [guar.others uuid same]
  gone uuid mine gone := by
    by_cases same : op.uuid? = some uuid
    · have shared : op.exclusive = false := by
        by_contra exclusive
        exact apart (by simpa using exclusive) (same.trans mine.symm)
      exact guar.gone shared (Op.gateway_not_operator gateway) uuid same gone
    · rwa [guar.others uuid same]
  kept exclusive uuid mine := guar.others uuid fun same => apart' exclusive (mine.trans same.symm)
  owned name := guar.owned name t' other

theorem Rely.of_begun (t : Nat) (gateway : op.gateway = true) (op' : Op) (cfg : Cfg) (clock : Instant) :
    Rely t op cfg.ledger ⟨cfg.disk, cfg.owner, .begun op' clock :: cfg.log⟩ where
  sound sound := ⟨sound.filed, sound.owned⟩
  alone operator := by
    rw [Op.gateway_not_operator gateway] at operator
    cases operator
  rested uuid _ rested := by rwa [Steady.trail_begun]
  gone uuid _ gone := by rwa [Steady.trail_begun]
  kept _ uuid _ := Steady.trail_begun cfg clock uuid
  owned _ := ⟨Iff.rfl, fun _ => rfl⟩

def Yields (t : Nat) (op : Op) (old : Name → Prop) (claimed : Option (Name × Envelope)) (w : Ledger) : Prop :=
  Stops t op claimed w ∧ (∀ name e, claimed = some (name, e) → op.uuid? = some e.uuid) ∧
    (op.gathers = false → claimed = none → ∀ uuid, op.uuid? = some uuid → old uuid ∨
      ∀ name e, (name, e) ∈ (w.trail uuid).copies .inflight → w.owner name ≠ some t)

end Ledger

structure Unstranded (start cfg : Cfg) : Prop where
  running : cfg.phase = .running
  sound : cfg.ledger.Sound
  apart : ∀ t op rest t' op' rest', t ≠ t' → cfg.threads t = .busy op rest → cfg.threads t' = .busy op' rest' →
    op.exclusive = true → op.uuid? ≠ op'.uuid?
  works : ∀ t op rest, cfg.threads t = .busy op rest → (∃ c next, rest = .call c next) ∧ op.gateway = true ∧
    (op.gathers = true → ∀ uuid, op.uuid? = some uuid → Settled cfg.maxLifetime uuid cfg.log) ∧
    ∃ old : Name → Prop, (∀ uuid, old uuid → Settled cfg.maxLifetime uuid cfg.log) ∧
      Sat (Ledger.tracked t op) (Ledger.Yields t op old) rest cfg.ledger
  held : ∀ t name e, cfg.threads t = .holding name e → cfg.owner name = some t ∧ cfg.disk.Holds .inflight name e
  rested : ∀ uuid, (∀ t op rest, cfg.threads t = .busy op rest → op.duplicates = true → op.uuid? ≠ some uuid) →
    (cfg.ledger.trail uuid).Rested
  dead : ∀ uuid, ¬ Settled cfg.maxLifetime uuid cfg.log →
    (cfg.ledger.trail uuid).copies .dead = (start.ledger.trail uuid).copies .dead
  flight : ∀ uuid name e, (name, e) ∈ (cfg.ledger.trail uuid).copies .inflight →
    Settled cfg.maxLifetime uuid cfg.log ∨ ∃ t, cfg.owner name = some t ∧ (cfg.threads t).Processes uuid

namespace Unstranded

variable {start cfg : Cfg} {t : Nat} {op : Op}

/-- An operation that may begin finds what its proof assumes, and a claim finds nothing of its own
    in flight. -/
theorem armed (unstranded : Unstranded start cfg) {clock : Instant} (may : (cfg.threads t).mayBegin cfg clock op)
    (uninterrupted : Uninterrupted cfg (.begin t op clock)) (spared : Spared cfg (.begin t op clock)) :
    Ledger.Armed t op ⟨cfg.disk, cfg.owner, .begun op clock :: cfg.log⟩ := by
  obtain ⟨gateway, fresh, apart⟩ := uninterrupted
  have finishing : ∀ {name e'}, (∃ e, cfg.threads t = .holding name e ∧ Attempted e e') →
      e'.Valid ∧ cfg.owner name = some t ∧ ∃ e₀, cfg.disk.Holds .inflight name e₀ ∧ e₀.uuid = e'.uuid := by
    rintro name e' ⟨e, thread, attempted⟩
    obtain ⟨owned, holds⟩ := unstranded.held t name e thread
    obtain ⟨valid, -⟩ := unstranded.sound.file (by decide) holds
    obtain ⟨valid', uuid, -⟩ := attempted.identity valid
    exact ⟨valid', owned, e, holds, uuid.symm⟩
  have absent : ∀ {e : Envelope}, ¬ cfg.disk.Present e.uuid → ∀ dir,
      ((⟨cfg.disk, cfg.owner, .begun op clock :: cfg.log⟩ : Ledger).trail e.uuid).copies dir = ∅ := by
    intro e missing dir
    apply Set.eq_empty_of_forall_notMem
    rintro ⟨name, e'⟩ ⟨outside, holds, of⟩
    exact missing ⟨dir, name, e', outside, holds, of⟩
  refine ⟨⟨unstranded.sound.filed, unstranded.sound.owned⟩, fun uuid mine => ?_, ?_⟩
  · rw [Steady.trail_begun]
    apply unstranded.rested uuid
    intro t' op' rest busy duplicates same
    exact spared t' op' rest busy (.inr duplicates) (mine.trans same.symm)
  · cases op with
    | enqueue e => exact absent (fresh _ rfl rfl)
    | quarantine e => exact absent (fresh _ rfl rfl)
    | complete name e' =>
      obtain ⟨e, thread, attempted, -⟩ := may.complete
      exact finishing ⟨e, thread, attempted⟩
    | reschedule name e' due => exact finishing may.reschedule
    | bury name e' =>
      obtain ⟨e, thread, attempted, -⟩ := may.bury
      exact finishing ⟨e, thread, attempted⟩
    | _ => exact trivial

theorem settled_of_begun {clock : Instant} (may : (cfg.threads t).mayBegin cfg clock op) (gateway : op.gateway = true)
    (gathers : op.gathers = true) (uuid : Name) (mine : op.uuid? = some uuid) :
    Settled cfg.maxLifetime uuid (.begun op clock :: cfg.log) := by
  cases op with
  | complete name e' =>
    obtain ⟨-, -, -, done⟩ := may.complete
    exact .inl ⟨name, e', clock, by simp, Option.some.inj mine, done⟩
  | bury name e' =>
    obtain ⟨-, -, -, old⟩ := may.bury
    exact .inr ⟨name, e', clock, by simp, Option.some.inj mine, old⟩
  | remove _ => cases gateway
  | _ => cases gathers

theorem idle_of_begun {clock : Instant} (may : (cfg.threads t).mayBegin cfg clock op) (gateway : op.gateway = true)
    (gathers : op.gathers = false) (single : op.duplicates = false) : cfg.threads t = .idle := by
  cases thread : cfg.threads t with
  | idle => rfl
  | _ =>
    rw [thread] at may
    cases op <;> simp_all [Thread.mayBegin, Op.gathers, Op.duplicates]

/-- What an operation yields is what it leaves: a thread without work owns nothing that is not settled. -/
theorem sat_begun (unstranded : Unstranded start cfg) {clock : Instant} (may : (cfg.threads t).mayBegin cfg clock op)
    (uninterrupted : Uninterrupted cfg (.begin t op clock)) (spared : Spared cfg (.begin t op clock)) :
    Sat (Ledger.tracked t op) (Ledger.Yields t op fun uuid => Settled cfg.maxLifetime uuid cfg.log) (op.prog cfg.pid)
      ⟨cfg.disk, cfg.owner, .begun op clock :: cfg.log⟩ := by
  have gateway := uninterrupted.1
  have other : op ≠ .recover := by
    rintro rfl
    cases gateway
  have single : ∀ txnUUID bytes parts, op ≠ .data txnUUID bytes parts := by
    rintro _ _ _ rfl
    cases gateway
  apply (Ledger.sat_prog cfg.pid other single (unstranded.armed may uninterrupted spared)).mono
  intro claimed w ended
  refine ⟨ended.stops, fun name e same => (ended.held name e same).2.2, fun gathers none uuid mine => ?_⟩
  by_cases settled : Settled cfg.maxLifetime uuid cfg.log
  · exact .inl settled
  · right
    intro name e within owned
    obtain ⟨alone, before, mineBefore⟩ :=
      ended.unowned (Op.gateway_not_operator gateway) gathers none uuid mine name e within owned
    rw [Steady.trail_begun] at before
    rcases unstranded.flight uuid name e before with already | ⟨t', owned', processes⟩
    · exact settled already
    · obtain rfl : t = t' := Option.some.inj (mineBefore.symm.trans owned')
      rw [idle_of_begun may gateway gathers alone] at processes
      exact processes

theorem settled_thread (cfg : Cfg) {p : Fs (Option (Name × Envelope))} {old : Name → Prop}
    (remembered : ∀ uuid, old uuid → Settled cfg.maxLifetime uuid cfg.log)
    (finishing : op.gathers = true → ∀ uuid, op.uuid? = some uuid → Settled cfg.maxLifetime uuid cfg.log)
    (sat : Sat (Ledger.tracked t op) (Ledger.Yields t op old) p cfg.ledger) :
    (∀ name e, Thread.settle op p = .holding name e → cfg.owner name = some t ∧ cfg.disk.Holds .inflight name e) ∧
      ((∀ rest, Thread.settle op p ≠ .busy op rest) → ∀ uuid, op.uuid? = some uuid →
        (cfg.ledger.trail uuid).Rested) ∧
      ∀ uuid name e, op.uuid? = some uuid → (name, e) ∈ (cfg.ledger.trail uuid).copies .inflight →
        cfg.owner name = some t → Settled cfg.maxLifetime uuid cfg.log ∨ (Thread.settle op p).Processes uuid := by
  match p with
  | .done none =>
    refine ⟨fun _ _ same => (by cases same), fun _ => sat.1.2, fun uuid name e mine within owned => .inl ?_⟩
    cases gathers : op.gathers with
    | true => exact finishing gathers uuid mine
    | false =>
      rcases sat.2.2 gathers rfl uuid mine with settled | unowned
      · exact remembered uuid settled
      · exact (unowned name e within owned).elim
  | .done (some (name, e)) =>
    refine ⟨fun name' e' same => ?_, fun _ => sat.1.2, fun uuid name' e' mine _ _ => .inr ?_⟩
    · cases same
      exact sat.1.1 name e rfl
    · exact Option.some.inj ((sat.2.1 name e rfl).symm.trans mine)
  | .call c next =>
    exact ⟨fun _ _ same => (by cases same), fun idle => (idle _ rfl).elim, fun _ _ _ mine _ _ => .inr mine⟩

theorem begin_op (unstranded : Unstranded start cfg) {clock : Instant} (may : (cfg.threads t).mayBegin cfg clock op)
    (uninterrupted : Uninterrupted cfg (.begin t op clock)) (spared : Spared cfg (.begin t op clock)) :
    Unstranded start { cfg with
      threads := Function.update cfg.threads t (Thread.settle op (op.prog cfg.pid))
      issued := Cfg.issuedBy op ++ cfg.issued
      log := .begun op clock :: cfg.log } := by
  have sat := unstranded.sat_begun may uninterrupted spared
  have gateway := uninterrupted.1
  have grows : ∀ event ∈ cfg.log, event ∈ Event.begun op clock :: cfg.log := fun _ member => List.mem_cons_of_mem _ member
  have finishing := fun gathers => settled_of_begun may gateway gathers
  have free := Inv.not_busy_of_mayBegin may
  obtain ⟨held, ended, flies⟩ := settled_thread { cfg with
    threads := Function.update cfg.threads t (Thread.settle op (op.prog cfg.pid))
    issued := Cfg.issuedBy op ++ cfg.issued
    log := .begun op clock :: cfg.log } (fun uuid settled => settled.mono grows) finishing sat
  have others : ∀ {t' thread}, Function.update cfg.threads t (Thread.settle op (op.prog cfg.pid)) t' = thread → t' ≠ t →
      cfg.threads t' = thread := by
    intro t' thread now other
    rwa [Function.update_of_ne other] at now
  have apart : ∀ {t' op' rest}, cfg.threads t' = .busy op' rest → op.exclusive = true ∨ op'.exclusive = true →
      op.uuid? ≠ op'.uuid? := by
    intro t' op' rest busy exclusive
    rcases exclusive with mine | theirs
    · rcases Op.creating_or_duplicates mine with creating | duplicates
      · exact uninterrupted.2.2 t' op' rest busy (.inl creating)
      · exact spared t' op' rest busy (.inl duplicates)
    · rcases Op.creating_or_duplicates theirs with creating | duplicates
      · exact uninterrupted.2.2 t' op' rest busy (.inr creating)
      · exact spared t' op' rest busy (.inr duplicates)
  constructor
  · exact unstranded.running
  · exact ⟨unstranded.sound.filed, unstranded.sound.owned⟩
  · intro t₁ op₁ rest₁ t₂ op₂ rest₂ differs busy₁ busy₂ exclusive
    rcases Inv.settle_update busy₁ with ⟨rfl, rfl, -⟩ | ⟨-, old₁⟩ <;>
      rcases Inv.settle_update busy₂ with ⟨rfl, rfl, -⟩ | ⟨-, old₂⟩
    · exact (differs rfl).elim
    · exact apart old₂ (.inl exclusive)
    · exact fun same => apart old₁ (.inr exclusive) same.symm
    · exact unstranded.apart _ _ _ _ _ _ differs old₁ old₂ exclusive
  · intro t' op' rest busy
    by_cases same : t' = t
    · subst same
      simp only [Function.update_self] at busy
      obtain ⟨rfl, rfl, call⟩ := Thread.settle_busy busy
      exact ⟨call, gateway, finishing, _, fun uuid settled => settled.mono grows, sat⟩
    · obtain ⟨⟨c, next, rfl⟩, gateway', finishing', old, remembered, sat'⟩ :=
        unstranded.works _ _ _ (others busy same)
      refine ⟨⟨c, next, rfl⟩, gateway', fun gathers uuid mine => (finishing' gathers uuid mine).mono grows, old,
        fun uuid settled => (remembered uuid settled).mono grows, ?_⟩
      exact sat'.interfere (Ledger.Rely.of_begun t' gateway' op cfg clock)
  · intro t' name e waiting
    by_cases same : t' = t
    · subst same
      simp only [Function.update_self] at waiting
      exact held name e waiting
    · exact unstranded.held t' name e (others waiting same)
  · intro uuid still
    show ((⟨cfg.disk, cfg.owner, .begun op clock :: cfg.log⟩ : Ledger).trail uuid).Rested
    rw [Steady.trail_begun]
    apply unstranded.rested uuid
    intro t' op' rest busy
    have other : t' ≠ t := by
      rintro rfl
      exact free op' rest busy
    apply still t' op' rest
    show Function.update cfg.threads t _ t' = _
    rwa [Function.update_of_ne other]
  · intro uuid unsettled
    show ((⟨cfg.disk, cfg.owner, .begun op clock :: cfg.log⟩ : Ledger).trail uuid).copies .dead = _
    rw [Steady.trail_begun]
    exact unstranded.dead uuid fun settled => unsettled (settled.mono grows)
  · intro uuid name e within
    have before : (name, e) ∈ (cfg.ledger.trail uuid).copies .inflight := within
    rcases unstranded.flight uuid name e before with settled | ⟨t', owned, processes⟩
    · exact .inl (settled.mono grows)
    · by_cases same : t' = t
      · subst same
        have mine : op.uuid? = some uuid := by
          cases thread : cfg.threads t' with
          | idle =>
            rw [thread] at processes
            exact processes.elim
          | busy op' rest => exact (free op' rest thread).elim
          | holding held e₀ =>
            rw [thread] at processes may
            have of : e₀.uuid = uuid := processes
            have named : ∀ {e'}, Attempted e₀ e' → some e'.uuid = some uuid := by
              intro e' attempted
              rw [attempted.1, ← of]
            cases op with
            | complete _ e' => exact named may.2.1
            | reschedule _ e' _ => exact named may.2
            | bury _ e' => exact named may.2.1
            | _ => simp [Thread.mayBegin] at may
        rcases flies uuid name e mine within owned with settled | processes'
        · exact .inl settled
        · right
          refine ⟨t', owned, ?_⟩
          simpa only [Function.update_self] using processes'
      · right
        refine ⟨t', owned, ?_⟩
        simpa only [Function.update_of_ne same] using processes

section Step
variable {c : FsCall} {next : c.Answer → Fs (Option (Name × Envelope))} {choice : Choice}

theorem step_op (unstranded : Unstranded start cfg) (thread : cfg.threads t = .busy op (.call c next))
    (spared : Spared cfg (.step t choice)) : Unstranded start (Inv.stepped cfg t op c next choice) := by
  obtain ⟨-, gateway, finishing, old, remembered, sat⟩ := unstranded.works _ _ _ thread
  have made : Ledger.Step t op c cfg.ledger (exec choice cfg.disk c).1 (Inv.stepped cfg t op c next choice).ledger :=
    ⟨choice, spared op c next thread, rfl, rfl, rfl⟩
  obtain ⟨guar, rest⟩ := sat.answer made
  have other : op ≠ .recover := by
    rintro rfl
    cases gateway
  have grows : ∀ event ∈ cfg.log, event ∈ (Inv.stepped cfg t op c next choice).log :=
    fun _ member => List.mem_append_right _ member
  have remembered' := fun uuid settled => (remembered uuid settled).mono grows
  have finishing' := fun gathers uuid mine => (finishing gathers uuid mine).mono grows
  obtain ⟨held, ended, flies⟩ := settled_thread (Inv.stepped cfg t op c next choice) remembered' finishing' rest
  have others : ∀ {t' thread'}, (Inv.stepped cfg t op c next choice).threads t' = thread' → t' ≠ t →
      cfg.threads t' = thread' := by
    intro t' thread' now apart
    simpa only [Inv.stepped, Function.update_of_ne apart] using now
  constructor
  · exact (Inv.phaseAfter_other other).trans unstranded.running
  · exact guar.sound
  · intro t₁ op₁ rest₁ t₂ op₂ rest₂ differs busy₁ busy₂ exclusive
    rcases Inv.settle_update busy₁ with ⟨rfl, rfl, -⟩ | ⟨-, old₁⟩ <;>
      rcases Inv.settle_update busy₂ with ⟨rfl, rfl, -⟩ | ⟨-, old₂⟩
    · exact (differs rfl).elim
    · exact unstranded.apart _ _ _ _ _ _ differs thread old₂ exclusive
    · exact unstranded.apart _ _ _ _ _ _ differs old₁ thread exclusive
    · exact unstranded.apart _ _ _ _ _ _ differs old₁ old₂ exclusive
  · intro t' op' rest' busy
    by_cases same : t' = t
    · subst same
      simp only [Inv.stepped, Function.update_self] at busy
      obtain ⟨rfl, rfl, call⟩ := Thread.settle_busy busy
      exact ⟨call, gateway, finishing', old, remembered', rest⟩
    · have before := others busy same
      obtain ⟨⟨c', next', rfl⟩, gateway', finishes, old', remembers, sat'⟩ := unstranded.works _ _ _ before
      refine ⟨⟨c', next', rfl⟩, gateway', fun gathers uuid mine => (finishes gathers uuid mine).mono grows, old',
        fun uuid settled => (remembers uuid settled).mono grows, ?_⟩
      exact sat'.interfere (guar.rely same gateway gateway'
        (unstranded.apart _ _ _ _ _ _ (Ne.symm same) thread before)
        (unstranded.apart _ _ _ _ _ _ same before thread))
  · intro t' name e waiting
    by_cases same : t' = t
    · subst same
      simp only [Inv.stepped, Function.update_self] at waiting
      exact held name e waiting
    · obtain ⟨owned, holds⟩ := unstranded.held t' name e (others waiting same)
      obtain ⟨kept, unchanged⟩ := guar.owned name t' same
      exact ⟨kept.mpr owned, (unchanged owned).trans holds⟩
  · intro uuid still
    have before : ∀ t' op' rest', t' ≠ t → cfg.threads t' = .busy op' rest' → op'.duplicates = true →
        op'.uuid? ≠ some uuid := by
      intro t' op' rest' apart busy
      apply still t' op' rest'
      simpa only [Inv.stepped, Function.update_of_ne apart] using busy
    have resting : (op.duplicates = true → op.uuid? ≠ some uuid) → (cfg.ledger.trail uuid).Rested := by
      intro mine
      apply unstranded.rested uuid
      intro t' op' rest' busy
      by_cases same : t' = t
      · subst same
        cases busy.symm.trans thread
        exact mine
      · exact before t' op' rest' same busy
    by_cases mine : op.uuid? = some uuid
    · cases duplicates : op.duplicates with
      | true =>
        apply ended _ uuid mine
        intro rest' settled
        apply still t op rest' _ duplicates mine
        simpa only [Inv.stepped, Function.update_self] using settled
      | false =>
        apply guar.rested uuid mine (.inl duplicates)
        apply resting
        intro doubled
        rw [duplicates] at doubled
        cases doubled
    · rw [guar.others uuid mine]
      exact resting fun _ => mine
  · intro uuid unsettled
    have before := unstranded.dead uuid fun settled => unsettled (settled.mono grows)
    cases buries : op.buries with
    | false => exact (guar.dead buries uuid).trans before
    | true =>
      by_cases mine : op.uuid? = some uuid
      · exact (unsettled (finishing' (Op.gathers_of_buries gateway buries) uuid mine)).elim
      · rw [guar.others uuid mine]
        exact before
  · intro uuid name e within
    by_cases mine : op.uuid? = some uuid ∧ (Inv.stepped cfg t op c next choice).owner name = some t
    · rcases flies uuid name e mine.1 within mine.2 with settled | processes
      · exact .inl settled
      · right
        refine ⟨t, mine.2, ?_⟩
        simpa only [Inv.stepped, Function.update_self] using processes
    · have within₀ : (name, e) ∈ (cfg.ledger.trail uuid).copies .inflight := by
        by_cases same : op.uuid? = some uuid
        · rcases guar.claimed uuid name e within with owned | ⟨before, -⟩
          · exact (mine ⟨same, owned⟩).elim
          · exact before
        · rwa [guar.others uuid same] at within
      rcases unstranded.flight uuid name e within₀ with settled | ⟨t', owned, processes⟩
      · exact .inl (settled.mono grows)
      · by_cases same : t' = t
        · subst same
          rw [thread] at processes
          have this : op.uuid? = some uuid := processes
          rcases guar.claimed uuid name e within with taken | ⟨-, kept⟩
          · exact (mine ⟨this, taken⟩).elim
          · exact (mine ⟨this, kept.trans owned⟩).elim
        · right
          refine ⟨t', (guar.owned name t' same).1.mpr owned, ?_⟩
          simpa only [Inv.stepped, Function.update_of_ne same] using processes

end Step

/-- One step of an uninterrupted run keeps the invariant. -/
theorem step (cfg : Cfg) (d : Decision) (cfg' : Cfg) (unstranded : Unstranded start cfg)
    (uninterrupted : Uninterrupted cfg d) (spared : Spared cfg d) (move : cfg.next d = some cfg') :
    Unstranded start cfg' := by
  cases d with
  | begin t op clock =>
    simp only [Cfg.next] at move
    split at move
    · rename_i may
      cases move
      have other : op ≠ .recover := by
        rintro rfl
        cases uninterrupted.1
      rw [Inv.phaseAfter_other other]
      exact unstranded.begin_op may uninterrupted spared
    · cases move
  | step t choice =>
    simp only [Cfg.next] at move
    split at move
    · rename_i op c next thread
      cases move
      exact unstranded.step_op thread spared
    · cases move
  | _ => exact uninterrupted.elim

end Unstranded

/-- A gateway that is ready for work: nobody is busy and inflight/ is empty. -/
structure Ready (cfg : Cfg) : Prop where
  steady : Steady cfg
  idle : ∀ t, cfg.threads t = .idle
  running : cfg.phase = .running
  landed : ∀ name e, ¬ cfg.disk.Holds .inflight name e

theorem Ready.unstranded {cfg : Cfg} (ready : Ready cfg) : Unstranded cfg cfg where
  running := ready.running
  sound := ready.steady.sound
  apart _ _ _ _ _ _ _ busy := by
    rw [ready.idle] at busy
    cases busy
  works _ _ _ busy := by
    rw [ready.idle] at busy
    cases busy
  held _ _ _ waiting := by
    rw [ready.idle] at waiting
    cases waiting
  rested uuid _ := by
    apply ready.steady.rested ready.running uuid
    intro t op rest busy
    rw [ready.idle] at busy
    cases busy
  dead _ _ := rfl
  flight _ name e within := (ready.landed name e within.2.1).elim

/-- Whatever calls fail outside a reschedule: an envelope that was committed, is not settled and is
    in nobody's hands is in q/ or in quarantine/ as it was committed last, and neither in inflight/
    nor newly in dead/. -/
theorem unprocessed_in_queue {start cfg : Cfg} {uuid : Name} {e : Envelope} (ready : Ready start)
    (run : Reachable Cfg.next (fun cfg d => Uninterrupted cfg d ∧ Spared cfg d) start cfg)
    (stands : standing uuid cfg.log = some e) (unsettled : ¬ Settled cfg.maxLifetime uuid cfg.log)
    (unprocessed : ∀ t, ¬ (cfg.threads t).Processes uuid) :
    (∃ name, cfg.disk.Holds .ready name e ∨ cfg.disk.Holds .quarantine name e) ∧
      ∀ name e', e'.uuid = uuid → ¬ cfg.disk.Holds .inflight name e' ∧
        (cfg.disk.Holds .dead name e' → start.disk.Holds .dead name e') := by
  have unstranded : Unstranded start cfg := by
    apply run.invariant (Unstranded start) ready.unstranded
    exact fun cfg d cfg' unstranded allowed move => unstranded.step cfg d cfg' allowed.1 allowed.2 move
  have rested : (cfg.ledger.trail uuid).Rested := by
    apply unstranded.rested uuid
    intro t op rest busy _ mine
    apply unprocessed t
    rw [busy]
    exact mine
  have landed : ∀ name e', (name, e') ∉ (cfg.ledger.trail uuid).copies .inflight := by
    intro name e' within
    rcases unstranded.flight uuid name e' within with settled | ⟨t, -, processes⟩
    · exact unsettled settled
    · exact unprocessed t processes
  refine ⟨?_, fun name e' of => ⟨fun holds => landed name e' ⟨by decide, holds, of⟩, fun holds => ?_⟩⟩
  · rcases rested.leads e stands with ⟨name, within⟩ | ⟨-, ⟨name, within⟩ | ⟨-, name, within⟩⟩
    · exact ⟨name, .inl within.2.1⟩
    · exact (landed name e within).elim
    · exact ⟨name, .inr within.2.1⟩
  · have within : (name, e') ∈ (cfg.ledger.trail uuid).copies .dead := ⟨by decide, holds, of⟩
    rw [unstranded.dead uuid unsettled] at within
    exact within.2.1

section Sample

theorem Ready.emptySpool : Ready Cfg.emptySpool where
  steady := AtRest.emptySpool.steady rfl
  idle _ := rfl
  running := rfl
  landed _ _ holds := by cases holds

def soloWorker (cfg : Cfg) : Decision → Bool
  | .begin t op _ => t == 0 && op.gateway &&
    (!op.creating || envelopeDirs.all fun dir => (cfg.disk.list dir).isEmpty)
  | .step t _ => t == 0
  | _ => false

def sparing (cfg : Cfg) : Decision → Bool
  | .step t choice => !choice.fails || match cfg.threads t with
    | .busy op (.call c _) => !op.brittle c
    | _ => true
  | _ => true

theorem alone_of_begun {cfg cfg' : Cfg} {t : Nat} {op : Op} {clock : Instant} (idle : ∀ t', t' ≠ t → cfg.threads t' = .idle)
    (move : cfg.next (.begin t op clock) = some cfg') (t' : Nat) (op' : Op) (rest : Fs (Option (Name × Envelope))) :
    cfg.threads t' ≠ .busy op' rest := by
  intro busy
  simp only [Cfg.next] at move
  split at move
  · rename_i may
    by_cases same : t' = t
    · exact Inv.not_busy_of_mayBegin may op' rest (same ▸ busy)
    · rw [idle t' same] at busy
      cases busy
  · cases move

theorem uninterrupted_of_solo {cfg cfg' : Cfg} {d : Decision} (idle : ∀ t, t ≠ 0 → cfg.threads t = .idle)
    (mine : soloWorker cfg d = true) (move : cfg.next d = some cfg') : Uninterrupted cfg d := by
  cases d with
  | begin t op clock =>
    simp only [soloWorker, Bool.and_eq_true, beq_iff_eq, Bool.or_eq_true, Bool.not_eq_true'] at mine
    obtain ⟨⟨rfl, gateway⟩, fresh⟩ := mine
    refine ⟨gateway, fun uuid creating _ => ?_, fun t op' rest busy => (alone_of_begun idle move t op' rest busy).elim⟩
    rcases fresh with not | empty
    · rw [creating] at not
      cases not
    · exact absent_of_empty uuid empty
  | step t choice => trivial
  | _ => cases mine

theorem spared_of_sparing {cfg cfg' : Cfg} {d : Decision} (idle : ∀ t, t ≠ 0 → cfg.threads t = .idle)
    (mine : soloWorker cfg d = true) (sparing : sparing cfg d = true) (move : cfg.next d = some cfg') : Spared cfg d := by
  cases d with
  | begin t op clock =>
    simp only [soloWorker, Bool.and_eq_true, beq_iff_eq] at mine
    obtain ⟨⟨rfl, -⟩, -⟩ := mine
    exact fun t op' rest busy => (alone_of_begun idle move t op' rest busy).elim
  | step t choice =>
    intro op c next busy fails
    simpa [Queue.sparing, fails, busy] using sparing
  | _ => trivial

theorem thread_of_soloWorker {cfg : Cfg} {t : Nat} {d : Decision} (mine : soloWorker cfg d = true)
    (moves : d.thread? = some t) : t = 0 := by
  cases d <;> simp_all [soloWorker, Decision.thread?]

def unfinished (log : List Event) : Bool :=
  log.all fun event => !(event matches .begun (.complete _ _) _ | .begun (.bury _ _) _)

theorem unsettled_of_unfinished {log : List Event} (open' : unfinished log = true) (maxLifetime : Nat) (uuid : Name) :
    ¬ Settled maxLifetime uuid log := by
  rintro (⟨name, e, clock, begun, -⟩ | ⟨name, e, clock, begun, -⟩) <;>
  · have finished := List.all_eq_true.mp open' _ begun
    cases finished

theorem unprocessed_of_idle {cfg : Cfg} (high : ∀ t, 1 ≤ t → cfg.threads t = .idle)
    (idle : (cfg.threads 0 matches .idle) = true) (uuid : Name) (t : Nat) : ¬ (cfg.threads t).Processes uuid := by
  by_cases first : t = 0
  · subst first
    cases thread : cfg.threads 0 with
    | idle => exact id
    | _ =>
      rw [thread] at idle
      cases idle
  · rw [high t (by omega)]
    exact id

def failedCall : Decision := .step 0 ⟨sampleClock, true⟩

def retriedRun : List Decision :=
  .begin 0 (.enqueue (sampleEnvelope ['1'])) sampleClock :: steps 0 5 ++
  .begin 0 (.claim (sampleName ['1'])) sampleClock :: failedCall ::
  .begin 0 (.claim (sampleName ['1'])) sampleClock :: steps 0 2 ++
  .begin 0 (.reschedule (claimName (samplePid 1) (sampleName ['1'])) sampleAttempted laterClock) sampleClock :: steps 0 6

end Sample

theorem unprocessed_in_queue_sample : ∃ (cfg : Cfg) (name : Name),
    cfg.disk.Holds .ready name (sampleAttempted.dueAt laterClock) ∨
      cfg.disk.Holds .quarantine name (sampleAttempted.dueAt laterClock) := by
  have outcome : (play Cfg.next (fun cfg d => soloWorker cfg d && sparing cfg d) .emptySpool retriedRun).map (fun cfg =>
      (cfg.threads 0 matches .idle) && (unfinished cfg.log &&
        standing (sampleEnvelope ['1']).uuid cfg.log == some (sampleAttempted.dueAt laterClock))) = some true := by
    decide
  obtain ⟨cfg, played, left⟩ := Option.map_eq_some_iff.mp outcome
  simp only [Bool.and_eq_true, beq_iff_eq] at left
  obtain ⟨idle, unfinished, stands⟩ := left
  have alone := reachable_of_play (fun _ _ => id) retriedRun played
  have run : Reachable Cfg.next (fun cfg d => Uninterrupted cfg d ∧ Spared cfg d) .emptySpool cfg := by
    apply run_of_single 0 AtRest.emptySpool.idle _ _ alone
    · exact fun cfg d t both => thread_of_soloWorker (Bool.and_eq_true_iff.mp both).1
    · intro cfg d cfg' both idle move
      obtain ⟨mine, spares⟩ := Bool.and_eq_true_iff.mp both
      exact ⟨uninterrupted_of_solo idle mine move, spared_of_sparing idle mine spares move⟩
  have high : ∀ t, 1 ≤ t → cfg.threads t = .idle := by
    intro t
    apply idle_of_below 1 AtRest.emptySpool _ alone
    intro cfg d both
    have mine := (Bool.and_eq_true_iff.mp both).1
    cases d <;> simp_all [soloWorker, Decision.below, Decision.thread?]
  obtain ⟨⟨name, kept⟩, -⟩ := unprocessed_in_queue Ready.emptySpool run stands (unsettled_of_unfinished unfinished _ _)
    (unprocessed_of_idle high idle _)
  exact ⟨cfg, name, kept⟩

/-- The disk is full when a deferred envelope is to be written back. -/
def strandedRun : List Decision :=
  .begin 0 (.enqueue (sampleEnvelope ['1'])) sampleClock :: steps 0 5 ++
  .begin 0 (.claim (sampleName ['1'])) sampleClock :: steps 0 2 ++
  .begin 0 (.reschedule (claimName (samplePid 1) (sampleName ['1'])) sampleAttempted laterClock) sampleClock :: [failedCall]

/-- A failed reschedule leaves its envelope in inflight/, where nobody looks again. -/
theorem stranded_in_flight : ∃ cfg uuid e, Reachable Cfg.next Uninterrupted .emptySpool cfg ∧
    standing uuid cfg.log = some e ∧ ¬ Settled cfg.maxLifetime uuid cfg.log ∧
    (∀ t, ¬ (cfg.threads t).Processes uuid) ∧ (∃ name, cfg.disk.Holds .inflight name e) ∧
    ∀ name, ¬ cfg.disk.Holds .ready name e ∧ ¬ cfg.disk.Holds .quarantine name e := by
  have outcome : (play Cfg.next soloWorker .emptySpool strandedRun).map (fun cfg =>
      (cfg.threads 0 matches .idle) && (unfinished cfg.log &&
        (standing (sampleEnvelope ['1']).uuid cfg.log == some (sampleEnvelope ['1']) &&
        (cfg.disk.get .inflight (claimName (samplePid 1) (sampleName ['1'])) == some (.json (sampleEnvelope ['1'])) &&
          [Dir.ready, .quarantine].all fun dir => (cfg.disk.list dir).isEmpty)))) = some true := by
    decide
  obtain ⟨cfg, played, left⟩ := Option.map_eq_some_iff.mp outcome
  simp only [Bool.and_eq_true, beq_iff_eq, List.all_eq_true, List.isEmpty_iff] at left
  obtain ⟨idle, unfinished, stands, there, empty⟩ := left
  have alone := reachable_of_play (fun _ _ => id) strandedRun played
  have high : ∀ t, 1 ≤ t → cfg.threads t = .idle := by
    intro t
    apply idle_of_below 1 AtRest.emptySpool _ alone
    intro cfg d mine
    cases d <;> simp_all [soloWorker, Decision.below, Decision.thread?]
  have absent : ∀ dir ∈ [Dir.ready, .quarantine], ∀ name e, ¬ cfg.disk.Holds dir name e := by
    intro dir within name e holds
    have listed : name ∈ cfg.disk.list dir := mem_list.mpr ⟨_, holds⟩
    rw [empty dir within] at listed
    cases listed
  refine ⟨cfg, _, _, ?_, stands, unsettled_of_unfinished unfinished _ _, unprocessed_of_idle high idle _, ⟨_, there⟩,
    fun name => ⟨absent _ (by simp) name _, absent _ (by simp) name _⟩⟩
  apply run_of_single 0 AtRest.emptySpool.idle _ _ alone
  · exact fun cfg d t => thread_of_soloWorker
  · exact fun cfg d cfg' mine idle move => uninterrupted_of_solo idle mine move

end Mailgw.Queue
