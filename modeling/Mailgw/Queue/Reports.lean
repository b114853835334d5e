import Mailgw.Queue.Recipients

namespace Mailgw.Queue

open Calls Deliver

def Happening.reported (event : Happening) : Option (Name × Dsn.Report) :=
  match event with
  | ⟨.writeBody _ (.report report), .ok (name, _)⟩ => some (name, report)
  | _ => none

def Happening.Queues (body sender : Name) (event : Happening) : Prop :=
  match event with
  | ⟨.enqueue env, none⟩ => env.body = body ∧ env.rcpts.map Recipient.addr = [sender]
  | _ => False

/-- A notification that names the address was written and queued for the sender. -/
def NamedIn (kind : Dsn.Kind) (sender addr : Name) (events : List Happening) : Prop :=
  ∃ name report, (∃ event ∈ events, Happening.reported event = some (name, report)) ∧
    (∃ event ∈ events, Happening.Queues name sender event) ∧
      report.kind = kind ∧ addr ∈ report.rcpts.map Dsn.Rcpt.addr

theorem NamedIn.of_subset {kind : Dsn.Kind} {sender addr : Name} {events events' : List Happening}
    (named : NamedIn kind sender addr events) (sub : events ⊆ events') : NamedIn kind sender addr events' := by
  obtain ⟨name, report, ⟨write, written, about⟩, ⟨send, sent, queued⟩, same⟩ := named
  exact ⟨name, report, ⟨write, sub written, about⟩, ⟨send, sub sent, queued⟩, same⟩

/-- The sender can be reached and the spool takes what it is given. -/
def Obliging (b : Bouncer) (event : Happening) : Prop :=
  match event with
  | ⟨.route _, answer⟩ => b.relayGroup ≠ [] ∨ ∃ group rule, answer = some (group, rule) ∧ group ≠ []
  | ⟨.writeBody _ _, answer⟩ => ∃ written, answer = .ok written
  | ⟨.enqueue _, answer⟩ => answer = none
  | _ => True

def Legible (event : Happening) : Prop :=
  match event with
  | ⟨.openBody _, .ok file⟩ => file.Sound
  | _ => True

structure Bouncer.Usable (b : Bouncer) : Prop where
  enabled : b.enabled = true
  hostname : b.hostname ≠ []
  postmaster : b.postmaster ≠ []

section Bouncing
variable {b : Bouncer} {env env' : Envelope} {req : Request} {events : List Happening}

theorem Bouncer.route_found {sender : Name} {routed : Option (Name × Name)}
    (run : Trace (b.route sender) events routed) (obliging : ∀ event ∈ events, Obliging b event) :
    ∃ found, routed = some found := by
  unfold Bouncer.route at run
  obtain ⟨answer, _, rfl, deciding⟩ := Trace.ask_inv run
  have helps := obliging _ List.mem_cons_self
  cases answer with
  | none =>
    have fallback : b.relayGroup ≠ [] := by
      rcases helps with fallback | ⟨group, rule, same, _⟩
      · exact fallback
      · cases same
    dsimp only at deciding
    rw [if_pos fallback] at deciding
    exact ⟨_, (Trace.done_inv deciding).2⟩
  | some found =>
    obtain ⟨group, rule⟩ := found
    dsimp only at deciding
    split at deciding
    · exact ⟨_, (Trace.done_inv deciding).2⟩
    · rename_i empty
      have fallback : b.relayGroup ≠ [] := by
        rcases helps with fallback | ⟨group', rule', same, nonempty⟩
        · exact fallback
        · cases same
          exact absurd nonempty empty
      rw [if_pos fallback] at deciding
      exact ⟨_, (Trace.done_inv deciding).2⟩

theorem toAddr_ne_nil (answerable : suppress env = false) : env.mailFrom ≠ [] := by
  intro null
  simp [suppress, null, Text.trimSpace] at answerable

theorem Bouncer.bounce_names {outcome : Except Chars Bool} (usable : b.Usable)
    (run : Trace (b.bounce env req) events (env', outcome)) (obliging : ∀ event ∈ events, Obliging b event)
    (answerable : suppress env = false) (readable : ∀ original, req.original = some original → original.Sound)
    {addr : Name} (named : addr ∈ req.rcpts.map Dsn.Rcpt.addr) : NamedIn req.kind env.mailFrom addr events := by
  have somebody : req.rcpts ≠ [] := by
    intro empty
    simp [empty] at named
  unfold Bouncer.bounce at run
  rw [if_neg (by simp [usable.enabled]), if_neg somebody, if_neg (by simp [answerable])] at run
  obtain ⟨routing, _, routed, rfl, asked, clocking⟩ := Trace.bind_inv run
  obtain ⟨⟨group, rule⟩, rfl⟩ := Bouncer.route_found asked fun event member => obliging event (by simp [member])
  obtain ⟨now, _, rfl, building⟩ := Trace.ask_inv clocking
  dsimp only at building
  have ready : (b.report { env with dsnSeq := env.dsnSeq + 1 } (childID env.uuid (env.dsnSeq + 1)) now req).Ready :=
    ⟨usable.hostname, usable.postmaster, toAddr_ne_nil answerable, somebody, readable⟩
  rw [ready.build] at building
  obtain ⟨written, _, rfl, queueing⟩ := Trace.ask_inv building
  obtain ⟨⟨name, size⟩, rfl⟩ : ∃ file, written = .ok file :=
    obliging _ (List.mem_append_right _ (List.mem_cons_of_mem _ List.mem_cons_self))
  obtain ⟨queued, _, rfl, finished⟩ := Trace.ask_inv queueing
  have third : ∀ {first second last : Happening} {tail : List Happening},
      last ∈ routing ++ first :: second :: last :: tail := by simp
  obtain rfl : queued = none := obliging _ third
  have second : ∀ {first last : Happening} {tail : List Happening}, last ∈ routing ++ first :: last :: tail := by simp
  exact ⟨name, _, ⟨_, second, rfl⟩, ⟨_, third, rfl, rfl⟩, rfl, named⟩

/-- The notification quotes headers only, or a body that can be read. -/
theorem bounce_names (usable : b.Usable) (run : Trace (bounce b env req) events env')
    (obliging : ∀ event ∈ events, Obliging b event) (answerable : suppress env = false)
    (legible : b.quotesFullMessage env req.kind = true → ∀ event ∈ events, Legible event)
    (unquoted : req.original = none) {addr : Name} (named : addr ∈ req.rcpts.map Dsn.Rcpt.addr) :
    NamedIn req.kind env.mailFrom addr events := by
  unfold bounce at run
  obtain ⟨opened, _, rfl, noticing⟩ := Trace.ask_inv run
  have later : ∀ {tail : List Happening}, tail ⊆ ⟨.openBody env.body, opened⟩ :: tail := by
    intro tail event member
    exact List.mem_cons_of_mem _ member
  cases opened with
  | error err =>
    obtain ⟨sending, _, ⟨sent, outcome⟩, rfl, bounced, finished⟩ := Trace.bind_inv noticing
    obtain ⟨rfl, -⟩ := Trace.done_inv finished
    rw [List.append_nil] at *
    apply NamedIn.of_subset _ later
    apply Bouncer.bounce_names usable bounced (fun event member => obliging event (later member)) answerable _ named
    intro original quoted
    cases unquoted.symm.trans quoted
  | ok body =>
    obtain ⟨sending, _, ⟨sent, outcome⟩, rfl, bounced, finished⟩ := Trace.bind_inv noticing
    obtain ⟨rfl, -⟩ := Trace.done_inv finished
    rw [List.append_nil] at *
    apply NamedIn.of_subset _ later
    apply Bouncer.bounce_names usable bounced (fun event member => obliging event (later member)) answerable _ named
    intro original quoted
    cases quoted
    split
    · rename_i full
      rw [sound_messageBody]
      exact legible full ⟨.openBody env.body, .ok body⟩ (by simp)
    · rfl

theorem Envelope.same_mail {e e' : Envelope} (mail : e'.mail = e.mail) :
    e'.isDSN = e.isDSN ∧ e'.mailFrom = e.mailFrom ∧ e'.dsnRet = e.dsnRet ∧ e'.bodySize = e.bodySize := by
  simp only [Envelope.mail, Envelope.mk.injEq] at mail
  simp [mail]

theorem suppress_mail {e e' : Envelope} (mail : e'.mail = e.mail) : suppress e' = suppress e := by
  obtain ⟨dsn, sender, -, -⟩ := Envelope.same_mail mail
  simp [suppress, dsn, sender]

theorem quotesFullMessage_mail {e e' : Envelope} (mail : e'.mail = e.mail) (kind : Dsn.Kind) :
    b.quotesFullMessage e' kind = b.quotesFullMessage e kind := by
  obtain ⟨-, -, ret, size⟩ := Envelope.same_mail mail
  simp [Bouncer.quotesFullMessage, ret, size]

section Groups
variable {kind : Dsn.Kind} {concerns : Recipient → Bool} {describe : Recipient → Dsn.Rcpt}

theorem reportGroup_rcpts (run : Trace (reportGroup b kind concerns describe env) events env') :
    env'.rcpts = env.rcpts.map fun r => if concerns r then markSent r else r := by
  unfold reportGroup at run
  dsimp only at run
  split at run
  · rename_i nobody
    obtain ⟨-, rfl⟩ := Trace.done_inv run
    have unchanged : ∀ r ∈ env'.rcpts, (if concerns r then markSent r else r) = r := by
      intro r member
      rw [if_neg]
      exact List.filter_eq_nil_iff.mp nobody r member
    rw [List.map_congr_left unchanged, List.map_id']
  · obtain ⟨_, _, _, -, _, finished⟩ := Trace.bind_inv run
    cases (Trace.done_inv finished).2
    rfl

theorem reportGroup_names (usable : b.Usable) (run : Trace (reportGroup b kind concerns describe env) events env')
    (obliging : ∀ event ∈ events, Obliging b event) (answerable : suppress env = false)
    (legible : b.quotesFullMessage env kind = true → ∀ event ∈ events, Legible event)
    (faithful : ∀ r, (describe r).addr = r.addr) {r : Recipient} (member : r ∈ env.rcpts) (concerned : concerns r = true) :
    NamedIn kind env.mailFrom r.addr events := by
  have listed : r ∈ env.rcpts.filter concerns := List.mem_filter.mpr ⟨member, concerned⟩
  unfold reportGroup at run
  dsimp only at run
  split at run
  · rename_i nobody
    rw [nobody] at listed
    cases listed
  · obtain ⟨telling, _, told, rfl, noticed, finished⟩ := Trace.bind_inv run
    obtain ⟨rfl, -⟩ := Trace.done_inv finished
    rw [List.append_nil] at *
    apply bounce_names usable noticed obliging answerable legible rfl
    have named := List.mem_map_of_mem (f := fun r => (describe r).addr) listed
    rw [List.map_map]
    simpa [faithful] using named

end Groups

end Bouncing

def Told [CaseFolding] (sender : Name) (r : Recipient) (events : List Happening) : Prop :=
  ((r.status = .permfail ∨ r.status = .expired) → r.wantsFailureDSN = true → NamedIn .failed sender r.addr events) ∧
    (r.status = .delivered → r.wantsSuccessDSN = true → NamedIn .relayed sender r.addr events)

def Recipient.Unreported (r : Recipient) : Prop := r.dsnSent = false ∧ r.status ≠ .expired

section Marks
variable (c : Prop) [Decidable c] (r : Recipient)

@[simp] theorem markIf_addr : (if c then markSent r else r).addr = r.addr := by split <;> rfl
@[simp] theorem markIf_status : (if c then markSent r else r).status = r.status := by split <;> rfl
@[simp] theorem markIf_failure [CaseFolding] :
    (if c then markSent r else r).wantsFailureDSN = r.wantsFailureDSN := by split <;> rfl
@[simp] theorem markIf_success [CaseFolding] :
    (if c then markSent r else r).wantsSuccessDSN = r.wantsSuccessDSN := by split <;> rfl

end Marks

section Exits
variable [CaseFolding] {cfg : RunnerConfig} {b : Bouncer} {inflight : Name} {env env' : Envelope}
  {events : List Happening}

theorem setStatusIn_unreported {addr : Name} {status : Status} {code : Int} {msg : Name} (alive : status ≠ .expired)
    {rs : List Recipient} (unreported : ∀ r ∈ rs, r.Unreported) :
    ∀ r ∈ Envelope.setStatusIn addr status code msg rs, r.Unreported := by
  induction rs with
  | nil => simp [Envelope.setStatusIn]
  | cons head rest ih =>
    have first := unreported head (by simp)
    have others : ∀ r ∈ rest, r.Unreported := fun r member => unreported r (by simp [member])
    intro r member
    rw [Envelope.setStatusIn] at member
    split at member
    · rcases List.mem_cons.mp member with rfl | later
      · exact ⟨first.1, alive⟩
      · exact others r later
    · rcases List.mem_cons.mp member with rfl | later
      · exact first
      · exact ih others r later

theorem foldl_recordIn_unreported (results : List RcptResult) {rs : List Recipient}
    (unreported : ∀ r ∈ rs, r.Unreported) : ∀ r ∈ results.foldl recordIn rs, r.Unreported := by
  induction results generalizing rs with
  | nil => exact unreported
  | cons rr rest ih =>
    apply ih
    unfold recordIn
    split
    · exact setStatusIn_unreported (by simp) unreported
    · exact setStatusIn_unreported (by simp) unreported
    · exact unreported

theorem complete_told (bouncer : cfg.bouncer = some b) (usable : b.Usable) (answerable : suppress env = false)
    (unreported : ∀ r ∈ env.rcpts, r.Unreported) {failing relaying : List Happening} {failed relayed : Envelope}
    (first : Trace (bounceFailed cfg env) failing failed) (second : Trace (notifyRelayed cfg failed) relaying relayed)
    (obliging : ∀ event ∈ failing ++ relaying, Obliging b event)
    (legible : ∀ kind, b.quotesFullMessage env kind = true → ∀ event ∈ failing ++ relaying, Legible event) :
    ∀ r ∈ relayed.rcpts, Told env.mailFrom r (failing ++ relaying) := by
  have mail := (bounceFailed_keeps first).1
  have sender := (Envelope.same_mail mail).2.1
  have answerable' : suppress failed = false := (suppress_mail mail).trans answerable
  simp only [bounceFailed, bouncer, answerable, Bool.false_eq_true, ite_false] at first
  simp only [notifyRelayed, bouncer, answerable', Bool.false_eq_true, ite_false] at second
  intro r'' member
  rw [reportGroup_rcpts second] at member
  obtain ⟨r', within', rfl⟩ := List.mem_map.mp member
  have named := reportGroup_names usable second (fun event late => obliging event (by simp [late])) answerable'
    (fun full event late => legible .relayed (quotesFullMessage_mail mail _ ▸ full) event (by simp [late]))
    (fun _ => rfl) within'
  rw [sender] at named
  rw [reportGroup_rcpts first] at within'
  obtain ⟨r, within, rfl⟩ := List.mem_map.mp within'
  have bounced := reportGroup_names usable first (fun event early => obliging event (by simp [early])) answerable
    (fun full event early => legible .failed full event (by simp [early])) (fun _ => rfl) within
  obtain ⟨unsent, alive⟩ := unreported r within
  constructor
  · intro status wants
    simp only [markIf_status, markIf_failure, markIf_addr] at status wants ⊢
    have rejected : r.status = .permfail := status.resolve_right alive
    apply NamedIn.of_subset _ (List.subset_append_left _ _)
    exact bounced (by simp [failedUnreported, rejected, unsent, wants])
  · intro status wants
    simp only [markIf_status, markIf_success, markIf_addr] at status wants ⊢
    have unmarked : failedUnreported r = false := by simp [failedUnreported, status]
    apply NamedIn.of_subset _ (List.subset_append_right _ _)
    simp only [unmarked, Bool.false_eq_true, ite_false] at named
    exact named (by simp [relayedUnreported, status, unsent, wants])

def owed (r : Recipient) : Bool :=
  (r.status == .permfail && r.wantsFailureDSN) || (r.status == .delivered && r.wantsSuccessDSN)

theorem buried_told (bouncer : cfg.bouncer = some b) (usable : b.Usable) (answerable : suppress env = false)
    (unreported : ∀ r ∈ env.rcpts, r.Unreported) (nothing : ∀ r ∈ env.rcpts, owed r = false) {gone : Envelope}
    (run : Trace (bounceExpired cfg env { env with rcpts := env.rcpts.map expireRcpt }) events gone)
    (obliging : ∀ event ∈ events, Obliging b event)
    (legible : b.quotesFullMessage env .failed = true → ∀ event ∈ events, Legible event) :
    ∀ r ∈ gone.rcpts, Told env.mailFrom r events := by
  have rcpts := (bounceExpired_alike run).rcpts
  intro r' member
  rw [rcpts] at member
  obtain ⟨r, within, rfl⟩ := List.mem_map.mp member
  obtain ⟨unsent, alive⟩ := unreported r within
  have settled := nothing r within
  by_cases pending : r.isPending = true
  · constructor
    · intro status wants
      have asks : r.wantsFailureDSN = true := by
        simp only [expireRcpt, pending, ite_true] at wants
        split at wants <;> exact wants
      have addr : (expireRcpt r).addr = r.addr := (lapsed_expireRcpt r).kept.addr
      have listed : r ∈ env.rcpts.filter expiredUnreported :=
        List.mem_filter.mpr ⟨within, by simp [expiredUnreported, pending, asks, unsent]⟩
      have somebody : env.rcpts.filter expiredUnreported ≠ [] := by
        intro empty
        rw [empty] at listed
        cases listed
      simp only [bounceExpired, bouncer, answerable, Bool.false_eq_true, or_false, somebody, ite_false] at run
      rw [addr]
      apply bounce_names usable run obliging answerable legible rfl
      have named := List.mem_map_of_mem (f := Recipient.addr) listed
      rw [List.map_map]
      exact named
    · intro status wants
      simp only [expireRcpt, pending, ite_true] at status
      split at status <;> cases status
  · have same : expireRcpt r = r := by
      simp [expireRcpt, pending]
    rw [same]
    simp only [owed, Bool.or_eq_false_iff, Bool.and_eq_false_iff, beq_eq_false_iff_ne, ne_eq] at settled
    constructor
    · intro status wants
      have rejected : r.status = .permfail := status.resolve_right alive
      simp [rejected, wants] at settled
    · intro status wants
      simp [status, wants] at settled

def Happening.removed (event : Happening) : Option Envelope :=
  match event with
  | ⟨.complete _ e, _⟩ => some e
  | ⟨.bury _ e, _⟩ => some e
  | _ => none

def Happening.Buries (event : Happening) : Prop :=
  match event with
  | ⟨.bury _ _, _⟩ => True
  | _ => False

def Tells (env : Envelope) (events : List Happening) : Prop :=
  ∃ before exit, events = before ++ [exit] ∧ (∀ event ∈ before, event.1.Aside) ∧
    ∀ after, Happening.removed exit = some after → (Happening.Buries exit → ∀ r ∈ env.rcpts, owed r = false) →
      ∀ r ∈ after.rcpts, Told env.mailFrom r before

theorem Told.of_subset {sender : Name} {r : Recipient} {events' : List Happening} (told : Told sender r events)
    (sub : events ⊆ events') : Told sender r events' :=
  ⟨fun status wants => (told.1 status wants).of_subset sub, fun status wants => (told.2 status wants).of_subset sub⟩

theorem Tells.after {before : List Happening} (aside : ∀ event ∈ before, event.1.Aside) (tells : Tells env events) :
    Tells env (before ++ events) := by
  obtain ⟨middle, exit, rfl, calm, told⟩ := tells
  refine ⟨before ++ middle, exit, by simp, ?_, ?_⟩
  · intro event member
    rcases List.mem_append.mp member with early | late
    · exact aside event early
    · exact calm event late
  · exact fun after removed nothing r member =>
      (told after removed nothing r member).of_subset (List.subset_append_right _ _)

theorem Tells.of_alike (same : env.Alike env') (tells : Tells env' events) : Tells env events := by
  obtain ⟨before, exit, split, aside, told⟩ := tells
  refine ⟨before, exit, split, aside, ?_⟩
  rw [same.rcpts, (Envelope.same_mail same.mail).2.1] at told
  exact told

section Closings
variable (bouncer : cfg.bouncer = some b) (usable : b.Usable) (answerable : suppress env = false)
  (unreported : ∀ r ∈ env.rcpts, r.Unreported) (obliging : ∀ event ∈ events, Obliging b event)
  (legible : ∀ kind, b.quotesFullMessage env kind = true → ∀ event ∈ events, Legible event)
include bouncer usable answerable unreported obliging legible

theorem expire_told (run : Trace (expire cfg inflight env) events true) : Tells env events := by
  unfold expire at run
  split at run
  · cases (Trace.done_inv run).2
  obtain ⟨now, rest, rfl, judging⟩ := Trace.ask_inv run
  have clock : ∀ event ∈ [(⟨.now, now⟩ : Happening)], event.1.Aside := by
    simp [Effect.Aside]
  split at judging
  · cases (Trace.done_inv judging).2
  · obtain ⟨telling, _, gone, rfl, told, burying⟩ := Trace.bind_inv judging
    obtain ⟨answer, _, rfl, finished⟩ := Trace.ask_inv burying
    obtain ⟨rfl, -⟩ := Trace.done_inv finished
    rw [← List.singleton_append]
    apply Tells.after clock
    refine ⟨telling, _, rfl, aside_of_clerical told bounceExpired_clerical, fun after removed nothing => ?_⟩
    cases removed
    exact buried_told bouncer usable answerable unreported (nothing trivial) told
      (fun event member => obliging event (by simp [member]))
      (fun full event member => legible .failed full event (by simp [member]))

theorem deferEnvelope_told {reason : Chars} (run : Trace (deferEnvelope cfg inflight env reason) events ()) :
    Tells env events := by
  unfold deferEnvelope at run
  dsimp only at run
  generalize reasoned : (if reason ≠ [] then { env with lastErr := reason } else env) = stamped at run
  have same : env.Alike stamped := by
    rw [← reasoned]
    split
    · exact ⟨rfl, rfl⟩
    · exact .refl _
  apply Tells.of_alike same
  have answerable' := (suppress_mail same.mail).trans answerable
  have unreported' : ∀ r ∈ stamped.rcpts, r.Unreported := same.rcpts ▸ unreported
  obtain ⟨ageing, rest, buried, rfl, aged, continuing⟩ := Trace.bind_inv run
  cases buried with
  | true =>
    obtain ⟨rfl, -⟩ := Trace.done_inv continuing
    rw [List.append_nil] at *
    apply expire_told bouncer usable answerable' unreported' obliging _ aged
    exact fun kind full => legible kind (quotesFullMessage_mail same.mail kind ▸ full)
  | false =>
    have quiet := expire_run aged
    obtain ⟨warning, _, warned, rfl, told, waiting⟩ := Trace.bind_inv continuing
    obtain ⟨delay, _, rfl, timing⟩ := Trace.ask_inv waiting
    obtain ⟨now, _, rfl, writing⟩ := Trace.ask_inv timing
    obtain ⟨answer, _, rfl, finished⟩ := Trace.ask_inv writing
    obtain ⟨rfl, -⟩ := Trace.done_inv finished
    apply Tells.after quiet
    apply Tells.after (aside_of_clerical told warnDelayed_clerical)
    refine ⟨[⟨.jitter _, delay⟩, ⟨.now, now⟩], _, rfl, ?_, fun after removed => by cases removed⟩
    simp [Effect.Aside]

theorem conclude_told (run : Trace (conclude cfg inflight env) events ()) : Tells env events := by
  unfold conclude at run
  split at run
  · obtain ⟨failing, _, failed, rfl, first, remaining⟩ := Trace.bind_inv run
    obtain ⟨relaying, _, relayed, rfl, second, completing⟩ := Trace.bind_inv remaining
    obtain ⟨answer, _, rfl, finished⟩ := Trace.ask_inv completing
    obtain ⟨rfl, -⟩ := Trace.done_inv finished
    refine ⟨failing ++ relaying, _, (List.append_assoc _ _ _).symm, ?_, fun after removed _ => ?_⟩
    · intro event member
      rcases List.mem_append.mp member with early | late
      · exact aside_of_clerical first bounceFailed_clerical event early
      · exact aside_of_clerical second notifyRelayed_clerical event late
    · cases removed
      apply complete_told bouncer usable answerable unreported first second
      · intro event member
        apply obliging
        rw [← List.append_assoc]
        exact List.mem_append_left _ member
      · intro kind full event member
        apply legible kind full
        rw [← List.append_assoc]
        exact List.mem_append_left _ member
  · exact deferEnvelope_told bouncer usable answerable unreported obliging legible run

theorem Closing.told (closing : Closing cfg inflight env events) : Tells env events := by
  cases closing with
  | deferred reason run => exact deferEnvelope_told bouncer usable answerable unreported obliging legible run
  | concluded run => exact conclude_told bouncer usable answerable unreported obliging legible run
  | stopped now answer all =>
    refine ⟨[⟨.now, now⟩], _, all, ?_, fun after removed => by cases removed⟩
    simp [Effect.Aside]

end Closings

def lastAnswer (events : List Happening) : Option Result :=
  events.findSome? fun event => match event with
    | ⟨.deliver _ _, res⟩ => if res.err = none then some res else none
    | _ => none

def settledBy (rs : List Recipient) (events : List Happening) : List Recipient :=
  match lastAnswer events with
  | some res => res.rcpts.foldl recordIn rs
  | none => rs

theorem AttemptMade.settledBy {settled : Envelope} {exit : Happening} (attempted : AttemptMade env events settled exit) :
    settled.rcpts = Queue.settledBy env.rcpts events := by
  rcases attempted.outcome with ⟨same, failed⟩ | ⟨relay, msg, res, offered, fine, applied, only⟩
  · have silent : lastAnswer events = none := by
      rw [lastAnswer, List.findSome?_eq_none_iff]
      rintro ⟨request, answer⟩ member
      cases request <;> first | rfl | exact if_neg (failed _ _ _ member)
    rw [Queue.settledBy, silent, same]
  · cases found : lastAnswer events with
    | none =>
      rw [lastAnswer, List.findSome?_eq_none_iff] at found
      have clash := found _ offered
      simp [fine] at clash
    | some res' =>
      obtain ⟨⟨request, answer⟩, member, this⟩ := List.exists_of_findSome?_eq_some found
      cases request with
      | deliver relay' msg' =>
        simp only [Option.ite_none_right_eq_some, Option.some.injEq] at this
        obtain ⟨fine', rfl⟩ := this
        rw [Queue.settledBy, found, applied, only relay' msg' answer member fine']
      | _ => cases this

/-- An attempt reports, before it takes the envelope out of the queue, on everybody the envelope
    then holds. -/
theorem attempt_told (bouncer : cfg.bouncer = some b) (usable : b.Usable) (answerable : suppress env = false)
    (unreported : ∀ r ∈ env.rcpts, r.Unreported) (obliging : ∀ event ∈ events, Obliging b event)
    (legible : ∀ kind, b.quotesFullMessage env kind = true → ∀ event ∈ events, Legible event)
    (run : Trace (attempt cfg inflight env) events ())
    (nothing : (∃ event ∈ events, Happening.Buries event) → ∀ r ∈ Queue.settledBy env.rcpts events, owed r = false) :
    ∃ before exit, events = before ++ [exit] ∧ (∀ event ∈ before, Happening.removed event = none) ∧
      ∀ after, Happening.removed exit = some after → ∀ r ∈ after.rcpts, Told env.mailFrom r before := by
  obtain ⟨offering, closing, settled, exit, rfl, offers, closed, attempted⟩ := attempt_parts run
  have rcpts := attempted.settledBy
  have clean : ∀ r ∈ settled.rcpts, r.Unreported := by
    rw [rcpts, Queue.settledBy]
    split
    · exact foldl_recordIn_unreported _ unreported
    · exact unreported
  have tells := closed.told bouncer usable ((suppress_mail attempted.mail).trans answerable) clean
    (fun event member => obliging event (List.mem_append_right _ member))
    (fun kind full event member =>
      legible kind (quotesFullMessage_mail attempted.mail kind ▸ full) event (List.mem_append_right _ member))
  obtain ⟨before, exit, rfl, aside, told⟩ := tells
  refine ⟨offering ++ before, exit, (List.append_assoc _ _ _).symm, ?_, ?_⟩
  · intro event member
    have unremoved : ∀ event : Happening, event.1.Aside → Happening.removed event = none := by
      rintro ⟨request, answer⟩ calm
      cases request <;> first | rfl | exact calm.elim
    rcases List.mem_append.mp member with early | late
    · rcases offers.writes event early with calm | ⟨relay, msg, offer⟩
      · exact unremoved event calm
      · obtain ⟨request, answer⟩ := event
        cases offer
        rfl
    · exact unremoved event (aside event late)
  · intro after removed r member
    rw [(Envelope.same_mail attempted.mail).2.1] at told
    have reported := told after removed (fun buries => rcpts ▸ nothing ⟨exit, by simp, buries⟩) r member
    exact reported.of_subset (List.subset_append_right _ _)

theorem History.steady {first : Envelope} {past : List Happening} (history : History cfg first past env)
    (unreported : ∀ r ∈ first.rcpts, r.Unreported) : env.mail = first.mail ∧ ∀ r ∈ env.rcpts, r.Unreported := by
  induction history with
  | fresh => exact ⟨rfl, unreported⟩
  | lost _ _ _ ih => exact ih
  | retried _ run _ kept ih =>
    obtain ⟨settled, exit, attempted⟩ := attempt_attempted run
    have last := attempted.last _ kept (by simp [Happening.written])
    have left := attempted.left
    rw [← last] at left
    cases left with
    | reschedule alike =>
      refine ⟨alike.mail.trans (attempted.mail.trans ih.1), ?_⟩
      show ∀ r ∈ _, _
      rw [Envelope.dueAt, alike.rcpts, attempted.settledBy, Queue.settledBy]
      split
      · exact foldl_recordIn_unreported _ ih.2
      · exact ih.2

/-- As long as nobody a relay has decided about is owed a report when the envelope is given up on,
    every envelope that leaves the queue leaves with its sender told. -/
theorem reports_complete (cfg : RunnerConfig) (b : Bouncer) (bouncer : cfg.bouncer = some b) (usable : b.Usable)
    (first : Envelope) (answerable : suppress first = false) (unreported : ∀ r ∈ first.rcpts, r.Unreported)
    (past : List Happening) (env : Envelope) (history : History cfg first past env) (inflight : Name)
    (events : List Happening) (run : Trace (attempt cfg inflight env) events ())
    (obliging : ∀ event ∈ events, Obliging b event)
    (legible : ∀ kind, b.quotesFullMessage first kind = true → ∀ event ∈ events, Legible event)
    (nothing : (∃ event ∈ events, Happening.Buries event) → ∀ r ∈ Queue.settledBy env.rcpts events, owed r = false) :
    ∃ before exit, events = before ++ [exit] ∧ (∀ event ∈ before, Happening.removed event = none) ∧
      ∀ after, Happening.removed exit = some after → ∀ r ∈ after.rcpts, Told first.mailFrom r before := by
  obtain ⟨mail, clean⟩ := history.steady unreported
  rw [← (Envelope.same_mail mail).2.1]
  apply attempt_told bouncer usable ((suppress_mail mail).trans answerable) clean obliging _ run nothing
  exact fun kind full => legible kind (quotesFullMessage_mail mail kind ▸ full)

end Exits

section Sample

local instance : CaseFolding := ⟨Char.toLower⟩

def plainBouncer : Bouncer where
  enabled := true
  postmaster := "postmaster@gw".toList
  hostname := "gw".toList
  relayGroup := "g".toList

def bouncingConfig : RunnerConfig := { plainConfig with bouncer := some plainBouncer, maxLifetime := 1000000000 }

def refusingNet (refusals : List (String × Deliver.Failure)) : List Deliver.Event :=
  [⟨.dial "mx:25".toList, .ok sampleSocket⟩, ⟨.hello sampleSocket "gw".toList, none⟩,
    ⟨.mail sampleSocket "a@b".toList ⟨false, false⟩, none⟩] ++
  refusals.map (fun refusal => ⟨.rcpt sampleSocket refusal.1.toList, some refusal.2⟩) ++
  [⟨.quit sampleSocket, none⟩]

def refusedResult (refusals : List (String × Deliver.Failure)) : Result where
  relay := sampleRelay
  host := "mx".toList
  port := "25".toList
  tlsForced := false
  rcpts := refusals.map fun refusal => classify refusal.1.toList refusal.2
  poolable := true
  messages := 1

def refusedEvents (refusals : List (String × Deliver.Failure)) (closing : List Happening) : List Happening :=
  [⟨.lookup "g".toList, true⟩, ⟨.acquire "g".toList, true⟩, ⟨.targets "g".toList, ([sampleRelay], none)⟩,
    ⟨.sign { plainEnvelope (refusals.map Prod.fst) with attempts := 1 } [], []⟩,
    ⟨.openBody "a.1.eml".toList, .ok wholeFile⟩,
    ⟨.deliver sampleRelay (plainOffer (refusals.map Prod.fst)), refusedResult refusals⟩] ++ closing

def tellingEvents (kind : Dsn.Kind) (env : Envelope) (now : Int) (rcpts : List Dsn.Rcpt) (retryUntil : Option Int) :
    List Happening :=
  let env' := { env with dsnSeq := env.dsnSeq + 1 }
  let id := childID env'.uuid env'.dsnSeq
  [⟨.openBody env.body, .ok wholeFile⟩, ⟨.route env.mailFrom, none⟩, ⟨.now, now⟩,
    ⟨.writeBody id (.report (plainBouncer.report env' id now
      { rcpts, kind, original := some (Reader.ofBytes (headerBlock wholeFile)), retryUntil })), .ok (id, 100)⟩,
    ⟨.enqueue (Bouncer.notification env' id "g".toList id 100 now), none⟩]

theorem telling_obliging (kind : Dsn.Kind) (env : Envelope) (now : Int) (rcpts : List Dsn.Rcpt) (retryUntil : Option Int) :
    ∀ event ∈ tellingEvents kind env now rcpts retryUntil, Obliging plainBouncer event := by
  simp [tellingEvents, Obliging, plainBouncer]

theorem refused_obliging {refusals : List (String × Deliver.Failure)} {closing : List Happening}
    (obliging : ∀ event ∈ closing, Obliging plainBouncer event) :
    ∀ event ∈ refusedEvents refusals closing, Obliging plainBouncer event :=
  List.forall_mem_append.mpr ⟨by simp [Obliging], obliging⟩

def rejectedRcpt : Recipient :=
  { addr := "c@d".toList, status := .permfail, lastCode := 550, lastMsg := "no".toList }

def givenUp : Envelope :=
  { plainEnvelope ["c@d", "e@f"] with
    attempts := 1
    lastErr := "busy".toList
    rcpts := [rejectedRcpt, { addr := "e@f".toList, status := .expired, dsnSent := true }] }

def givenUpTelling : List Happening :=
  ⟨.now, (2000000000 : Int)⟩ ::
    tellingEvents .failed givenUp 2000000000 [describeExpired "busy".toList { addr := "e@f".toList }] none

theorem rejected_untold : ∃ before exit after,
    History bouncingConfig (plainEnvelope ["c@d", "e@f"]) [] (plainEnvelope ["c@d", "e@f"]) ∧
    Trace (attempt bouncingConfig "1.x".toList (plainEnvelope ["c@d", "e@f"])) (before ++ [exit]) () ∧
    Genuine bouncingConfig (before ++ [exit]) ∧ (∀ event ∈ before ++ [exit], Obliging plainBouncer event) ∧
    Happening.removed exit = some after ∧ rejectedRcpt ∈ after.rcpts ∧ rejectedRcpt.wantsFailureDSN = true ∧
    ¬ NamedIn .failed "a@b".toList rejectedRcpt.addr before := by
  let refusals : List (String × Deliver.Failure) := [("c@d", rejection), ("e@f", greylisting)]
  have rounds : Rounds (Deliver.deliver sampleRelay (plainOffer ["c@d", "e@f"]) bouncingConfig.deliverOptions)
      (refusingNet refusals) (refusedResult refusals) :=
    .last (Trace.of_replay (by decide))
  refine ⟨refusedEvents refusals givenUpTelling, ⟨.bury "1.x".toList { givenUp with dsnSeq := 1 }, none⟩,
    { givenUp with dsnSeq := 1 }, .fresh, Trace.of_replay (by decide), ?_, ?_, rfl, by decide,
    by decide, ?_⟩
  · intro relay msg res member
    simp [refusedEvents, givenUpTelling, tellingEvents] at member
    obtain ⟨⟨rfl, rfl⟩, same⟩ := member
    exact ⟨_, same ▸ rounds⟩
  · have noticed := telling_obliging .failed givenUp 2000000000
      [describeExpired "busy".toList { addr := "e@f".toList }] none
    have told : ∀ event ∈ givenUpTelling, Obliging plainBouncer event :=
      List.forall_mem_cons.mpr ⟨trivial, noticed⟩
    exact List.forall_mem_append.mpr ⟨refused_obliging told, List.forall_mem_singleton.mpr trivial⟩
  · rintro ⟨name, report, ⟨event, member, written⟩, -, -, named⟩
    have only : ((refusedEvents refusals givenUpTelling).filterMap Happening.reported).all fun written =>
        rejectedRcpt.addr ∉ written.2.rcpts.map Dsn.Rcpt.addr := by
      decide
    have clash := List.all_eq_true.mp only (name, report) (List.mem_filterMap.mpr ⟨event, member, written⟩)
    simp [named] at clash

def askingEnvelope : Envelope :=
  { plainEnvelope ["c@d", "e@f"] with
    rcpts := [{ addr := "c@d".toList, notify := ["SUCCESS".toList] }, { addr := "e@f".toList }] }

def relayedRcpt : Recipient :=
  { addr := "c@d".toList, notify := ["SUCCESS".toList], status := .delivered, lastCode := 250, lastMsg := "250 OK".toList }

def refusedRcpt : Recipient := { rejectedRcpt with addr := "e@f".toList }

def halfRelayed (seq : Nat) (told : Bool) : Envelope :=
  { askingEnvelope with attempts := 1, dsnSeq := seq, rcpts := [relayedRcpt, { refusedRcpt with dsnSent := told }] }

def halfRelayedDone : Envelope :=
  { halfRelayed 2 true with rcpts := [{ relayedRcpt with dsnSent := true }, { refusedRcpt with dsnSent := true }] }

def halfRelayedEvents : List Happening :=
  [⟨.lookup "g".toList, true⟩, ⟨.acquire "g".toList, true⟩, ⟨.targets "g".toList, ([sampleRelay], none)⟩,
    ⟨.sign { askingEnvelope with attempts := 1 } [], []⟩, ⟨.openBody "a.1.eml".toList, .ok wholeFile⟩,
    ⟨.deliver sampleRelay (plainOffer ["c@d", "e@f"]), { acceptedResult ["c@d"] with
      rcpts := classify "e@f".toList rejection :: (acceptedResult ["c@d"]).rcpts }⟩] ++
  tellingEvents .failed (halfRelayed 0 false) 1000 [reportOn refusedRcpt "5.0.0".toList "550 no".toList] none ++
  tellingEvents .relayed (halfRelayed 1 true) 2000 [reportOn relayedRcpt [] "250 250 OK".toList] none

theorem reports_complete_sample : ∃ before exit after,
    Trace (attempt bouncingConfig "1.x".toList askingEnvelope) (before ++ [exit]) () ∧
      Happening.removed exit = some after ∧ after.rcpts.map Recipient.status = [.delivered, .permfail] ∧
      ∀ r ∈ after.rcpts, Told "a@b".toList r before := by
  let exit : Happening := ⟨.complete "1.x".toList halfRelayedDone, none⟩
  have run : Trace (attempt bouncingConfig "1.x".toList askingEnvelope) (halfRelayedEvents ++ [exit]) () :=
    Trace.of_replay (by decide)
  have obliging : ∀ event ∈ halfRelayedEvents ++ [exit], Obliging plainBouncer event := by
    simp only [halfRelayedEvents, List.forall_mem_append]
    exact ⟨⟨⟨by simp [Obliging], telling_obliging _ _ _ _ _⟩, telling_obliging _ _ _ _ _⟩, by simp [exit, Obliging]⟩
  have legible : ∀ kind, plainBouncer.quotesFullMessage askingEnvelope kind = true →
      ∀ event ∈ halfRelayedEvents ++ [exit], Legible event := by
    intro kind full
    cases kind <;> exact absurd full (by decide)
  have unburied : ¬ ∃ event ∈ halfRelayedEvents ++ [exit], Happening.Buries event := by
    simp [exit, halfRelayedEvents, tellingEvents, Happening.Buries]
  obtain ⟨before, last, split, -, told⟩ := reports_complete bouncingConfig plainBouncer rfl ⟨rfl, by decide, by decide⟩
    askingEnvelope (by decide) (by simp [askingEnvelope, Recipient.Unreported]) [] _ .fresh "1.x".toList _ run obliging
    legible (fun buries => absurd buries unburied)
  obtain ⟨rfl, rfl⟩ : before = halfRelayedEvents ∧ last = exit := by
    simpa [eq_comm] using (List.append_inj' split rfl)
  exact ⟨_, _, halfRelayedDone, run, rfl, rfl, told halfRelayedDone rfl⟩

end Sample

end Mailgw.Queue
