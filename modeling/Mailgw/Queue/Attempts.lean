import Mathlib.Data.List.Forall2
import Mailgw.Queue.Runner

namespace Mailgw.Queue

open Calls Deliver

def Effect.Aside : Effect → Prop
  | .deliver _ _ | .reschedule _ _ _ | .complete _ _ | .bury _ _ => False
  | _ => True

def Effect.Clerical : Effect → Prop
  | .post _ => False
  | request => request.Aside

theorem Effect.Clerical.aside {request : Effect} (clerical : request.Clerical) : request.Aside := by
  cases request <;> first | exact clerical | trivial

theorem aside_of_clerical {α : Type} {p : Job α} {events : List Happening} {value : α} (run : Trace p events value)
    (clerical : p.All Effect.Clerical) : ∀ event ∈ events, event.1.Aside :=
  fun event member => (run.all clerical event member).aside

/-- What an attempt and the notifications about it leave alone. -/
def Envelope.mail (e : Envelope) : Envelope :=
  { e with rcpts := [], attempts := 0, nextAt := .zero, lastErr := [], delayWarned := false, dsnSeq := 0 }

structure Envelope.Alike (e e' : Envelope) : Prop where
  mail : e'.mail = e.mail
  rcpts : e'.rcpts = e.rcpts

namespace Envelope.Alike

variable {e e' e'' : Envelope}

theorem refl (e : Envelope) : Alike e e := ⟨rfl, rfl⟩

theorem trans (first : Alike e e') (second : Alike e' e'') : Alike e e'' :=
  ⟨second.mail.trans first.mail, second.rcpts.trans first.rcpts⟩

end Envelope.Alike

section Notifying
variable {b : Bouncer} {env env' : Envelope} {req : Request} {events : List Happening}

theorem Bouncer.route_clerical (sender : Name) : (b.route sender).All Effect.Clerical := by
  unfold Bouncer.route
  refine .ask trivial fun answer => ?_
  repeat' split
  all_goals exact trivial

theorem Bouncer.bounce_clerical : (b.bounce env req).All Effect.Clerical := by
  unfold Bouncer.bounce
  split
  · exact trivial
  split
  · exact trivial
  split
  · exact trivial
  apply (Bouncer.route_clerical _).bind
  intro routed
  split
  · exact trivial
  refine .ask trivial fun now => ?_
  dsimp only
  split
  · exact trivial
  refine .ask trivial fun written => ?_
  split
  · exact trivial
  refine .ask trivial fun queued => ?_
  split
  · exact .ask trivial fun _ => trivial
  · exact trivial

theorem Bouncer.bounce_alike {outcome : Except Chars Bool} (run : Trace (b.bounce env req) events (env', outcome)) :
    env.Alike env' := by
  unfold Bouncer.bounce at run
  split at run
  · cases (Trace.done_inv run).2
    exact .refl _
  split at run
  · cases (Trace.done_inv run).2
    exact .refl _
  split at run
  · cases (Trace.done_inv run).2
    exact .refl _
  obtain ⟨_, _, routed, -, -, run⟩ := Trace.bind_inv run
  split at run
  · cases (Trace.done_inv run).2
    exact .refl _
  obtain ⟨now, _, -, run⟩ := Trace.ask_inv run
  dsimp only at run
  split at run
  · cases (Trace.done_inv run).2
    exact ⟨rfl, rfl⟩
  obtain ⟨written, _, -, run⟩ := Trace.ask_inv run
  split at run
  · cases (Trace.done_inv run).2
    exact ⟨rfl, rfl⟩
  obtain ⟨queued, _, -, run⟩ := Trace.ask_inv run
  split at run
  · obtain ⟨_, _, -, run⟩ := Trace.ask_inv run
    cases (Trace.done_inv run).2
    exact ⟨rfl, rfl⟩
  · cases (Trace.done_inv run).2
    exact ⟨rfl, rfl⟩

theorem bounce_clerical : (bounce b env req).All Effect.Clerical := by
  unfold bounce
  refine .ask trivial fun opened => ?_
  cases opened with
  | error err => exact Bouncer.bounce_clerical.bind fun _ => trivial
  | ok body => exact Bouncer.bounce_clerical.bind fun _ => trivial

theorem bounce_alike (run : Trace (bounce b env req) events env') : env.Alike env' := by
  unfold bounce at run
  obtain ⟨opened, _, -, run⟩ := Trace.ask_inv run
  cases opened with
  | error err =>
    obtain ⟨_, _, result, -, sent, run⟩ := Trace.bind_inv run
    cases (Trace.done_inv run).2
    exact Bouncer.bounce_alike sent
  | ok body =>
    obtain ⟨_, _, result, -, sent, run⟩ := Trace.bind_inv run
    cases (Trace.done_inv run).2
    exact Bouncer.bounce_alike sent

theorem postDelivery_aside {cfg : RunnerConfig} {res : Result} {rr : RcptResult} : (postDelivery cfg env res rr).All Effect.Aside := by
  unfold postDelivery
  split
  · exact trivial
  · exact .ask trivial fun _ => ⟨trivial, fun _ => trivial⟩

def Marked (rs rs' : List Recipient) : Prop := List.Forall₂ (fun r r' => r' = r ∨ r' = markSent r) rs rs'

theorem Marked.refl (rs : List Recipient) : Marked rs rs := List.forall₂_same.mpr fun _ _ => .inl rfl

theorem Marked.trans {rs rs' rs'' : List Recipient} (first : Marked rs rs') (second : Marked rs' rs'') :
    Marked rs rs'' := by
  induction first generalizing rs'' with
  | nil => exact second
  | cons head _ ih =>
    cases second with
    | cons head' tail' =>
      refine .cons ?_ (ih tail')
      rcases head with rfl | rfl <;> rcases head' with rfl | rfl <;> simp [markSent]

theorem reportGroup_clerical {kind : Dsn.Kind} {concerns : Recipient → Bool} {describe : Recipient → Dsn.Rcpt} :
    (reportGroup b kind concerns describe env).All Effect.Clerical := by
  unfold reportGroup
  dsimp only
  split
  · exact trivial
  · exact bounce_clerical.bind fun _ => trivial

theorem reportGroup_keeps {kind : Dsn.Kind} {concerns : Recipient → Bool} {describe : Recipient → Dsn.Rcpt}
    (run : Trace (reportGroup b kind concerns describe env) events env') :
    env'.mail = env.mail ∧ Marked env.rcpts env'.rcpts := by
  unfold reportGroup at run
  dsimp only at run
  split at run
  · cases (Trace.done_inv run).2
    exact ⟨rfl, .refl _⟩
  · obtain ⟨_, _, sent, -, told, run⟩ := Trace.bind_inv run
    cases (Trace.done_inv run).2
    refine ⟨(bounce_alike told).mail, List.forall₂_map_right_iff.mpr (List.forall₂_same.mpr ?_)⟩
    intro r _
    split
    · exact .inr rfl
    · exact .inl rfl

end Notifying

theorem stampReason_alike (env : Envelope) (last : Option Result) (resolveErr : Option Chars) :
    env.Alike (stampReason env last resolveErr) := by
  unfold stampReason
  repeat' split
  all_goals exact ⟨rfl, rfl⟩

variable [CaseFolding]

def settle (env : Envelope) (results : List RcptResult) : Envelope := results.foldl recordOne env

@[simp] theorem recordOne_mail (env : Envelope) (rr : RcptResult) : (recordOne env rr).mail = env.mail := by
  unfold recordOne
  split <;> rfl

@[simp] theorem settle_mail (env : Envelope) (results : List RcptResult) : (settle env results).mail = env.mail := by
  induction results generalizing env with
  | nil => rfl
  | cons rr rest ih =>
    show (settle (recordOne env rr) rest).mail = env.mail
    rw [ih, recordOne_mail]

def recordIn (rs : List Recipient) (rr : RcptResult) : List Recipient :=
  match rr.outcome with
  | .delivered => Envelope.setStatusIn rr.addr .delivered rr.code rr.message rs
  | .rejected => Envelope.setStatusIn rr.addr .permfail rr.code rr.message rs
  | .deferred => rs

theorem recordOne_rcpts (env : Envelope) (rr : RcptResult) : (recordOne env rr).rcpts = recordIn env.rcpts rr := by
  cases outcome : rr.outcome <;> simp [recordOne, recordIn, outcome, Envelope.setStatus]

theorem settle_rcpts (env : Envelope) (results : List RcptResult) :
    (settle env results).rcpts = results.foldl recordIn env.rcpts := by
  induction results generalizing env with
  | nil => rfl
  | cons rr rest ih =>
    show (settle (recordOne env rr) rest).rcpts = rest.foldl recordIn (recordIn env.rcpts rr)
    rw [ih, recordOne_rcpts]

section Steps
variable {cfg : RunnerConfig} {b : Bouncer} {inflight : Name} {env env' : Envelope} {events : List Happening}

theorem record_aside {res : Result} {results : List RcptResult} : (record cfg res results env).All Effect.Aside := by
  induction results generalizing env with
  | nil => exact trivial
  | cons rr rest ih =>
    simp only [record]
    split
    · exact postDelivery_aside.bind fun _ => ih
    · exact ih

theorem record_settles {res : Result} {results : List RcptResult}
    (run : Trace (record cfg res results env) events env') : env' = settle env results := by
  induction results generalizing env events with
  | nil => exact (Trace.done_inv run).2
  | cons rr rest ih =>
    simp only [record] at run
    split at run
    · obtain ⟨_, _, _, -, -, run⟩ := Trace.bind_inv run
      exact ih run
    · exact ih run

theorem bounceFailed_clerical : (bounceFailed cfg env).All Effect.Clerical := by
  unfold bounceFailed
  split
  · exact trivial
  split
  · exact trivial
  · exact reportGroup_clerical

theorem bounceFailed_keeps (run : Trace (bounceFailed cfg env) events env') :
    env'.mail = env.mail ∧ Marked env.rcpts env'.rcpts := by
  unfold bounceFailed at run
  split at run
  · cases (Trace.done_inv run).2
    exact ⟨rfl, .refl _⟩
  split at run
  · cases (Trace.done_inv run).2
    exact ⟨rfl, .refl _⟩
  · exact reportGroup_keeps run

theorem notifyRelayed_clerical : (notifyRelayed cfg env).All Effect.Clerical := by
  unfold notifyRelayed
  split
  · exact trivial
  split
  · exact trivial
  · exact reportGroup_clerical

theorem notifyRelayed_keeps (run : Trace (notifyRelayed cfg env) events env') :
    env'.mail = env.mail ∧ Marked env.rcpts env'.rcpts := by
  unfold notifyRelayed at run
  split at run
  · cases (Trace.done_inv run).2
    exact ⟨rfl, .refl _⟩
  split at run
  · cases (Trace.done_inv run).2
    exact ⟨rfl, .refl _⟩
  · exact reportGroup_keeps run

theorem bounceExpired_clerical {gone : Envelope} : (bounceExpired cfg env gone).All Effect.Clerical := by
  unfold bounceExpired
  split
  · exact trivial
  dsimp only
  split
  · exact trivial
  · exact bounce_clerical

theorem bounceExpired_alike {gone : Envelope} (run : Trace (bounceExpired cfg env gone) events env') :
    gone.Alike env' := by
  unfold bounceExpired at run
  split at run
  · cases (Trace.done_inv run).2
    exact .refl _
  dsimp only at run
  split at run
  · cases (Trace.done_inv run).2
    exact .refl _
  · exact bounce_alike run

theorem warnDelayed_clerical : (warnDelayed cfg env).All Effect.Clerical := by
  unfold warnDelayed
  split
  · exact trivial
  split
  · exact trivial
  refine .ask trivial fun now => ?_
  dsimp only
  split
  · exact trivial
  split
  · exact trivial
  · exact bounce_clerical

theorem warnDelayed_alike (run : Trace (warnDelayed cfg env) events env') : env.Alike env' := by
  unfold warnDelayed at run
  split at run
  · cases (Trace.done_inv run).2
    exact .refl _
  split at run
  · cases (Trace.done_inv run).2
    exact .refl _
  obtain ⟨now, _, -, run⟩ := Trace.ask_inv run
  dsimp only at run
  split at run
  · cases (Trace.done_inv run).2
    exact .refl _
  split at run
  · cases (Trace.done_inv run).2
    exact .refl _
  · have told := bounce_alike run
    exact ⟨told.mail, told.rcpts⟩

inductive Exit (env : Envelope) : Happening → Prop where
  | reschedule {inflight : Name} {e : Envelope} {due : Int} {answer : Option Chars} (kept : env.Alike e) :
      Exit env ⟨.reschedule inflight e due, answer⟩
  | complete {inflight : Name} {e : Envelope} {answer : Option Chars} (mail : e.mail = env.mail)
      (done : env.isDone = true) (marked : Marked env.rcpts e.rcpts) : Exit env ⟨.complete inflight e, answer⟩
  | bury {inflight : Name} {e : Envelope} {answer : Option Chars} (mail : e.mail = env.mail)
      (expired : e.rcpts = env.rcpts.map expireRcpt) : Exit env ⟨.bury inflight e, answer⟩

theorem Exit.of_alike {exit : Happening} (same : env.Alike env') (left : Exit env' exit) : Exit env exit := by
  cases left with
  | reschedule kept => exact .reschedule (same.trans kept)
  | complete mail done marked =>
    refine .complete (mail.trans same.mail) ?_ (same.rcpts ▸ marked)
    simpa only [Envelope.isDone, Envelope.pendingRcpts, same.rcpts] using done
  | bury mail expired => exact .bury (mail.trans same.mail) (same.rcpts ▸ expired)

def Ends (env : Envelope) (events : List Happening) : Prop :=
  ∃ before exit, events = before ++ [exit] ∧ (∀ event ∈ before, event.1.Aside) ∧ Exit env exit

theorem Ends.after {before : List Happening} (aside : ∀ event ∈ before, event.1.Aside) (ends : Ends env events) :
    Ends env (before ++ events) := by
  obtain ⟨middle, exit, rfl, calm, left⟩ := ends
  refine ⟨before ++ middle, exit, by simp, ?_, left⟩
  intro event member
  rcases List.mem_append.mp member with early | late
  · exact aside event early
  · exact calm event late

theorem Ends.of_alike (same : env.Alike env') (ends : Ends env' events) : Ends env events := by
  obtain ⟨before, exit, split, aside, left⟩ := ends
  exact ⟨before, exit, split, aside, left.of_alike same⟩

theorem expire_run {buried : Bool} (run : Trace (expire cfg inflight env) events buried) :
    if buried then Ends env events else ∀ event ∈ events, event.1.Aside := by
  unfold expire at run
  split at run
  · obtain ⟨rfl, rfl⟩ := Trace.done_inv run
    simp
  obtain ⟨now, rest, rfl, judging⟩ := Trace.ask_inv run
  have clock : ∀ event ∈ [(⟨.now, now⟩ : Happening)], event.1.Aside := by
    simp [Effect.Aside]
  split at judging
  · obtain ⟨rfl, rfl⟩ := Trace.done_inv judging
    exact clock
  · obtain ⟨telling, _, gone, rfl, told, burying⟩ := Trace.bind_inv judging
    obtain ⟨answer, _, rfl, finished⟩ := Trace.ask_inv burying
    obtain ⟨rfl, rfl⟩ := Trace.done_inv finished
    have kept := bounceExpired_alike told
    rw [← List.singleton_append, if_pos rfl]
    apply Ends.after clock
    exact ⟨telling, _, rfl, aside_of_clerical told bounceExpired_clerical, .bury kept.mail kept.rcpts⟩

theorem deferEnvelope_run {reason : Chars} (run : Trace (deferEnvelope cfg inflight env reason) events ()) :
    Ends env events := by
  unfold deferEnvelope at run
  dsimp only at run
  have reasoned : env.Alike (if reason ≠ [] then { env with lastErr := reason } else env) := by
    split
    · exact ⟨rfl, rfl⟩
    · exact .refl _
  apply Ends.of_alike reasoned
  obtain ⟨ageing, rest, buried, rfl, aged, run⟩ := Trace.bind_inv run
  have left := expire_run aged
  cases buried with
  | true =>
    obtain ⟨rfl, -⟩ := Trace.done_inv run
    simpa using left
  | false =>
    obtain ⟨warning, _, warned, rfl, told, waiting⟩ := Trace.bind_inv run
    obtain ⟨delay, _, rfl, timing⟩ := Trace.ask_inv waiting
    obtain ⟨now, _, rfl, writing⟩ := Trace.ask_inv timing
    obtain ⟨answer, _, rfl, finished⟩ := Trace.ask_inv writing
    obtain ⟨rfl, -⟩ := Trace.done_inv finished
    apply Ends.after left
    apply Ends.after (aside_of_clerical told warnDelayed_clerical)
    refine ⟨[⟨.jitter _, delay⟩, ⟨.now, now⟩], _, rfl, ?_, .reschedule (warnDelayed_alike told)⟩
    simp [Effect.Aside]

theorem conclude_run (run : Trace (conclude cfg inflight env) events ()) : Ends env events := by
  unfold conclude at run
  split at run
  · rename_i done
    obtain ⟨failing, _, failed, rfl, first, remaining⟩ := Trace.bind_inv run
    obtain ⟨relaying, _, relayed, rfl, second, completing⟩ := Trace.bind_inv remaining
    obtain ⟨answer, _, rfl, finished⟩ := Trace.ask_inv completing
    obtain ⟨rfl, -⟩ := Trace.done_inv finished
    have keptFirst := bounceFailed_keeps first
    have keptSecond := notifyRelayed_keeps second
    apply Ends.after (aside_of_clerical first bounceFailed_clerical)
    refine ⟨relaying, _, rfl, aside_of_clerical second notifyRelayed_clerical, .complete ?_ done ?_⟩
    · exact keptSecond.1.trans keptFirst.1
    · exact keptFirst.2.trans keptSecond.2
  · exact deferEnvelope_run run

inductive Closing (cfg : RunnerConfig) (inflight : Name) (env : Envelope) (events : List Happening) : Prop where
  | deferred (reason : Chars) (run : Trace (deferEnvelope cfg inflight env reason) events ())
  | concluded (run : Trace (conclude cfg inflight env) events ())
  | stopped (now : Int) (answer : Option Chars)
      (all : events = [⟨.now, now⟩, ⟨.reschedule inflight env now, answer⟩])

theorem Closing.ends (closing : Closing cfg inflight env events) : Ends env events := by
  cases closing with
  | deferred reason run => exact deferEnvelope_run run
  | concluded run => exact conclude_run run
  | stopped now answer all =>
    refine ⟨[⟨.now, now⟩], _, all, ?_, .reschedule (.refl _)⟩
    simp [Effect.Aside]

/-- The offers of an attempt: each to the recipients that are pending, and at most the last of
    them answered. -/
structure Offers (env : Envelope) (addrs : List Name) (events : List Happening) (settled : Envelope) : Prop where
  writes : ∀ event ∈ events, event.1.Aside ∨ ∃ relay msg, event.1 = .deliver relay msg
  sent : ∀ relay msg res, ⟨.deliver relay msg, res⟩ ∈ events → msg.mailFrom = env.mailFrom ∧ msg.rcpts = addrs
  mail : settled.mail = env.mail
  outcome : (settled.rcpts = env.rcpts ∧ ∀ relay msg res, ⟨.deliver relay msg, res⟩ ∈ events → res.err ≠ none) ∨
    ∃ relay msg res, ⟨.deliver relay msg, res⟩ ∈ events ∧ res.err = none ∧
      settled.rcpts = (settle env res.rcpts).rcpts ∧
      ∀ relay' msg' res', ⟨.deliver relay' msg', res'⟩ ∈ events → res'.err = none → res' = res

namespace Offers

variable {addrs : List Name} {settled settled' : Envelope}

theorem of_alike (offers : Offers env addrs events settled) (same : settled.Alike settled') :
    Offers env addrs events settled' where
  writes := offers.writes
  sent := offers.sent
  mail := same.mail.trans offers.mail
  outcome := by
    rw [same.rcpts]
    exact offers.outcome

theorem of_aside (aside : ∀ event ∈ events, event.1.Aside) (same : env.Alike settled) :
    Offers env addrs events settled where
  writes := fun event member => .inl (aside event member)
  sent := fun _ _ _ member => (aside _ member).elim
  mail := same.mail
  outcome := .inl ⟨same.rcpts, fun _ _ _ member => (aside _ member).elim⟩

theorem counted (offers : Offers { env with attempts := env.attempts + 1 } addrs events settled) :
    Offers env addrs events settled where
  writes := offers.writes
  sent := offers.sent
  mail := offers.mail
  outcome := by
    rcases offers.outcome with kept | ⟨relay, msg, res, answered, fine, applied, only⟩
    · exact .inl kept
    · refine .inr ⟨relay, msg, res, answered, fine, ?_, only⟩
      rw [applied, settle_rcpts, settle_rcpts]

theorem after {before : List Happening} (aside : ∀ event ∈ before, event.1.Aside)
    (offers : Offers env addrs events settled) : Offers env addrs (before ++ events) settled := by
  have within : ∀ {relay msg} {res : Result}, (⟨.deliver relay msg, res⟩ : Happening) ∈ before ++ events →
      (⟨.deliver relay msg, res⟩ : Happening) ∈ events := by
    intro relay msg res member
    rcases List.mem_append.mp member with early | late
    · exact (aside _ early).elim
    · exact late
  refine ⟨?_, fun relay msg res member => offers.sent relay msg res (within member), offers.mail, ?_⟩
  · intro event member
    rcases List.mem_append.mp member with early | late
    · exact .inl (aside event early)
    · exact offers.writes event late
  · rcases offers.outcome with ⟨same, failed⟩ | ⟨relay, msg, res, answered, fine, applied, only⟩
    · exact .inl ⟨same, fun relay msg res member => failed relay msg res (within member)⟩
    · refine .inr ⟨relay, msg, res, List.mem_append_right _ answered, fine, applied, ?_⟩
      exact fun relay' msg' res' member => only relay' msg' res' (within member)

theorem after_failed {relay : Relay} {msg : Message} {res : Result} (failed : res.err ≠ none)
    (mailFrom : msg.mailFrom = env.mailFrom) (rcpts : msg.rcpts = addrs) (offers : Offers env addrs events settled) :
    Offers env addrs (⟨.deliver relay msg, res⟩ :: events) settled := by
  refine ⟨?_, ?_, offers.mail, ?_⟩
  · intro event member
    rcases List.mem_cons.mp member with rfl | late
    · exact .inr ⟨relay, msg, rfl⟩
    · exact offers.writes event late
  · intro relay' msg' res' member
    rcases List.mem_cons.mp member with same | late
    · cases same
      exact ⟨mailFrom, rcpts⟩
    · exact offers.sent relay' msg' res' late
  · rcases offers.outcome with ⟨same, others⟩ | ⟨relay', msg', res', answered, fine, applied, only⟩
    · refine .inl ⟨same, fun relay' msg' res' member => ?_⟩
      rcases List.mem_cons.mp member with same | late
      · cases same
        exact failed
      · exact others relay' msg' res' late
    · refine .inr ⟨relay', msg', res', List.mem_cons_of_mem _ answered, fine, applied, ?_⟩
      intro relay'' msg'' res'' member clean
      rcases List.mem_cons.mp member with same | late
      · cases same
        exact absurd clean failed
      · exact only relay'' msg'' res'' late clean

theorem answered {relay : Relay} {msg : Message} {res : Result} {later : List Happening} (fine : res.err = none)
    (mailFrom : msg.mailFrom = env.mailFrom) (rcpts : msg.rcpts = addrs) (aside : ∀ event ∈ later, event.1.Aside) :
    Offers env addrs (⟨.deliver relay msg, res⟩ :: later) (settle env res.rcpts) := by
  refine ⟨?_, ?_, settle_mail _ _, .inr ⟨relay, msg, res, List.mem_cons_self, fine, rfl, ?_⟩⟩
  · intro event member
    rcases List.mem_cons.mp member with rfl | late
    · exact .inr ⟨relay, msg, rfl⟩
    · exact .inl (aside event late)
  · intro relay' msg' res' member
    rcases List.mem_cons.mp member with same | late
    · cases same
      exact ⟨mailFrom, rcpts⟩
    · exact (aside _ late).elim
  · intro relay' msg' res' member _
    rcases List.mem_cons.mp member with same | late
    · cases same
      rfl
    · exact (aside _ late).elim

end Offers

def Tried.settled (env : Envelope) : Tried → Envelope
  | .bodyless => env
  | .through settled _ => settled

theorem tryRelays_run {signature : Chars} {addrs : List Name} {last : Option Result} {relays : List Relay}
    {tried : Tried} (run : Trace (tryRelays cfg env signature addrs last relays) events tried) :
    Offers env addrs events (tried.settled env) := by
  induction relays generalizing last events with
  | nil =>
    obtain ⟨rfl, rfl⟩ := Trace.done_inv run
    exact .of_aside (by simp) (.refl _)
  | cons relay rest ih =>
    simp only [tryRelays] at run
    obtain ⟨opened, _, rfl, offering⟩ := Trace.ask_inv run
    have looked : ∀ event ∈ [(⟨.openBody env.body, opened⟩ : Happening)], event.1.Aside := by
      simp [Effect.Aside]
    rw [← List.singleton_append]
    cases opened with
    | error err =>
      obtain ⟨rfl, rfl⟩ := Trace.done_inv offering
      exact .of_aside looked (.refl _)
    | ok file =>
      obtain ⟨res, _, rfl, judging⟩ := Trace.ask_inv offering
      split at judging
      · rename_i failed
        apply Offers.after looked
        exact (ih judging).after_failed failed (by rfl) (by rfl)
      · rename_i fine
        obtain ⟨recording, _, settled, rfl, recorded, finished⟩ := Trace.bind_inv judging
        obtain ⟨rfl, rfl⟩ := Trace.done_inv finished
        rw [List.append_nil, record_settles recorded]
        have answer : res.err = none := by simpa using fine
        apply Offers.after looked
        exact Offers.answered answer (by rfl) (by rfl) (recorded.all record_aside)

/-- An attempt is a number of offers and then a closing. -/
theorem attempt_run (run : Trace (attempt cfg inflight env) events ()) : ∃ offering closing settled,
    events = offering ++ closing ∧ Offers env (env.pendingRcpts.map Recipient.addr) offering settled ∧
      Closing cfg inflight settled closing := by
  have counted : env.Alike { env with attempts := env.attempts + 1 } := ⟨rfl, rfl⟩
  unfold attempt at run
  obtain ⟨known, _, rfl, entering⟩ := Trace.ask_inv run
  split at entering
  · refine ⟨[⟨.lookup _, known⟩], _, _, rfl, .of_aside ?_ counted, .deferred _ entering⟩
    simp [Effect.Aside]
  obtain ⟨running, _, rfl, resolving⟩ := Trace.ask_inv entering
  split at resolving
  · obtain ⟨now, _, rfl, writing⟩ := Trace.ask_inv resolving
    obtain ⟨answer, _, rfl, finished⟩ := Trace.ask_inv writing
    obtain ⟨rfl, -⟩ := Trace.done_inv finished
    refine ⟨[⟨.lookup _, known⟩, ⟨.acquire _, running⟩], _, _, rfl, .of_aside ?_ counted, .stopped now answer rfl⟩
    simp [Effect.Aside]
  obtain ⟨found, _, rfl, signing⟩ := Trace.ask_inv resolving
  obtain ⟨signature, _, rfl, trying⟩ := Trace.ask_inv signing
  obtain ⟨offering, closing, tried, rfl, offered, closed⟩ := Trace.bind_inv trying
  have prepared : ∀ event ∈ ([⟨.lookup env.relayGrp, known⟩, ⟨.acquire env.relayGrp, running⟩,
      ⟨.targets env.relayGrp, found⟩, ⟨.sign { env with attempts := env.attempts + 1 } env.prependBlock,
        signature⟩] : List Happening), event.1.Aside := by
    simp [Effect.Aside]
  have offers := tryRelays_run offered
  refine ⟨[⟨.lookup env.relayGrp, known⟩, ⟨.acquire env.relayGrp, running⟩, ⟨.targets env.relayGrp, found⟩,
    ⟨.sign { env with attempts := env.attempts + 1 } env.prependBlock, signature⟩] ++ offering, closing, ?_⟩
  cases tried with
  | bodyless => exact ⟨_, rfl, (offers.after prepared).counted, .deferred _ closed⟩
  | through settled last =>
    have reasoned := offers.of_alike (stampReason_alike settled last found.2)
    exact ⟨_, rfl, (reasoned.after prepared).counted, .concluded closed⟩

end Steps

end Mailgw.Queue
