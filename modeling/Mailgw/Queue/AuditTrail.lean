import Mailgw.Events.Addresses
import Mailgw.Queue.Reports

namespace Mailgw.Queue

open Calls Deliver

def Effect.Unlogged (request : Effect) : Prop := ∀ event, request ≠ .post event

theorem Effect.Clerical.unlogged {request : Effect} (clerical : request.Clerical) : request.Unlogged := by
  rintro event rfl
  exact clerical

theorem unlogged_of_clerical {α : Type} {p : Job α} (clerical : p.All Effect.Clerical) : p.All Effect.Unlogged :=
  clerical.mono fun _ request => request.unlogged

section Posting
variable {cfg : RunnerConfig} {inflight : Name} {env env' : Envelope} {events : List Happening}

def SameOrigin (env env' : Envelope) : Prop :=
  env'.mail = env.mail ∧ ∀ addr, ruleFor env' addr = ruleFor env addr

theorem ruleFor_eq (env : Envelope) (addr : Name) :
    ruleFor env addr = ((env.rcpts.find? fun p => p.addr = addr).map Recipient.routeRule).getD [] := by
  unfold ruleFor
  cases env.rcpts.find? fun p => p.addr = addr <;> rfl

theorem SameOrigin.trans {env'' : Envelope} (first : SameOrigin env env') (second : SameOrigin env' env'') :
    SameOrigin env env'' :=
  ⟨second.1.trans first.1, fun addr => (second.2 addr).trans (first.2 addr)⟩

def Speaks (cfg : RunnerConfig) (env : Envelope) (res : Result) (results : List RcptResult) (event : Events.Delivery) :
    Prop :=
  ∃ rr ∈ results, ∃ env' now, SameOrigin env env' ∧ event = deliveryEvent cfg env' res rr now

def Reported (cfg : RunnerConfig) (env : Envelope) (events : List Happening) (event : Events.Delivery) : Prop :=
  ∃ relay msg res, ⟨.deliver relay msg, res⟩ ∈ events ∧ res.err = none ∧ Speaks cfg env res res.rcpts event

theorem Reported.mono {later : List Happening} {event : Events.Delivery} (reported : Reported cfg env events event)
    (sub : events ⊆ later) : Reported cfg env later event := by
  obtain ⟨relay, msg, res, offered, rest⟩ := reported
  exact ⟨relay, msg, res, sub offered, rest⟩

section Recording
variable [CaseFolding]

theorem find_setStatusIn {addr' addr : Name} {status : Status} {code : Int} {msg : Name} (rs : List Recipient) :
    ((Envelope.setStatusIn addr' status code msg rs).find? fun p => p.addr = addr).map Recipient.routeRule =
      (rs.find? fun p => p.addr = addr).map Recipient.routeRule := by
  induction rs with
  | nil => rfl
  | cons r rest ih =>
    rw [Envelope.setStatusIn]
    split
    · by_cases same : r.addr = addr <;> simp [same]
    · by_cases same : r.addr = addr <;> simp [same, ih]

theorem sameOrigin_recordOne (env : Envelope) (rr : RcptResult) : SameOrigin env (recordOne env rr) := by
  refine ⟨recordOne_mail env rr, fun addr => ?_⟩
  simp only [ruleFor_eq, recordOne_rcpts, recordIn]
  cases rr.outcome with
  | delivered => rw [find_setStatusIn]
  | rejected => rw [find_setStatusIn]
  | deferred => rfl

theorem record_posts {res : Result} {results : List RcptResult} (run : Trace (record cfg res results env) events env')
    {event : Events.Delivery} {answer : Unit} (posted : ⟨.post event, answer⟩ ∈ events) :
    Speaks cfg env res results event := by
  induction results generalizing env events with
  | nil =>
    obtain ⟨rfl, -⟩ := Trace.done_inv run
    cases posted
  | cons rr rest ih =>
    have same := sameOrigin_recordOne env rr
    have later : ∀ {events}, Trace (record cfg res rest (recordOne env rr)) events env' →
        (⟨.post event, answer⟩ : Happening) ∈ events → Speaks cfg env res (rr :: rest) event := by
      intro events run posted
      obtain ⟨rr', member, env'', now, origin, told⟩ := ih run posted
      exact ⟨rr', by simp [member], env'', now, same.trans origin, told⟩
    simp only [record] at run
    split at run
    · obtain ⟨posting, tail, _, rfl, sending, recording⟩ := Trace.bind_inv run
      rcases List.mem_append.mp posted with here | there
      · unfold postDelivery at sending
        split at sending
        · obtain ⟨rfl, -⟩ := Trace.done_inv sending
          cases here
        · obtain ⟨now, _, rfl, posting⟩ := Trace.ask_inv sending
          obtain ⟨done, _, rfl, finished⟩ := Trace.call_inv posting
          obtain ⟨rfl, -⟩ := Trace.done_inv finished
          simp only [List.mem_cons, Sigma.mk.injEq, reduceCtorEq, false_and, false_or, List.not_mem_nil, or_false,
            Effect.post.injEq] at here
          exact ⟨rr, by simp, recordOne env rr, now, same, here.1⟩
      · exact later recording there
    · exact later run posted

theorem tryRelays_posts {signature : Chars} {addrs : List Name} {last : Option Result} {relays : List Relay}
    {tried : Tried} (run : Trace (tryRelays cfg env signature addrs last relays) events tried)
    {event : Events.Delivery} {answer : Unit} (posted : ⟨.post event, answer⟩ ∈ events) :
    Reported cfg env events event := by
  induction relays generalizing last events with
  | nil =>
    obtain ⟨rfl, -⟩ := Trace.done_inv run
    cases posted
  | cons relay rest ih =>
    simp only [tryRelays] at run
    obtain ⟨opened, _, rfl, offering⟩ := Trace.ask_inv run
    have next := (List.mem_cons.mp posted).resolve_left (by simp)
    cases opened with
    | error err =>
      obtain ⟨rfl, -⟩ := Trace.done_inv offering
      cases next
    | ok file =>
      obtain ⟨res, _, rfl, judging⟩ := Trace.ask_inv offering
      have after := (List.mem_cons.mp next).resolve_left (by simp)
      split at judging
      · apply (ih judging after).mono
        intro happening member
        simp [member]
      · rename_i fine
        obtain ⟨recording, _, settled, rfl, recorded, finished⟩ := Trace.bind_inv judging
        obtain ⟨rfl, -⟩ := Trace.done_inv finished
        rw [List.append_nil] at after
        exact ⟨relay, _, res, List.mem_cons_of_mem _ List.mem_cons_self, by simpa using fine, record_posts recorded after⟩

theorem expire_unlogged : (expire cfg inflight env).All Effect.Unlogged := by
  unfold expire
  split
  · exact trivial
  refine .ask nofun fun now => ?_
  split
  · exact trivial
  · apply (unlogged_of_clerical bounceExpired_clerical).bind
    exact fun gone => .ask nofun fun _ => trivial

theorem deferEnvelope_unlogged {reason : Chars} : (deferEnvelope cfg inflight env reason).All Effect.Unlogged := by
  unfold deferEnvelope
  dsimp only
  apply expire_unlogged.bind
  intro buried
  split
  · exact trivial
  · apply (unlogged_of_clerical warnDelayed_clerical).bind
    intro warned
    exact .ask nofun fun _ => .ask nofun fun _ => .ask nofun fun _ => trivial

theorem conclude_unlogged : (conclude cfg inflight env).All Effect.Unlogged := by
  unfold conclude
  split
  · apply (unlogged_of_clerical bounceFailed_clerical).bind
    intro failed
    apply (unlogged_of_clerical notifyRelayed_clerical).bind
    exact fun relayed => .ask nofun fun _ => trivial
  · exact deferEnvelope_unlogged

theorem attempt_posts (run : Trace (attempt cfg inflight env) events ()) {event : Events.Delivery} {answer : Unit}
    (posted : ⟨.post event, answer⟩ ∈ events) : Reported cfg env events event := by
  have silent : ∀ {p : Job Unit} {tail : List Happening}, p.All Effect.Unlogged → Trace p tail () →
      (⟨.post event, answer⟩ : Happening) ∉ tail := by
    intro p tail unlogged run member
    exact run.all unlogged _ member event rfl
  unfold attempt at run
  obtain ⟨known, _, rfl, entering⟩ := Trace.ask_inv run
  have posted := (List.mem_cons.mp posted).resolve_left (by simp)
  split at entering
  · exact absurd posted (silent deferEnvelope_unlogged entering)
  obtain ⟨running, _, rfl, resolving⟩ := Trace.ask_inv entering
  have posted := (List.mem_cons.mp posted).resolve_left (by simp)
  split at resolving
  · apply absurd posted (silent _ resolving)
    exact .ask nofun fun _ => .ask nofun fun _ => trivial
  obtain ⟨found, _, rfl, signing⟩ := Trace.ask_inv resolving
  have posted := (List.mem_cons.mp posted).resolve_left (by simp)
  obtain ⟨signature, _, rfl, trying⟩ := Trace.ask_inv signing
  have posted := (List.mem_cons.mp posted).resolve_left (by simp)
  obtain ⟨offering, closing, tried, rfl, offered, closed⟩ := Trace.bind_inv trying
  have early : (⟨.post event, answer⟩ : Happening) ∈ offering := by
    rcases List.mem_append.mp posted with here | there
    · exact here
    · cases tried with
      | bodyless => exact absurd there (silent deferEnvelope_unlogged closed)
      | through settled last => exact absurd there (silent conclude_unlogged closed)
  have reported : Reported cfg env offering event := tryRelays_posts offered early
  apply reported.mono
  intro happening member
  simp [member]

/-- What the log has to be able to take of one delivery: a sender that is null or a mailbox, a
    recipient at a host name, a relay with a host name of its own whose address carries no zone,
    and names that fit. -/
def Presentable (sender addr exchange ip label rule : Name) : Prop :=
  (sender = [] ∨ Events.Mailbox sender) ∧ Events.Loggable addr ∧
    (Events.HostName exchange ∧ Events.byteLength exchange ≤ 255) ∧ Events.validIP ip = true ∧
    (Events.byteLength label ≤ Events.gatewayLabelMax ∨
      ∃ kept, kept <+: label ∧ Events.byteLength kept = Events.gatewayLabelMax) ∧
    Events.byteLength rule ≤ 255

/-- The event tells what became of this recipient at this relay. -/
structure Audits (cfg : RunnerConfig) (env : Envelope) (relay : Relay) (res : Result) (rr : RcptResult)
    (event : Events.Delivery) : Prop where
  uuid : event.uuid = env.uuid
  sender : event.sender = env.mailFrom
  rcptDomain : event.rcptDomain = Events.domainOf rr.addr
  rcptList : event.rcptList = rr.addr
  rcptAccepted : event.rcptAccepted = rr.addr
  host : event.host = relay.exchange
  ip : event.ip = res.ip
  gateway : event.gateway = cfg.gateway
  routeRule : event.routeRule = ruleFor env rr.addr

/-- The log takes exactly the events about presentable deliveries. -/
theorem audit_accepted_iff (cfg : RunnerConfig) (label : Name) (labelled : cfg.gateway = Events.gatewayLabel label)
    (env : Envelope) (inflight : Name) (events : List Happening) (run : Trace (attempt cfg inflight env) events ())
    (genuine : Genuine cfg events) (event : Events.Delivery) (posted : ⟨.post event, ()⟩ ∈ events) :
    ∃ relay msg res, ⟨.deliver relay msg, res⟩ ∈ events ∧ res.err = none ∧ ∃ rr ∈ res.rcpts,
      Audits cfg env relay res rr event ∧
      (Events.parseDelivery event.decoded = .ok event.decoded ↔
        Presentable env.mailFrom rr.addr relay.exchange res.ip label (ruleFor env rr.addr)) := by
  obtain ⟨relay, msg, res, offered, fine, rr, member, env', now, ⟨mail, rules⟩, rfl⟩ := attempt_posts run posted
  obtain ⟨net, rounds⟩ := genuine relay msg res offered
  obtain ⟨host, port⟩ := rounds_towards rounds
  have sender := (Envelope.same_mail mail).2.1
  refine ⟨relay, msg, res, offered, fine, rr, member, ?_, ?_⟩
  · have uuid : env'.mail.uuid = env.mail.uuid := by rw [mail]
    exact ⟨uuid, sender, rfl, rfl, rfl, host, rfl, rfl, rules rr.addr⟩
  have digits : Events.portPattern.isMatch res.port = true := by
    rw [Text.Pattern.isMatch_iff, Events.portPattern, Text.Pattern.matches_some_one, port]
    exact ⟨Nat.toDigits_ne_nil, fun c digit => Nat.isDigit_of_mem_toDigits (by decide) (by decide) digit⟩
  have recipient : Events.HostName (Events.domainOf rr.addr) ∧ Events.Mailbox rr.addr ↔ Events.Loggable rr.addr := by
    rw [Events.loggable_iff, Events.hostName_iff, Events.mailbox_iff]
  have label_ : Events.byteLength cfg.gateway ≤ 64 ↔ _ := labelled ▸ Events.gatewayLabel_fits label
  rw [Events.parseDelivery_iff, Presentable, ← recipient, ← label_]
  simp only [deliveryEvent, sender, host, rules, digits, true_and]
  constructor
  · rintro ⟨from_, domain, list, accepted, name, long, ip, gateway, rule⟩
    exact ⟨from_, ⟨domain, list⟩, ⟨name, long⟩, ip, gateway, rule⟩
  · rintro ⟨from_, ⟨domain, list⟩, ⟨name, long⟩, ip, gateway, rule⟩
    exact ⟨from_, domain, list, list, name, long, ip, gateway, rule⟩

end Recording

end Posting

section Sample

local instance : CaseFolding := ⟨Char.toLower⟩

def postingConfig : RunnerConfig := { plainConfig with posts := true, gateway := "gw-1".toList }

def acceptedEvent (addr : String) : Events.Delivery where
  uuid := "a.1.1".toList
  dt := 0
  sender := "a@b".toList
  rcptDomain := Events.domainOf addr.toList
  rcptList := addr.toList
  rcptAccepted := addr.toList
  tlsForced := false
  tls := false
  auth := false
  host := "mx".toList
  ip := []
  port := "25".toList
  response := "250 OK".toList
  delay := 1000
  gateway := "gw-1".toList
  routeRule := []

def acceptedRcpt (addr : String) : Recipient :=
  { addr := addr.toList, status := .delivered, lastCode := 250, lastMsg := "250 OK".toList }

def postingEvents (addrs : List String) : List Happening :=
  acceptedEvents addrs (addrs.flatMap (fun addr => [⟨.now, (1000 : Int)⟩, ⟨.post (acceptedEvent addr), ()⟩]) ++
    [⟨.complete "1.x".toList { plainEnvelope addrs with attempts := 1, rcpts := addrs.map acceptedRcpt }, none⟩])

theorem genuine_posting {addrs : List String} (rounds : Rounds (Deliver.deliver sampleRelay (plainOffer addrs)
    plainConfig.deliverOptions) (acceptingNet addrs) (acceptedResult addrs)) :
    Genuine postingConfig (postingEvents addrs) :=
  genuine_accepted rounds (by simp)

/-- A domain with an underscore is good enough for RCPT and for the relay, and not for the log. -/
theorem underscore_unlogged : ∃ events event,
    Trace (attempt postingConfig "1.x".toList (plainEnvelope ["c@my_host"])) events () ∧
    Genuine postingConfig events ∧ ⟨.post event, ()⟩ ∈ events ∧
    Events.parseDelivery event.decoded = .error ⟨"rcpt_domain", "must be a hostname or IP literal"⟩ := by
  have rounds : Rounds (Deliver.deliver sampleRelay (plainOffer ["c@my_host"]) plainConfig.deliverOptions)
      (acceptingNet ["c@my_host"]) (acceptedResult ["c@my_host"]) :=
    .last (Trace.of_replay (by decide))
  refine ⟨postingEvents ["c@my_host"], acceptedEvent "c@my_host", Trace.of_replay (by decide),
    genuine_posting rounds, ?_, by decide⟩
  simp [postingEvents, acceptedEvents]

/-- Of two accepted recipients, the log takes the event about the one at a host name. -/
theorem audit_accepted_iff_sample : ∃ events kept lost,
    Trace (attempt postingConfig "1.x".toList (plainEnvelope ["c@d", "c@my_host"])) events () ∧
    (⟨.post kept, ()⟩ ∈ events ∧ kept.rcptList = "c@d".toList ∧ Events.parseDelivery kept.decoded = .ok kept.decoded) ∧
    ⟨.post lost, ()⟩ ∈ events ∧ lost.rcptList = "c@my_host".toList ∧
      Events.parseDelivery lost.decoded ≠ .ok lost.decoded := by
  have rounds : Rounds (Deliver.deliver sampleRelay (plainOffer ["c@d", "c@my_host"]) plainConfig.deliverOptions)
      (acceptingNet ["c@d", "c@my_host"]) (acceptedResult ["c@d", "c@my_host"]) :=
    .last (Trace.of_replay (by decide))
  have run : Trace (attempt postingConfig "1.x".toList (plainEnvelope ["c@d", "c@my_host"]))
      (postingEvents ["c@d", "c@my_host"]) () :=
    Trace.of_replay (by decide)
  have taken (event : Events.Delivery) := audit_accepted_iff postingConfig "gw-1".toList (by decide)
    (plainEnvelope ["c@d", "c@my_host"]) "1.x".toList _ run (genuine_posting rounds) event
  have first : (⟨.post (acceptedEvent "c@d"), ()⟩ : Happening) ∈ postingEvents ["c@d", "c@my_host"] := by
    simp [postingEvents, acceptedEvents]
  have second : (⟨.post (acceptedEvent "c@my_host"), ()⟩ : Happening) ∈ postingEvents ["c@d", "c@my_host"] := by
    simp [postingEvents, acceptedEvents]
  refine ⟨_, acceptedEvent "c@d", acceptedEvent "c@my_host", run, ⟨first, rfl, ?_⟩, second, rfl, ?_⟩
  · obtain ⟨relay, _, res, -, -, rr, -, audits, accepted⟩ := taken _ first
    rw [accepted, ← audits.host, ← audits.ip, ← audits.rcptList]
    refine ⟨.inr ((Events.mailbox_iff _).mp (by decide)), (Events.loggable_iff _).mpr (by decide),
      ⟨(Events.hostName_iff _).mp (by decide), by decide⟩, by decide, .inl (by decide), by decide⟩
  · obtain ⟨relay, _, res, -, -, rr, -, audits, accepted⟩ := taken _ second
    intro kept
    obtain ⟨-, loggable, -⟩ := accepted.mp kept
    rw [← audits.rcptList] at loggable
    exact absurd ((Events.loggable_iff _).mp loggable) (by decide)

end Sample

end Mailgw.Queue
