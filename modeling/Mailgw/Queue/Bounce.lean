import Mailgw.Deliver.Client
import Mailgw.Dsn.Report
import Mailgw.Events.ParseDelivery
import Mailgw.Queue.Envelope

namespace Mailgw.Queue

open Calls Deliver

inductive Content where
  | message (reader : Reader)
  | report (report : Dsn.Report)
  deriving Repr, DecidableEq

/-- What the queue's clients ask of the spool, of the clock (in nanoseconds), of the rule engine
    and of the network. -/
inductive Effect where
  | now
  | jitter (delay : Int)
  | route (sender : Name)
  | openBody (body : Name)
  | writeBody (id : Name) (content : Content)
  | removeBody (name : Name)
  | enqueue (env : Envelope)
  | reschedule (inflight : Name) (env : Envelope) (due : Int)
  | complete (inflight : Name) (env : Envelope)
  | bury (inflight : Name) (env : Envelope)
  | lookup (group : Name)
  | acquire (group : Name)
  | targets (group : Name)
  | sign (env : Envelope) (prepend : Chars)
  | deliver (relay : Relay) (msg : Message)
  | post (event : Events.Delivery)
  deriving Repr, DecidableEq

abbrev Effect.Answer : Effect → Type
  | .now | .jitter _ => Int
  | .route _ => Option (Name × Name)
  | .openBody _ => Except Chars Reader
  | .writeBody _ _ => Except Chars (Name × Nat)
  | .removeBody _ | .enqueue _ | .reschedule _ _ _ | .complete _ _ | .bury _ _ => Option Chars
  | .lookup _ | .acquire _ => Bool
  | .targets _ => List Relay × Option Chars
  | .sign _ _ => Chars
  | .deliver _ _ => Result
  | .post _ => Unit

abbrev Job := Prog Effect Effect.Answer

abbrev Happening := Σ request : Effect, request.Answer

abbrev perform (request : Effect) : Job request.Answer := Prog.ask request

def Instant.ofNanos (t : Int) : Instant := ⟨(t / 1000000).toNat % 10 ^ 15, Nat.mod_lt _ (by decide)⟩

def Instant.nanos (t : Instant) : Int := t.val * 1000000

/-- The time since an instant, as far as a duration can hold it. -/
def since (t : Instant) (now : Int) : Int := max (-2 ^ 63) (min (2 ^ 63 - 1) (now - t.nanos))

structure Bouncer where
  enabled : Bool
  full : Bool := false
  maxReturnBytes : Int := 0
  postmaster : Chars
  hostname : Chars
  relayGroup : Name := []
  deriving Repr, DecidableEq

structure Request where
  rcpts : List Dsn.Rcpt
  kind : Dsn.Kind
  original : Option Reader := none
  retryUntil : Option Int := none
  deriving Repr, DecidableEq

def suppress (env : Envelope) : Bool := env.isDSN || Text.trimSpace env.mailFrom = []

def childID (id : Name) (n : Nat) : Name := id ++ '.' :: Nat.toDigits 10 n

namespace Bouncer

/-- The rule engine is asked first; only a relay decision counts. -/
def route (b : Bouncer) (sender : Name) : Job (Option (Name × Name)) := do
  match ← perform (.route sender) with
  | some (group, rule) =>
    if group ≠ [] then return some (group, rule)
    else if b.relayGroup ≠ [] then return some (b.relayGroup, "dsn.relay_group".toList)
    else return none
  | none =>
    if b.relayGroup ≠ [] then return some (b.relayGroup, "dsn.relay_group".toList)
    else return none

def quotesFullMessage (b : Bouncer) (env : Envelope) (kind : Dsn.Kind) : Bool :=
  if kind = .relayed then false
  else
    let full :=
      if Text.upper env.dsnRet = "FULL".toList then true
      else if Text.upper env.dsnRet = "HDRS".toList then false
      else b.full
    if !full then false
    else if 0 < b.maxReturnBytes ∧ b.maxReturnBytes < env.bodySize then false
    else true

def report (b : Bouncer) (env : Envelope) (id : Name) (now : Int) (req : Request) : Dsn.Report where
  reportingMTA := b.hostname
  fromAddr := b.postmaster
  toAddr := env.mailFrom
  kind := req.kind
  originalID := env.uuid
  envelopeID := env.dsnEnvID
  messageID := id ++ '@' :: b.hostname
  arrivalDate := env.queuedAt.nanos
  now
  rcpts := req.rcpts
  original := req.original
  full := b.quotesFullMessage env req.kind
  retryUntil := req.retryUntil

def notification (env : Envelope) (id group body : Name) (size : Nat) (now : Int) : Envelope where
  uuid := id
  txnUUID := env.uuid
  connUUID := env.connUUID
  body
  bodySize := size
  mailFrom := []
  rcpts := [{ addr := env.mailFrom }]
  relayGrp := group
  queuedAt := Instant.ofNanos now
  nextAt := Instant.ofNanos now
  isDSN := true

/-- Builds a notification and enqueues it, and reports whether one was queued. The envelope comes
    back with the number of the notification. -/
def bounce (b : Bouncer) (env : Envelope) (req : Request) : Job (Envelope × Except Chars Bool) := do
  if !b.enabled then return (env, .ok false)
  else if req.rcpts = [] then return (env, .ok false)
  else if suppress env then return (env, .ok false)
  else
    match ← b.route env.mailFrom with
    | none => return (env, .ok false)
    | some (group, _) =>
      let now ← perform .now
      let env := { env with dsnSeq := env.dsnSeq + 1 }
      let id := childID env.uuid env.dsnSeq
      match Dsn.build (b.report env id now req) with
      | .error err => return (env, .error ("build notification for ".toList ++ env.uuid ++ ": ".toList ++ err))
      | .ok report =>
        match ← perform (.writeBody id (.report report)) with
        | .error err => return (env, .error ("spool notification for ".toList ++ env.uuid ++ ": ".toList ++ err))
        | .ok (name, size) =>
          match ← perform (.enqueue (notification env id group name size now)) with
          | some err =>
            let _ ← perform (.removeBody name)
            return (env, .error ("queue notification for ".toList ++ env.uuid ++ ": ".toList ++ err))
          | none => return (env, .ok true)

end Bouncer

def headerCap : Nat := 2 ^ 20

def headerLines (line : Bytes) : Bytes → Bytes
  | [] => line
  | b :: rest =>
    let line := line ++ [b]
    if b = 10 then
      if line = [13, 10] ∨ line = [10] then line else line ++ headerLines [] rest
    else headerLines line rest

def headerBlock (r : Reader) : Bytes := headerLines [] (r.readable.take headerCap)

end Mailgw.Queue
