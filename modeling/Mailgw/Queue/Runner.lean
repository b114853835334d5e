import Mailgw.Queue.Bounce

namespace Mailgw.Queue

open Calls Deliver

structure RunnerConfig where
  backoff : Nat → Int
  maxLifetime : Int := 0
  delayWarnAfter : Int := 0
  bouncer : Option Bouncer := none
  localName : Chars := []
  pool : Option Pool := none
  posts : Bool := false
  gateway : Chars := []

def enhancedFor (code : Int) (temporary : Bool) : Chars :=
  if 500 ≤ code then "5.0.0".toList
  else if 400 ≤ code then "4.0.0".toList
  else if temporary then "4.0.0".toList
  else "5.0.0".toList

def diagnosticFor (code : Int) (msg : Chars) : Chars :=
  if 0 < code ∧ msg ≠ [] then intText code ++ ' ' :: msg
  else if 0 < code then intText code
  else msg

def firstNonEmpty : List Chars → Chars
  | [] => []
  | v :: rest => if v ≠ [] then v else firstNonEmpty rest

/-- Why a relay that answered left recipients pending. Empty when it left none. -/
def deferralReason (res : Result) : Chars :=
  let deferred := res.rcpts.filter fun rr => rr.outcome = .deferred
  if deferred = [] then []
  else
    let msg := firstNonEmpty (deferred.map fun rr => Text.trimSpace rr.message)
    if msg ≠ [] then msg
    else Nat.toDigits 10 deferred.length ++ " recipient(s) deferred by ".toList ++ res.relay.name

section Recording
variable [CaseFolding]

def recordOne (env : Envelope) (rr : RcptResult) : Envelope :=
  match rr.outcome with
  | .delivered => env.setStatus rr.addr .delivered rr.code rr.message
  | .rejected => env.setStatus rr.addr .permfail rr.code rr.message
  | .deferred => env

def ruleFor (env : Envelope) (addr : Name) : Name :=
  match env.rcpts.find? fun p => p.addr = addr with
  | some p => p.routeRule
  | none => []

def deliveryEvent (cfg : RunnerConfig) (env : Envelope) (res : Result) (rr : RcptResult) (now : Int) :
    Events.Delivery where
  uuid := env.uuid
  dt := env.queuedAt.val
  sender := env.mailFrom
  rcptDomain := Events.domainOf rr.addr
  rcptList := rr.addr
  rcptAccepted := rr.addr
  tlsForced := res.tlsForced
  tls := res.tls
  auth := res.auth
  host := res.host
  ip := res.ip
  port := res.port
  response := if rr.message = [] then res.response else rr.message
  delay := since env.queuedAt now
  gateway := cfg.gateway
  routeRule := ruleFor env rr.addr

def postDelivery (cfg : RunnerConfig) (env : Envelope) (res : Result) (rr : RcptResult) : Job Unit := do
  if !cfg.posts then return ()
  else
    let now ← perform .now
    perform (.post (deliveryEvent cfg env res rr now))

/-- Applies a result and emits one event for each recipient it settles. -/
def record (cfg : RunnerConfig) (res : Result) : List RcptResult → Envelope → Job Envelope
  | [], env => return env
  | rr :: rest, env => do
    let env := recordOne env rr
    if rr.outcome ≠ .deferred then
      postDelivery cfg env res rr
      record cfg res rest env
    else record cfg res rest env

end Recording

/-- Renders and queues one notification that quotes the original message, headers or all of it. -/
def bounce (b : Bouncer) (env : Envelope) (req : Request) : Job Envelope := do
  match ← perform (.openBody env.body) with
  | .error _ =>
    let (env, _) ← b.bounce env req
    return env
  | .ok body =>
    let original := messageBody [] env.prependBlock body
    let quoted := if b.quotesFullMessage env req.kind then original else Reader.ofBytes (headerBlock original)
    let (env, _) ← b.bounce env { req with original := some quoted }
    return env

def reportOn (r : Recipient) (status diagnostic : Chars) : Dsn.Rcpt where
  addr := r.addr
  origAddr := r.origRcpt
  origType := r.origRcptType
  status
  diagnostic

def markSent (r : Recipient) : Recipient := { r with dsnSent := true }

section Reports
variable [CaseFolding]

def reportGroup (b : Bouncer) (kind : Dsn.Kind) (concerns : Recipient → Bool) (describe : Recipient → Dsn.Rcpt)
    (env : Envelope) : Job Envelope := do
  let reported := env.rcpts.filter concerns
  if reported = [] then return env
  else
    let env' ← bounce b env { rcpts := reported.map describe, kind }
    return { env' with rcpts := env.rcpts.map fun r => if concerns r then markSent r else r }

def failedUnreported (r : Recipient) : Bool := r.status == .permfail && !r.dsnSent && r.wantsFailureDSN

def bounceFailed (cfg : RunnerConfig) (env : Envelope) : Job Envelope :=
  match cfg.bouncer with
  | none => return env
  | some b =>
    if suppress env then return env
    else reportGroup b .failed failedUnreported
      (fun r => reportOn r (enhancedFor r.lastCode false) (diagnosticFor r.lastCode r.lastMsg)) env

def relayedUnreported (r : Recipient) : Bool := r.status == .delivered && !r.dsnSent && r.wantsSuccessDSN

/-- Tells a sender that asked for it that its message reached the next hop. -/
def notifyRelayed (cfg : RunnerConfig) (env : Envelope) : Job Envelope :=
  match cfg.bouncer with
  | none => return env
  | some b =>
    if suppress env then return env
    else reportGroup b .relayed relayedUnreported
      (fun r => reportOn r [] (diagnosticFor r.lastCode r.lastMsg)) env

def expiredUnreported (r : Recipient) : Bool := r.isPending && r.wantsFailureDSN && !r.dsnSent

/-- Everybody still pending has expired; the ones the report will name count as told. -/
def expireRcpt (r : Recipient) : Recipient :=
  if r.isPending then
    if r.wantsFailureDSN then { r with status := .expired, dsnSent := true } else { r with status := .expired }
  else r

def describeExpired (lastErr : Chars) (r : Recipient) : Dsn.Rcpt :=
  reportOn r "5.4.7".toList (diagnosticFor r.lastCode
    (firstNonEmpty [r.lastMsg, lastErr, "message expired in the outbound queue".toList]))

def bounceExpired (cfg : RunnerConfig) (env gone : Envelope) : Job Envelope :=
  match cfg.bouncer with
  | none => return gone
  | some b =>
    let expired := env.rcpts.filter expiredUnreported
    if expired = [] ∨ suppress env then return gone
    else bounce b gone { rcpts := expired.map (describeExpired env.lastErr), kind := .failed }

/-- Buries an envelope that has outlived its time, and reports whether it did. -/
def expire (cfg : RunnerConfig) (inflight : Name) (env : Envelope) : Job Bool := do
  if cfg.maxLifetime ≤ 0 then return false
  else
    let now ← perform .now
    if since env.queuedAt now ≤ cfg.maxLifetime then return false
    else
      let gone ← bounceExpired cfg env { env with rcpts := env.rcpts.map expireRcpt }
      let _ ← perform (.bury inflight gone)
      return true

def describeDelayed (lastErr : Chars) (r : Recipient) : Dsn.Rcpt :=
  reportOn r [] (diagnosticFor r.lastCode (firstNonEmpty [r.lastMsg, lastErr]))

def warnDelayed (cfg : RunnerConfig) (env : Envelope) : Job Envelope :=
  match cfg.bouncer with
  | none => return env
  | some b =>
    if cfg.delayWarnAfter ≤ 0 ∨ env.delayWarned ∨ suppress env then return env
    else do
      let now ← perform .now
      if since env.queuedAt now ≤ cfg.delayWarnAfter then return env
      else
        let late := env.rcpts.filter fun r => r.isPending && r.wantsDelayDSN
        if late = [] then return env
        else
          let until_ := if 0 < cfg.maxLifetime then some (env.queuedAt.nanos + cfg.maxLifetime) else none
          bounce b { env with delayWarned := true }
            { rcpts := late.map (describeDelayed env.lastErr), kind := .delayed, retryUntil := until_ }

/-- Reschedules an envelope, or gives up on it when it has outlived its time. -/
def deferEnvelope (cfg : RunnerConfig) (inflight : Name) (env : Envelope) (reason : Chars) : Job Unit := do
  let env := if reason ≠ [] then { env with lastErr := reason } else env
  if ← expire cfg inflight env then return ()
  else
    let env ← warnDelayed cfg env
    let delay ← perform (.jitter (cfg.backoff env.attempts))
    let now ← perform .now
    let _ ← perform (.reschedule inflight env (now + delay))
    return ()

inductive Tried where
  | bodyless
  | through (env : Envelope) (last : Option Result)

/-- Offers the message to one relay after the other until one of them answers. -/
def tryRelays (cfg : RunnerConfig) (env : Envelope) (signature : Chars) (addrs : List Name) :
    Option Result → List Relay → Job Tried
  | last, [] => return .through env last
  | _, relay :: rest => do
    match ← perform (.openBody env.body) with
    | .error _ => return .bodyless
    | .ok file =>
      let res ← perform (.deliver relay {
        mailFrom := env.mailFrom
        rcpts := addrs
        body := messageBody signature env.prependBlock file
        smtpUTF8 := env.smtpUTF8
        body8Bit := env.body8Bit })
      if res.err ≠ none then tryRelays cfg env signature addrs (some res) rest
      else
        let env ← record cfg res res.rcpts env
        return .through env (some res)

/-- Every way an attempt can end leaves its own reason behind. -/
def stampReason (env : Envelope) (last : Option Result) (resolveErr : Option Chars) : Envelope :=
  match last with
  | some res =>
    match res.err with
    | some err => { env with lastErr := err }
    | none => if deferralReason res ≠ [] then { env with lastErr := deferralReason res } else env
  | none =>
    match resolveErr with
    | some err => { env with lastErr := err }
    | none => { env with lastErr := "no relay in group ".toList ++ env.relayGrp ++ " could be tried".toList }

def conclude (cfg : RunnerConfig) (inflight : Name) (env : Envelope) : Job Unit := do
  if env.isDone then
    let env ← bounceFailed cfg env
    let env ← notifyRelayed cfg env
    let _ ← perform (.complete inflight env)
    return ()
  else deferEnvelope cfg inflight env env.lastErr

def attempt (cfg : RunnerConfig) (inflight : Name) (env : Envelope) : Job Unit := do
  let env := { env with attempts := env.attempts + 1 }
  let known ← perform (.lookup env.relayGrp)
  if !known then deferEnvelope cfg inflight env "unknown relay group".toList
  else
    let running ← perform (.acquire env.relayGrp)
    if !running then
      let now ← perform .now
      let _ ← perform (.reschedule inflight env now)
      return ()
    else
      let addrs := env.pendingRcpts.map Recipient.addr
      let (targets, resolveErr) ← perform (.targets env.relayGrp)
      let signature ← perform (.sign env env.prependBlock)
      match ← tryRelays cfg env signature addrs none targets with
      | .bodyless => deferEnvelope cfg inflight env "cannot open body".toList
      | .through env last => conclude cfg inflight (stampReason env last resolveErr)

end Reports

end Mailgw.Queue
