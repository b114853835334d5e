import Mailgw.Config.Settings
import Mailgw.Queue.Runner

namespace Mailgw.Serving

open Config Lists Queue Rules

/-- What the host answers while a configuration is brought up. A text is what went wrong. -/
structure Host where
  hostname : Name
  openSpool : Name → Option Name
  loadKey : DKIMKey → Option Name
  selfSigned : Name → Name → Except Name (Name × Name)
  loadKeypair : Name → Name → Option Name
  listen : Name → Option Name

structure Loaded [Text.LowerCase] [CaseFolding] [Patterns] where
  cfg : Settings
  file : Rules.File
  rules : Ruleset
  compiled : compile file (some cfg.groups) = .ok rules

def named : List (Bool × Name) → List Name
  | [] => []
  | (changed, what) :: rest => if changed then what :: named rest else named rest

/-- What the incoming configuration changes that cannot be picked up without a restart. -/
def restartRequired (live next : Settings) : List Name := named [
  (!live.relays.agrees next.relays, "relays".toList),
  (live.server.listen != next.server.listen, "listen".toList),
  (live.server.tls != next.server.tls, "tls".toList),
  (live.server.hostname != next.server.hostname, "hostname".toList),
  (live.server.greeting != next.server.greeting, "greeting".toList),
  (live.server.localDomains != next.server.localDomains, "local_domains".toList),
  (live.server.max != next.server.max, "max".toList),
  (live.server.smtpUTF8 != next.server.smtpUTF8, "smtputf8".toList),
  (live.server.inactivity != next.server.inactivity, "inactivity_timeout".toList),
  (live.server.shutdownTimeout != next.server.shutdownTimeout, "shutdown_timeout".toList),
  (live.server.log != next.server.log, "log".toList),
  (live.server.outbound != next.server.outbound, "outbound".toList),
  (live.server.dsn != next.server.dsn, "dsn".toList),
  (live.server.attach != next.server.attach, "attach".toList),
  (live.server.msgAuth != next.server.msgAuth, "msgauth".toList),
  (live.server.events != next.server.events, "events".toList),
  (live.logging != next.logging, "logging".toList)]

section Signing
variable [Text.LowerCase]

inductive Canonicalization where
  | simple | relaxed
  deriving Repr, DecidableEq

def Canonicalization.parse (s : Name) : Option Canonicalization :=
  if s = "simple".toList then some .simple else if s = "relaxed".toList then some .relaxed else none

/-- Splits a pair of canonicalizations, of the header and of the body. A single one is for both. -/
def parseCanonicalization (s : Name) : Option (Canonicalization × Canonicalization) :=
  let s := Text.toLower (Text.trimSpace s)
  if s = [] then some (.relaxed, .relaxed)
  else
    let header := s.takeWhile (· ≠ '/')
    let body := if '/' ∈ s then (s.dropWhile (· ≠ '/')).tail else header
    (Canonicalization.parse header).bind fun h => (Canonicalization.parse body).map fun b => (h, b)

inductive SignerProblem where
  | incomplete | duplicate (domain : Name) | unreadable (err : Name) | unknownCanonicalization (text : Name)
  deriving Repr, DecidableEq

def newKeys (h : Host) (seen : List Name) : List DKIMKey → Except SignerProblem (List DKIMKey)
  | [] => .ok []
  | key :: rest =>
    let domain := Text.toLower (Text.trimSpace key.domain)
    if domain = [] ∨ key.selector = [] ∨ key.key = [] then .error .incomplete
    else if domain ∈ seen then .error (.duplicate domain)
    else
      match h.loadKey { key with domain } with
      | some err => .error (.unreadable err)
      | none => do
        let keys ← newKeys h (domain :: seen) rest
        return { key with domain } :: keys

structure Signer where
  keys : List DKIMKey
  headerCan : Canonicalization
  bodyCan : Canonicalization
  headers : Option (List Name)
  expiration : Int
  deriving Repr, DecidableEq

def dkimSigner (h : Host) (cfg : Settings) : Except SignerProblem (Option Signer) :=
  let s := cfg.server.msgAuth.sign
  if !s.enabled || s.keys.getD [] = [] then .ok none
  else do
    let keys ← newKeys h [] (s.keys.getD [])
    match parseCanonicalization s.canonicalization with
    | none => .error (.unknownCanonicalization s.canonicalization)
    | some (headerCan, bodyCan) => return some { keys, headerCan, bodyCan, headers := s.headers, expiration := s.expiration }

end Signing

def gatewayLabelMax : Nat := 64

def gatewayLabel (uid : Name) (cfg : Settings) (host : Name) : Name :=
  let label := if uid = [] then cfg.server.hostname else uid
  (if label = [] then host else label).take gatewayLabelMax

def rule (l : RateLimit) : Ratelimit.Rule where
  rate := l.rate
  per := l.per
  burst := l.burst

def rateLimitRules (c : RateLimits) : Ratelimit.Rules where
  connPerIP := rule c.connectPerIP
  msgPerSender := rule c.messagesPerSender
  msgPerUser := rule c.messagesPerUser
  rcptPerDomain := rule c.rcptsPerDomain
  authFailPerIP := rule c.authFailuresPerIP
  maxKeys := c.maxKeys

structure EventOptions where
  timeout : Int
  retries : Int
  bufferSize : Int
  senders : Int
  apiKey : Name
  spool : Name
  deriving Repr, DecidableEq

def eventOptions (cfg : Settings) : EventOptions where
  timeout := cfg.server.events.timeout
  retries := cfg.server.events.retries
  bufferSize := cfg.server.events.bufferSize
  senders := cfg.server.events.senders
  apiKey := cfg.logging.apiKey
  spool := cfg.server.outbound.spoolDir

def newBouncer [CaseFolding] (cfg : Settings) : Bouncer where
  enabled := cfg.server.dsn.enabled
  full := cfg.server.dsn.fullReturn
  maxReturnBytes := cfg.server.dsn.maxReturnBytes
  postmaster := cfg.server.dsn.postmasterFor cfg.server.hostname
  hostname := cfg.server.hostname
  relayGroup := cfg.server.dsn.relayGroup

def newPool (out : Outbound) : Option Deliver.Pool :=
  if out.reuseConnections then some {
    maxPerRelay := out.perGroupConnections, maxTotal := out.maxPooledConnections,
    maxMessages := out.maxMessagesPerConnection, idleTimeout := out.connectionIdleTimeout }
  else none

structure Runner extends RunnerConfig where
  relay : Name → Option Relays.Group
  signer : Option Signer
  pollInterval : Int
  concurrency : Int
  perGroup : Int
  connectTimeout : Int
  dataTimeout : Int
  jitter : ℚ
  mxTTL : Int
  deliveryURL : Name

def newRunner [CaseFolding] (cfg : Settings) (label : Name) (signer : Option Signer) : Runner where
  backoff := cfg.server.outbound.backoffFor
  maxLifetime := cfg.server.outbound.maxLifetime
  delayWarnAfter := cfg.server.outbound.delayWarningAfter
  bouncer := some (newBouncer cfg)
  localName := cfg.server.hostname
  pool := newPool cfg.server.outbound
  posts := cfg.logging.urlDelivery ≠ []
  gateway := label
  relay := cfg.relays.get
  signer
  pollInterval := cfg.server.outbound.pollInterval
  concurrency := cfg.server.outbound.concurrency
  perGroup := cfg.server.outbound.perGroupConnections
  connectTimeout := cfg.server.outbound.connectTimeout
  dataTimeout := cfg.server.outbound.dataTimeout
  jitter := cfg.server.outbound.jitter
  mxTTL := cfg.server.outbound.mxCacheTTL
  deliveryURL := cfg.logging.urlDelivery

structure Scanner where
  url : Name
  timeout : Int
  apiKey : Name
  deriving Repr, DecidableEq

def attachScanner (cfg : Settings) : Option Scanner :=
  if cfg.server.attach.enabled then
    some { url := cfg.server.attach.url, timeout := cfg.server.attach.timeout, apiKey := cfg.logging.apiKey }
  else none

structure Checker extends Smtp.MsgAuth where
  dnsTimeout : Int
  deriving Repr, DecidableEq

def wantsChecker (cfg : Settings) (rules : Ruleset) : Bool :=
  cfg.server.msgAuth.spf || cfg.server.msgAuth.dkim || cfg.server.msgAuth.dmarc ||
    rules.needsSPF || rules.needsDKIM || rules.needsDMARC

def msgAuthChecker (cfg : Settings) (rules : Ruleset) : Option Checker :=
  if !wantsChecker cfg rules then none
  else
    let m := cfg.server.msgAuth
    some {
      authservID := m.authservIDFor cfg.server.hostname, spf := m.spf, dkim := m.dkim, dmarc := m.dmarc,
      maxDKIMSignatures := m.maxDKIMSignatures, dnsTimeout := m.dnsTimeout }

/-- What the sessions are given. The allowlist, the rules, the credentials and the limits are read
    from the gateway each time. -/
structure Backend where
  session : Smtp.Backend
  attach : Option Scanner
  checker : Option Checker
  urlConn : Name
  urlQueue : Name
  gateway : Name
  deriving Repr, DecidableEq

def newBackend [CaseFolding] (cfg : Settings) (checker : Option Checker) (label : Name) : Backend where
  session := {
    hostname := cfg.server.hostname
    maxBytes := cfg.server.max.bytes
    maxLineLength := cfg.server.max.lineLength
    maxHeaderLines := cfg.server.max.headerLines
    maxReceivedHeaders := cfg.server.max.receivedHeaders
    attach := cfg.server.attach.toAttachConfig
    scanning := (attachScanner cfg).isSome
    msgAuth := checker.map Checker.toMsgAuth
    bouncer := some (newBouncer cfg) }
  attach := attachScanner cfg
  checker
  urlConn := cfg.logging.urlConn
  urlQueue := cfg.logging.urlQueue
  gateway := label

structure SMTPServer where
  domain : Name
  maxMessageBytes : Int
  maxRecipients : Int
  maxLineLength : Int
  enableSMTPUTF8 : Bool
  enableDSN : Bool
  readTimeout : Int
  writeTimeout : Int
  tlsConfig : Option (Name × Name)
  allowInsecureAuth : Bool
  deriving Repr, DecidableEq

def newServer (s : Server) (tlsConfig : Option (Name × Name)) : SMTPServer where
  domain := s.hostname
  maxMessageBytes := s.max.bytes
  maxRecipients := s.max.recipients
  maxLineLength := s.max.lineLength
  enableSMTPUTF8 := s.smtpUTF8
  enableDSN := s.dsn.enabled
  readTimeout := s.inactivity
  writeTimeout := s.inactivity
  tlsConfig
  allowInsecureAuth := s.tls.allowInsecureAuth

def newTLSConfig (h : Host) (cert key : Name) : Except Name (Option (Name × Name)) :=
  match h.loadKeypair cert key with
  | some err => .error err
  | none => .ok (some (cert, key))

def serverTLS (h : Host) (tlsDir : Name) (cfg : Settings) : Except Name (Option (Name × Name)) :=
  if !cfg.server.wantsTLS then .ok none
  else if cfg.server.tls.configured then newTLSConfig h cfg.server.tls.cert cfg.server.tls.key
  else if tlsDir = [] then .ok none
  else
    match h.selfSigned tlsDir cfg.server.hostname with
    | .error err => .error err
    | .ok (cert, key) => newTLSConfig h cert key

structure Replaying where
  urlConn : Name
  urlQueue : Name
  urlDelivery : Name
  interval : Int
  retention : Int
  deriving Repr, DecidableEq

def startReplayer (cfg : Settings) : Option Replaying :=
  if cfg.server.events.replayInterval ≤ 0 then none
  else some {
    urlConn := cfg.logging.urlConn, urlQueue := cfg.logging.urlQueue, urlDelivery := cfg.logging.urlDelivery,
    interval := cfg.server.events.replayInterval, retention := cfg.server.events.rejectedRetention }

end Mailgw.Serving
