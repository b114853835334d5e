import Mailgw.Config.Allowlist
import Mailgw.Config.Bundle
import Mailgw.Ratelimit.Limiter
import Mailgw.Relays.Group
import Mailgw.Smtp.State

namespace Mailgw.Config

open Lists Queue

/-- One inbound socket. A list that was left out differs from an empty one. -/
structure Listener where
  addr : Name
  implicitTLS : Bool := false
  proxyProtocol : Bool := false
  proxyTrusted : Option (List Name) := none
  deriving Repr, DecidableEq

structure TLSConfig where
  cert : Name := []
  key : Name := []
  starttls : Bool := false
  allowInsecureAuth : Bool := false
  deriving Repr, DecidableEq

def TLSConfig.configured (t : TLSConfig) : Bool := t.cert ≠ [] && t.key ≠ []

structure Limits where
  bytes : Int := 0
  lineLength : Int := 0
  recipients : Int := 0
  receivedHeaders : Int := 0
  headerLines : Int := 0
  connections : Int := 0
  deriving Repr, DecidableEq

structure LogConfig where
  level : Name := []
  format : Name := []
  deriving Repr, DecidableEq

/-- Durations are in nanoseconds. -/
structure Outbound where
  concurrency : Int := 0
  perGroupConnections : Int := 0
  pollInterval : Int := 0
  spoolDir : Name := []
  backoff : Option (List Int) := none
  maxLifetime : Int := 0
  delayWarningAfter : Int := 0
  jitter : ℚ := 0
  connectTimeout : Int := 0
  dataTimeout : Int := 0
  reuseConnections : Bool := false
  maxMessagesPerConnection : Int := 0
  connectionIdleTimeout : Int := 0
  maxPooledConnections : Int := 0
  mxCacheTTL : Int := 0
  deriving DecidableEq

/-- The delay before an attempt, counted from one. The last one given repeats. -/
def Outbound.backoffFor (o : Outbound) (attempt : Nat) : Int :=
  match o.backoff.getD [] with
  | [] => 60000000000
  | first :: more => (first :: more).getD (min (attempt - 1) more.length) first

structure DSNConfig where
  enabled : Bool := false
  returns : Name := []
  postmaster : Name := []
  relayGroup : Name := []
  maxReturnBytes : Int := 0
  deriving Repr, DecidableEq

def DSNConfig.fullReturn [CaseFolding] (d : DSNConfig) : Bool := equalFold d.returns "full".toList

def DSNConfig.postmasterFor (d : DSNConfig) (hostname : Name) : Name :=
  if Text.trimSpace d.postmaster = [] then "postmaster@".toList ++ hostname else Text.trimSpace d.postmaster

structure AttachConfig extends Smtp.AttachConfig where
  enabled : Bool := false
  url : Name := []
  timeout : Int := 0
  deriving Repr, DecidableEq

structure DKIMKey where
  domain : Name
  selector : Name
  key : Name
  deriving Repr, DecidableEq

structure DKIMSignConfig where
  enabled : Bool := false
  keys : Option (List DKIMKey) := none
  canonicalization : Name := []
  headers : Option (List Name) := none
  expiration : Int := 0
  deriving Repr, DecidableEq

structure MsgAuthConfig where
  spf : Bool := false
  dkim : Bool := false
  dmarc : Bool := false
  authservID : Name := []
  maxDKIMSignatures : Int := 0
  dnsTimeout : Int := 0
  sign : DKIMSignConfig := {}
  deriving Repr, DecidableEq

def MsgAuthConfig.authservIDFor (m : MsgAuthConfig) (hostname : Name) : Name :=
  if Text.trimSpace m.authservID = [] then hostname else Text.trimSpace m.authservID

structure RateLimit where
  rate : Int := 0
  per : Int := 0
  burst : Int := 0
  deriving Repr, DecidableEq

structure RateLimits where
  connectPerIP : RateLimit := {}
  messagesPerSender : RateLimit := {}
  messagesPerUser : RateLimit := {}
  rcptsPerDomain : RateLimit := {}
  authFailuresPerIP : RateLimit := {}
  maxKeys : Int := 0
  deriving Repr, DecidableEq

structure EventsConfig where
  timeout : Int := 0
  retries : Int := 0
  bufferSize : Int := 0
  senders : Int := 0
  apiKeyEnv : Name := []
  replayInterval : Int := 0
  rejectedRetention : Int := 0
  deriving Repr, DecidableEq

structure Server where
  hostname : Name := []
  greeting : Name := []
  localDomains : List Name := []
  listen : Option (List Listener) := none
  tls : TLSConfig := {}
  max : Limits := {}
  smtpUTF8 : Bool := false
  inactivity : Int := 0
  shutdownTimeout : Int := 0
  log : LogConfig := {}
  outbound : Outbound := {}
  dsn : DSNConfig := {}
  attach : AttachConfig := {}
  msgAuth : MsgAuthConfig := {}
  rateLimit : RateLimits := {}
  events : EventsConfig := {}
  deriving DecidableEq

namespace Server

def implicitTLSWanted (s : Server) : Bool := (s.listen.getD []).any Listener.implicitTLS

def wantsTLS (s : Server) : Bool := s.tls.starttls || s.implicitTLSWanted

end Server

deriving instance Repr, DecidableEq for Logging

deriving instance DecidableEq for Relays.Group

structure Settings where
  server : Server := {}
  logging : Logging := {}
  admin : Admin := {}
  auth : Auth := {}
  relays : Table Name Relays.Group := .empty
  allowlist : Allowlist := {}

def Settings.groups (c : Settings) : List Name := c.relays.entries.map Prod.fst

end Mailgw.Config
