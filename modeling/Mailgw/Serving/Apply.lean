import Mailgw.Serving.Building

namespace Mailgw.Serving

open Config Lists Queue Ratelimit Rules

section Listening
variable [Netip]

structure Socket where
  addr : Name
  trusted : Option (List Prefix)
  implicitTLS : Bool
  deriving DecidableEq

inductive ListenProblem where
  | bind (addr err : Name)
  | proxyTrusted (addr entry : Name) (problem : EntryProblem)
  | noTLSConfig (addr : Name)
  deriving Repr, DecidableEq

def parsePrefixes (addr : Name) : List Name → Except ListenProblem (List Prefix)
  | [] => .ok []
  | e :: rest =>
    match parseEntry e with
    | .error problem => .error (.proxyTrusted addr e problem)
    | .ok p => do
      let more ← parsePrefixes addr rest
      return p :: more

def listenOn (h : Host) (tls : Bool) (lst : Listener) : Except ListenProblem Socket :=
  match h.listen lst.addr with
  | some err => .error (.bind lst.addr err)
  | none => do
    let trusted ← if lst.proxyProtocol then (parsePrefixes lst.addr (lst.proxyTrusted.getD [])).map some else .ok none
    if lst.implicitTLS && !tls then .error (.noTLSConfig lst.addr)
    else return { addr := lst.addr, trusted, implicitTLS := lst.implicitTLS }

def listenAll (h : Host) (tls : Bool) : List Listener → Except ListenProblem (List Socket)
  | [] => .ok []
  | lst :: rest => do
    let socket ← listenOn h tls lst
    let more ← listenAll h tls rest
    return socket :: more

/-- The inbound sockets, and how many connections they take together. They are opened once. -/
structure Listeners where
  fired : Bool := false
  lns : List Socket := []
  connections : Int := 0
  err : Option ListenProblem := none
  deriving DecidableEq

/-- A socket that cannot be opened closes those that are open. -/
def Listeners.start (ls : Listeners) (h : Host) (cfg : Settings) (tls : Bool) : Listeners :=
  if ls.fired then ls
  else
    match listenAll h tls (cfg.server.listen.getD []) with
    | .error problem => { fired := true, connections := cfg.server.max.connections, err := some problem }
    | .ok lns => { fired := true, lns, connections := cfg.server.max.connections }

end Listening

structure Parts where
  gatewayLabel : Name := []
  spool : Option Name := none
  events : Option EventOptions := none
  bouncer : Option Bouncer := none
  runner : Option Runner := none
  backend : Option Backend := none
  srv : Option SMTPServer := none
  replayer : Option Replaying := none

/-- Everything that exists once in a process. `live` is the configuration it started with. -/
structure Gateway where
  uid : Name
  tlsDir : Name
  live : Option Settings := none
  restart : List Name := []
  allowlist : Option Allowlist := none
  rules : Option Ruleset := none
  adminToken : Option Name := none
  authUsers : Option Auth := none
  limiter : Limiter := { rules := {} }
  parts : Parts := {}
  listeners : Listeners := {}

inductive ApplyError where
  | spool (err : Name)
  | signer (problem : SignerProblem)
  | tls (err : Name)
  | listen (problem : ListenProblem)
  | rules (problem : CompileError)

structure Outcome where
  restart : List Name := []
  err : Option ApplyError := none

namespace Gateway

def adminTokenText (g : Gateway) : Name := g.adminToken.getD []

def serving (g : Gateway) : Bool := g.live.isSome

def setAuthUsers (g : Gateway) (cfg : Settings) : Gateway := { g with authUsers := some cfg.auth }

def setAdminToken (g : Gateway) (cfg : Settings) : Gateway := { g with adminToken := some cfg.admin.metricsToken }

def setRateLimits (g : Gateway) (cfg : Settings) (now : Int) : Gateway :=
  { g with limiter := g.limiter.setRules (rateLimitRules cfg.server.rateLimit) now }

section Applying
variable [Text.LowerCase] [CaseFolding] [Netip]

def swap (g : Gateway) (l : Loaded) : Gateway := { g with allowlist := some l.cfg.allowlist, rules := some l.rules }

def bringUp (g : Gateway) (h : Host) (l : Loaded) : Gateway × Option ApplyError :=
  let cfg := l.cfg
  let label := gatewayLabel g.uid cfg h.hostname
  let g := { g with parts := { g.parts with gatewayLabel := label } }
  match h.openSpool cfg.server.outbound.spoolDir with
  | some err => (g, some (.spool err))
  | none =>
    let g := { g with parts := { g.parts with
      spool := some cfg.server.outbound.spoolDir
      events := some (eventOptions cfg)
      bouncer := some (newBouncer cfg) } }
    match dkimSigner h cfg with
    | .error problem => (g, some (.signer problem))
    | .ok signer =>
      let g := { g with
        parts := { g.parts with runner := some (newRunner cfg label signer) }
        allowlist := some cfg.allowlist
        rules := some l.rules }
      match serverTLS h g.tlsDir cfg with
      | .error err => (g, some (.tls err))
      | .ok tlsConfig =>
        -- set before the listeners, so that whatever comes next swaps
        let g := { g with
          parts := { g.parts with
            backend := some (newBackend cfg (msgAuthChecker cfg l.rules) label)
            srv := some (newServer cfg.server tlsConfig)
            replayer := startReplayer cfg }
          live := some cfg
          listeners := g.listeners.start h cfg tlsConfig.isSome }
        (g, g.listeners.err.map .listen)

def validateAgainstLiveRelays (l : Loaded) (live : Settings) : Option CompileError :=
  match compile l.file (some live.groups) with
  | .error problem => some problem
  | .ok _ => none

/-- Installs a configuration. The first one builds the process, and every later one is swapped in. -/
def apply (g : Gateway) (h : Host) (now : Int) (l : Loaded) : Gateway × Outcome :=
  match g.live with
  | none =>
    let g := (g.setAuthUsers l.cfg).setRateLimits l.cfg now
    match g.bringUp h l with
    | (g, some err) => (g, { err := some err })
    | (g, none) => (g.setAdminToken l.cfg, {})
  | some live =>
    let restart := restartRequired live l.cfg
    match validateAgainstLiveRelays l live with
    | some problem => (g, { restart, err := some (.rules problem) })
    | none => ({ (((g.swap l).setAdminToken l.cfg).setAuthUsers l.cfg).setRateLimits l.cfg now with restart }, { restart })

/-- The relay group and the rule that carry a notification to an address, as the rules in force
    have it. Only a relay decision counts. -/
def bounceRouter (g : Gateway) (hostname addr : Name) : Option (Name × Name) :=
  match g.rules with
  | none => none
  | some rules =>
    let env : Env := {
      stage := .data
      conn := some {}
      helo := some { name := hostname }
      mail := some { fromAddr := [], isDSN := true }
      rcpt := some { toAddr := addr, index := 0, countSoFar := 1 }
      msg := some { rcptCount := 1, rcptDomains := [domain addr] } }
    (route (some rules) env .data).2.bind fun d => d.relay.map fun group => (group, d.rule)

end Applying

end Gateway

end Mailgw.Serving
