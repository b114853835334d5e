import Mailgw.Ratelimit.Meaning
import Mailgw.Serving.Restarts

namespace Mailgw.Serving

open Config Lists Queue Ratelimit Rules

section Steps
variable [Text.LowerCase] [CaseFolding] [Netip]

inductive Event where
  | apply (h : Host) (now : Int) (l : Loaded)
  | draw (key : Key) (spend : Bool) (now later : Int)

/-- A process with its gateway. `first` and `last` only record: the configuration it was brought up
    with, and the one it accepted last. -/
structure Process where
  gateway : Gateway
  first : Option (Host × Loaded) := none
  last : Option Loaded := none

namespace Process

def launch (uid tlsDir : Name) : Process where
  gateway := { uid, tlsDir }

def after (p : Process) : Event → Process
  | .apply h now l =>
    let answer := p.gateway.apply h now l
    { gateway := answer.1
      first := if p.gateway.live.isNone && answer.1.live.isSome then some (h, l) else p.first
      last := if answer.2.err.isNone then some l else p.last }
  | .draw key spend now later =>
    { p with gateway := { p.gateway with limiter := (p.gateway.limiter.take key spend now later).1 } }

def run (p : Process) (events : List Event) : Process := events.foldl after p

end Process

variable {g g' : Gateway} {h : Host} {now : Int} {l l₀ : Loaded} {err : Option ApplyError}

structure Gateway.Up (g : Gateway) (h : Host) (l : Loaded) : Prop where
  live : g.live = some l.cfg
  spool : h.openSpool l.cfg.server.outbound.spoolDir = none
  built : ∃ signer tls, dkimSigner h l.cfg = .ok signer ∧ serverTLS h g.tlsDir l.cfg = .ok tls ∧
    g.parts = partsOf g.uid h l signer tls ∧ g.listeners = Listeners.start {} h l.cfg tls.isSome

structure Gateway.Down (g g' : Gateway) : Prop where
  uid : g'.uid = g.uid
  tlsDir : g'.tlsDir = g.tlsDir
  live : g'.live = none
  listeners : g'.listeners = {}
  restart : g'.restart = []

theorem bringUp_cases (down : g.live = none) (fresh : g.listeners = {}) (unset : g.restart = [])
    (answer : g.bringUp h l = (g', err)) :
    (g.Down g' ∧ err.isSome = true) ∨
      (g'.Up h l ∧ g'.uid = g.uid ∧ g'.tlsDir = g.tlsDir ∧ g'.allowlist = some l.cfg.allowlist ∧ g'.rules = some l.rules ∧
        g'.authUsers = g.authUsers ∧ g'.limiter = g.limiter ∧ g'.restart = [] ∧ err = g'.listeners.err.map .listen) := by
  unfold Gateway.bringUp at answer
  dsimp only at answer
  split at answer
  · cases answer
    exact .inl ⟨⟨rfl, rfl, down, fresh, unset⟩, rfl⟩
  · rename_i opened
    split at answer
    · cases answer
      exact .inl ⟨⟨rfl, rfl, down, fresh, unset⟩, rfl⟩
    · rename_i signer signed
      split at answer
      · cases answer
        exact .inl ⟨⟨rfl, rfl, down, fresh, unset⟩, rfl⟩
      · rename_i tls served
        cases answer
        right
        rw [fresh]
        exact ⟨⟨rfl, opened, signer, tls, signed, served, rfl, rfl⟩, rfl, rfl, rfl, rfl, rfl, rfl, unset, rfl⟩

structure Gateway.Holds (g : Gateway) (l₀ l : Loaded) : Prop where
  allowlist : g.allowlist = some l.cfg.allowlist
  rules : g.rules = some l.rules
  authUsers : g.authUsers = some l.cfg.auth
  adminToken : g.adminToken = some l.cfg.admin.metricsToken
  limits : g.limiter.rules = rateLimitRules l.cfg.server.rateLimit
  restart : g.restart = restartRequired l₀.cfg l.cfg
  fits : l.rules.Known l₀.cfg.groups

structure Gateway.Deaf (g : Gateway) (l : Loaded) : Prop where
  refused : g.listeners.err.isSome = true
  allowlist : g.allowlist = some l.cfg.allowlist
  rules : g.rules = some l.rules
  authUsers : g.authUsers = some l.cfg.auth
  limits : g.limiter.rules = rateLimitRules l.cfg.server.rateLimit
  restart : g.restart = []

theorem apply_cases (up : g.Up h l₀) (h' : Host) (now : Int) (l : Loaded) :
    ((g.apply h' now l).1 = g ∧ (g.apply h' now l).2.err.isSome = true) ∨
      ((g.apply h' now l).2 = { restart := restartRequired l₀.cfg l.cfg } ∧ (g.apply h' now l).1.Holds l₀ l ∧
        (g.apply h' now l).1.Up h l₀ ∧ (g.apply h' now l).1.parts = g.parts ∧
        (g.apply h' now l).1.listeners = g.listeners) := by
  unfold Gateway.apply
  rw [up.live]
  dsimp only
  cases valid : Gateway.validateAgainstLiveRelays l l₀.cfg with
  | some problem => exact .inl ⟨rfl, rfl⟩
  | none =>
    right
    have fits : l.rules.Known l₀.cfg.groups := by
      unfold Gateway.validateAgainstLiveRelays at valid
      split at valid
      · cases valid
      · rename_i rules compiled
        obtain ⟨known, plain⟩ := compile_known compiled
        rw [(compile_known l.compiled).2] at plain
        cases plain
        exact known
    exact ⟨rfl, ⟨rfl, rfl, rfl, rfl, rfl, rfl, fits⟩, ⟨up.live, up.spool, up.built⟩, rfl, rfl⟩

theorem apply_failed {problem : ApplyError} (down : g.live = none)
    (answer : ((g.setAuthUsers l.cfg).setRateLimits l.cfg now).bringUp h l = (g', some problem)) :
    g.apply h now l = (g', { err := some problem }) := by
  unfold Gateway.apply
  rw [down]
  dsimp only
  rw [answer]

theorem apply_done (down : g.live = none)
    (answer : ((g.setAuthUsers l.cfg).setRateLimits l.cfg now).bringUp h l = (g', none)) :
    g.apply h now l = (g'.setAdminToken l.cfg, {}) := by
  unfold Gateway.apply
  rw [down]
  dsimp only
  rw [answer]

theorem Process.after_apply {p : Process} {out : Outcome} (answer : p.gateway.apply h now l = (g', out)) :
    p.after (.apply h now l) = {
      gateway := g'
      first := if p.gateway.live.isNone && g'.live.isSome then some (h, l) else p.first
      last := if out.err.isNone then some l else p.last } := by
  unfold Process.after
  dsimp only
  rw [answer]

structure Process.Sound (p : Process) (uid tlsDir : Name) : Prop where
  uid : p.gateway.uid = uid
  tlsDir : p.gateway.tlsDir = tlsDir
  idle : p.first = none → p.last = none ∧ p.gateway.live = none ∧ p.gateway.listeners = {} ∧ p.gateway.restart = []
  up : ∀ h l₀, p.first = some (h, l₀) → p.gateway.Up h l₀
  deaf : ∀ h l₀, p.first = some (h, l₀) → p.last = none → p.gateway.Deaf l₀
  holds : ∀ h l₀ l, p.first = some (h, l₀) → p.last = some l → p.gateway.Holds l₀ l

variable {p : Process} {uid tlsDir : Name}

theorem Process.Sound.raise (sound : p.Sound uid tlsDir) (idle : p.first = none) (h : Host) (now : Int) (l : Loaded) :
    (p.after (.apply h now l)).Sound uid tlsDir := by
  obtain ⟨unaccepted, down, fresh, unset⟩ := sound.idle idle
  generalize start : (p.gateway.setAuthUsers l.cfg).setRateLimits l.cfg now = g
  have kept : g.uid = uid ∧ g.tlsDir = tlsDir ∧ g.live = none ∧ g.listeners = {} ∧ g.restart = [] ∧
      g.authUsers = some l.cfg.auth ∧ g.limiter.rules = rateLimitRules l.cfg.server.rateLimit := by
    subst start
    exact ⟨sound.uid, sound.tlsDir, down, fresh, unset, rfl, rfl⟩
  obtain ⟨uid_, tlsDir_, down_, fresh_, unset_, auth, limits⟩ := kept
  generalize answer : g.bringUp h l = result
  obtain ⟨g', err⟩ := result
  rcases bringUp_cases down_ fresh_ unset_ answer with ⟨still, failed⟩ | ⟨up, uid', tlsDir', allowlist, rules, auth', limiter, unset', same⟩
  · obtain ⟨problem, rfl⟩ := Option.isSome_iff_exists.mp failed
    have same : p.after (.apply h now l) = { p with gateway := g' } := by
      rw [Process.after_apply (apply_failed down (start ▸ answer)), still.live]
      simp
    rw [same]
    constructor
    · exact still.uid.trans uid_
    · exact still.tlsDir.trans tlsDir_
    · exact fun _ => ⟨unaccepted, still.live, still.listeners, still.restart⟩
    all_goals
      intro h l₀
      simp [idle]
  · have live : g'.live = some l.cfg := up.live
    cases bound : g'.listeners.err with
    | some problem =>
      rw [bound] at same
      subst same
      have brought : p.after (.apply h now l) = { p with gateway := g', first := some (h, l) } := by
        rw [Process.after_apply (apply_failed down (start ▸ answer)), down, live]
        simp
      rw [brought]
      constructor
      · exact uid'.trans uid_
      · exact tlsDir'.trans tlsDir_
      · simp
      · rintro _ _ ⟨⟩
        exact up
      · rintro _ _ ⟨⟩ _
        exact ⟨by simp [bound], allowlist, rules, auth'.trans auth, by rw [limiter, limits], unset'⟩
      · simp [unaccepted]
    | none =>
      rw [bound] at same
      subst same
      have shown : (g'.setAdminToken l.cfg).live = some l.cfg := live
      have accepted : p.after (.apply h now l) = {
          gateway := g'.setAdminToken l.cfg, first := some (h, l), last := some l } := by
        rw [Process.after_apply (apply_done down (start ▸ answer)), down, shown]
        simp
      rw [accepted]
      constructor
      · exact uid'.trans uid_
      · exact tlsDir'.trans tlsDir_
      · simp
      · rintro _ _ ⟨⟩
        exact ⟨live, up.spool, up.built⟩
      · simp
      · rintro _ _ _ ⟨⟩ ⟨⟩
        refine ⟨allowlist, rules, auth'.trans auth, rfl, ?_, ?_, (compile_known l.compiled).1⟩
        · exact (congrArg Limiter.rules limiter).trans limits
        · exact unset'.trans (restartRequired_self l.cfg).symm

theorem Process.Sound.swap (sound : p.Sound uid tlsDir) (first : p.first = some (h, l₀)) (h' : Host) (now : Int)
    (l : Loaded) : (p.after (.apply h' now l)).Sound uid tlsDir := by
  have up := sound.up h l₀ first
  unfold Process.after
  dsimp only
  rw [up.live]
  rcases apply_cases up h' now l with ⟨same, refused⟩ | ⟨accepted, holds, still, parts, listeners⟩
  · obtain ⟨problem, refused⟩ := Option.isSome_iff_exists.mp refused
    rw [same, refused]
    simp only [Option.isNone_some, Bool.false_and, Bool.false_eq_true, if_false]
    exact sound
  · rw [accepted]
    simp only [Option.isNone_some, Bool.false_and, Bool.false_eq_true, if_false, Option.isNone_none, if_true]
    obtain ⟨uid', tlsDir'⟩ : (p.gateway.apply h' now l).1.uid = p.gateway.uid ∧
        (p.gateway.apply h' now l).1.tlsDir = p.gateway.tlsDir := by
      unfold Gateway.apply at accepted ⊢
      rw [up.live] at accepted ⊢
      dsimp only at accepted ⊢
      split <;> exact ⟨rfl, rfl⟩
    constructor
    · exact uid'.trans sound.uid
    · exact tlsDir'.trans sound.tlsDir
    · intro idle
      rw [first] at idle
      cases idle
    · intro h₁ l₁ first'
      rw [first] at first'
      cases first'
      exact still
    · simp
    · rintro h₁ l₁ _ first' ⟨⟩
      rw [first] at first'
      cases first'
      exact holds

theorem Process.Sound.after (sound : p.Sound uid tlsDir) (event : Event) : (p.after event).Sound uid tlsDir := by
  cases event with
  | apply h now l =>
    cases first : p.first with
    | none => exact sound.raise first h now l
    | some brought => exact sound.swap first h now l
  | draw key spend now later =>
    have limits := Limiter.take_rules p.gateway.limiter key spend now later
    refine ⟨sound.uid, sound.tlsDir, sound.idle, ?_, ?_, ?_⟩
    · intro h l₀ first
      have up := sound.up h l₀ first
      exact ⟨up.live, up.spool, up.built⟩
    · intro h l₀ first last
      have deaf := sound.deaf h l₀ first last
      exact ⟨deaf.refused, deaf.allowlist, deaf.rules, deaf.authUsers, limits.trans deaf.limits, deaf.restart⟩
    · intro h l₀ l first last
      have holds := sound.holds h l₀ l first last
      exact ⟨holds.allowlist, holds.rules, holds.authUsers, holds.adminToken, limits.trans holds.limits, holds.restart,
        holds.fits⟩

theorem Process.Sound.run (sound : p.Sound uid tlsDir) (events : List Event) : (p.run events).Sound uid tlsDir := by
  induction events generalizing p with
  | nil => exact sound
  | cons event rest ih => exact ih (sound.after event)

theorem sound_launch (uid tlsDir : Name) : (Process.launch uid tlsDir).Sound uid tlsDir := by
  constructor
  · rfl
  · rfl
  · exact fun _ => ⟨rfl, rfl, rfl, rfl⟩
  · rintro h l₀ ⟨⟩
  · rintro h l₀ ⟨⟩
  · rintro h l₀ l ⟨⟩

/-- Once the gateway is up it stays what it was brought up as, and so do its sockets. -/
theorem Process.Sound.stays (sound : p.Sound uid tlsDir) (first : p.first = some (h, l₀)) (events : List Event) :
    (p.run events).first = some (h, l₀) ∧ (p.run events).gateway.parts = p.gateway.parts ∧
      (p.run events).gateway.listeners = p.gateway.listeners := by
  induction events generalizing p with
  | nil => exact ⟨first, rfl, rfl⟩
  | cons event rest ih =>
    have step : (p.after event).first = some (h, l₀) ∧ (p.after event).gateway.parts = p.gateway.parts ∧
        (p.after event).gateway.listeners = p.gateway.listeners := by
      cases event with
      | draw key spend now later => exact ⟨first, rfl, rfl⟩
      | apply h' now l =>
        have up := sound.up h l₀ first
        refine ⟨?_, ?_⟩
        · simp only [Process.after, up.live, Option.isNone_some, Bool.false_and, Bool.false_eq_true, if_false, first]
        · rcases apply_cases up h' now l with ⟨same, _⟩ | ⟨_, _, _, parts, listeners⟩
          · exact ⟨congrArg Gateway.parts same, congrArg Gateway.listeners same⟩
          · exact ⟨parts, listeners⟩
    obtain ⟨first', parts, listeners⟩ := step
    obtain ⟨first'', parts', listeners'⟩ := ih (sound.after event) first'
    exact ⟨first'', parts'.trans parts, listeners'.trans listeners⟩

/-- After every run the rules, the allowlist, the credentials, the token and the limits in force are
    those of the configuration that was accepted last, whatever was refused since. -/
theorem last_accepted_holds (uid tlsDir : Name) (events : List Event) {h : Host} {l₀ l : Loaded}
    (first : ((Process.launch uid tlsDir).run events).first = some (h, l₀))
    (last : ((Process.launch uid tlsDir).run events).last = some l) :
    ((Process.launch uid tlsDir).run events).gateway.Holds l₀ l :=
  ((sound_launch uid tlsDir).run events).holds h l₀ l first last

end Steps

section Restarted
variable [Text.LowerCase] [CaseFolding] [Netip] {g : Gateway} {h : Host} {now : Int} {l l₀ : Loaded}
  {signer : Option Signer} {tls : Option (Name × Name)}

theorem bringUp_done (opened : h.openSpool l.cfg.server.outbound.spoolDir = none) (signed : dkimSigner h l.cfg = .ok signer)
    (served : serverTLS h g.tlsDir l.cfg = .ok tls) :
    g.bringUp h l = ({ g with
      parts := partsOf g.uid h l signer tls, allowlist := some l.cfg.allowlist, rules := some l.rules, live := some l.cfg,
      listeners := g.listeners.start h l.cfg tls.isSome }, (g.listeners.start h l.cfg tls.isSome).err.map .listen) := by
  unfold Gateway.bringUp
  dsimp only
  rw [opened]
  dsimp only
  rw [signed]
  dsimp only
  rw [served]
  rfl

/-- What can be told of two gateways without asking how they were built. -/
structure Gateway.Alike (g g' : Gateway) : Prop where
  allowlist : g.allowlist = g'.allowlist
  rules : g.rules = g'.rules
  authUsers : g.authUsers = g'.authUsers
  adminToken : g.adminToken = g'.adminToken
  limits : g.limiter.rules = g'.limiter.rules
  listeners : g.listeners = g'.listeners
  restart : g.restart = g'.restart

/-- A gateway whose configuration was swapped in without a restart being asked for is the one a restart
    would give, but for a checker of incoming mail that only one set of the rules asks for. -/
theorem swapped_as_restarted (uid tlsDir : Name) (events : List Event) (now : Int) {h : Host} {l₀ l : Loaded}
    (first : ((Process.launch uid tlsDir).run events).first = some (h, l₀))
    (last : ((Process.launch uid tlsDir).run events).last = some l)
    (nothing : ((Process.launch uid tlsDir).run events).gateway.restart = [])
    (bound : ((Process.launch uid tlsDir).run events).gateway.listeners.err = none) :
    ((Process.launch uid tlsDir).gateway.apply h now l).2 = {} ∧
      ((Process.launch uid tlsDir).run events).gateway.Alike ((Process.launch uid tlsDir).gateway.apply h now l).1 ∧
      (((Process.launch uid tlsDir).run events).gateway.parts = ((Process.launch uid tlsDir).gateway.apply h now l).1.parts ↔
        wantsChecker l₀.cfg l₀.rules = wantsChecker l.cfg l.rules) := by
  have sound := (sound_launch uid tlsDir).run events
  generalize (Process.launch uid tlsDir).run events = p at *
  have holds := sound.holds h l₀ l first last
  obtain ⟨_, opened, signer, tls, signed, served, parts, listeners⟩ := sound.up h l₀ first
  have fixed : Fixed l₀.cfg l.cfg := restartRequired_eq_nil.mp (holds.restart.symm.trans nothing)
  rw [sound.tlsDir] at served
  rw [sound.uid] at parts
  have spool : l.cfg.server.outbound.spoolDir = l₀.cfg.server.outbound.spoolDir := by rw [fixed.server]
  have sockets : Listeners.start {} h l.cfg tls.isSome = p.gateway.listeners := by
    rw [fixed.listeners_eq, listeners]
  have fresh := bringUp_done
    (g := (((Process.launch uid tlsDir).gateway.setAuthUsers l.cfg).setRateLimits l.cfg now))
    (spool ▸ opened) (fixed.signer_eq.trans signed) (fixed.tls_eq.trans served)
  have same : Listeners.start (((Process.launch uid tlsDir).gateway.setAuthUsers l.cfg).setRateLimits l.cfg now).listeners
      h l.cfg tls.isSome = p.gateway.listeners := sockets
  rw [same, bound] at fresh
  rw [apply_done rfl fresh]
  refine ⟨rfl, ⟨holds.allowlist, holds.rules, holds.authUsers, holds.adminToken, holds.limits, rfl, nothing⟩, ?_⟩
  rw [parts]
  exact eq_comm.trans (fixed.parts_iff.trans eq_comm)

end Restarted

theorem relay_known {c : Settings} {group : Name} (known : group ∈ c.groups) : (c.relays.get group).isSome = true := by
  obtain ⟨⟨name, members⟩, member, rfl⟩ := List.mem_map.mp known
  rw [Table.get_eq_some_iff.mpr member]
  rfl

section Relaying
variable [Text.LowerCase] [CaseFolding] [Netip]

/-- Whatever was applied and refused, mail and notifications are only ever routed to relay groups that
    the delivery runner has. -/
theorem routed_groups_known (uid tlsDir : Name) (events : List Event)
    (up : ((Process.launch uid tlsDir).run events).first.isSome = true) :
    ∃ runner, ((Process.launch uid tlsDir).run events).gateway.parts.runner = some runner ∧
      (∀ e stage d group, (route ((Process.launch uid tlsDir).run events).gateway.rules e stage).2 = some d →
        d.relay = some group → (runner.relay group).isSome = true) ∧
      ∀ hostname addr group rule, ((Process.launch uid tlsDir).run events).gateway.bounceRouter hostname addr = some (group, rule) →
        (runner.relay group).isSome = true := by
  have sound := (sound_launch uid tlsDir).run events
  generalize (Process.launch uid tlsDir).run events = p at *
  obtain ⟨⟨h, l₀⟩, first⟩ := Option.isSome_iff_exists.mp up
  obtain ⟨_, _, signer, tls, _, _, parts, _⟩ := sound.up h l₀ first
  have safe : ∃ rs, p.gateway.rules = some rs ∧ rs.Known l₀.cfg.groups := by
    cases last : p.last with
    | none => exact ⟨l₀.rules, (sound.deaf h l₀ first last).rules, (compile_known l₀.compiled).1⟩
    | some l =>
      have holds := sound.holds h l₀ l first last
      exact ⟨l.rules, holds.rules, holds.fits⟩
  obtain ⟨rs, rules, known⟩ := safe
  refine ⟨newRunner l₀.cfg (gatewayLabel p.gateway.uid l₀.cfg h.hostname) signer, by rw [parts]; rfl, ?_, ?_⟩
  · intro e stage d group decided relays
    rw [rules] at decided
    exact relay_known (route_known known decided relays)
  · intro hostname addr group rule bounced
    unfold Gateway.bounceRouter at bounced
    rw [rules] at bounced
    obtain ⟨d, decided, carried⟩ := Option.bind_eq_some_iff.mp bounced
    obtain ⟨group', relays, same⟩ := Option.map_eq_some_iff.mp carried
    cases same
    exact relay_known (route_known known decided relays)

end Relaying

section Unbound
variable [Text.LowerCase] [CaseFolding] [Netip]

omit [Text.LowerCase] [CaseFolding] in
theorem Listeners.start_closed {h : Host} {c : Settings} {tls : Bool}
    (refused : (Listeners.start {} h c tls).err.isSome = true) : (Listeners.start {} h c tls).lns = [] := by
  unfold Listeners.start at refused ⊢
  simp only [Bool.false_eq_true, if_false] at refused ⊢
  split at refused
  · rfl
  · cases refused

/-- A gateway whose sockets could not be bound never listens. It counts as serving all the same, and takes
    the configuration that failed for one that is applied, with nothing to restart for. -/
theorem never_listens (uid tlsDir : Name) (events more : List Event) {h : Host} {l₀ : Loaded}
    (first : ((Process.launch uid tlsDir).run events).first = some (h, l₀))
    (refused : ((Process.launch uid tlsDir).run events).gateway.listeners.err.isSome = true) :
    (((Process.launch uid tlsDir).run events).run more).gateway.listeners.lns = [] ∧
      (((Process.launch uid tlsDir).run events).run more).gateway.serving = true ∧
      ∀ h' now, ((((Process.launch uid tlsDir).run events).run more).gateway.apply h' now l₀).2 = {} := by
  have sound := (sound_launch uid tlsDir).run events
  generalize (Process.launch uid tlsDir).run events = p at *
  obtain ⟨first', _, listeners⟩ := sound.stays first more
  obtain ⟨_, _, _, tls, _, _, _, sockets⟩ := sound.up h l₀ first
  have up := (sound.run more).up h l₀ first'
  refine ⟨?_, ?_, ?_⟩
  · rw [listeners, sockets]
    rw [sockets] at refused
    exact Listeners.start_closed refused
  · unfold Gateway.serving
    rw [up.live]
    rfl
  · intro h' now
    have valid : Gateway.validateAgainstLiveRelays l₀ l₀.cfg = none := by
      unfold Gateway.validateAgainstLiveRelays
      rw [l₀.compiled]
    unfold Gateway.apply
    rw [up.live]
    dsimp only
    rw [valid, restartRequired_self]

end Unbound

section Sample

local instance asciiLower : Text.LowerCase := ⟨Char.toLower⟩
local instance asciiFolding : CaseFolding := ⟨Char.toLower⟩

local instance noBlocks : Netip where
  compileGlob _ _ _ := none
  compileRegex _ := none
  parsePrefix _ := none
  parseAddr _ := none
  readPrefix _ := none
  parsePrefix_eq _ := rfl
  slash _ _ read := by cases read

def plainHost (listen : Name → Option Name) : Host where
  hostname := "mx".toList
  openSpool _ := none
  loadKey _ := none
  selfSigned _ _ := .error []
  loadKeypair _ _ := none
  listen

def oneGroup : Table Name Relays.Group := Table.empty.set "main".toList (Relays.newGroup "main".toList [])

def everyone : Matcher := .const true

def version (token : Name) : Loaded where
  cfg := {
    server := { hostname := "mx.example".toList, listen := some [{ addr := ":25".toList }] }
    admin := { metricsToken := token }
    relays := oneGroup }
  file := { routes := [{ name := "out".toList, pred := .always true, actions := [.relay "main".toList] }] }
  rules := {
    policy := []
    routes := [{
      name := "out".toList, priority := 0, stage := everyone.stage, index := 0,
      actions := [.relay "main".toList], rcptScoped := false, pred := everyone, known := le_refl everyone.stage }]
    default := defaultAction }
  compiled := rfl

def twoVersions (listen : Name → Option Name) : List Event :=
  [.apply (plainHost listen) 0 (version "old".toList), .apply (plainHost listen) 7 (version "new".toList)]

def listening : Process := (Process.launch "gw1".toList []).run (twoVersions fun _ => none)

theorem last_accepted_holds_swapped : listening.gateway.Holds (version "old".toList) (version "new".toList) :=
  last_accepted_holds "gw1".toList [] (twoVersions fun _ => none) (h := plainHost fun _ => none) rfl rfl

theorem swapped_as_restarted_token :
    ((Process.launch "gw1".toList []).gateway.apply (plainHost fun _ => none) 9 (version "new".toList)).2 = {} ∧
      listening.gateway.Alike
        ((Process.launch "gw1".toList []).gateway.apply (plainHost fun _ => none) 9 (version "new".toList)).1 ∧
      (listening.gateway.parts =
          ((Process.launch "gw1".toList []).gateway.apply (plainHost fun _ => none) 9 (version "new".toList)).1.parts ↔
        wantsChecker (version "old".toList).cfg (version "old".toList).rules =
          wantsChecker (version "new".toList).cfg (version "new".toList).rules) :=
  swapped_as_restarted "gw1".toList [] (twoVersions fun _ => none) 9 rfl rfl (by decide) rfl

theorem routed_groups_known_swapped : ∃ runner, listening.gateway.parts.runner = some runner ∧
    (∀ e stage d group, (route listening.gateway.rules e stage).2 = some d →
      d.relay = some group → (runner.relay group).isSome = true) ∧
    ∀ hostname addr group rule, listening.gateway.bounceRouter hostname addr = some (group, rule) →
      (runner.relay group).isSome = true :=
  routed_groups_known "gw1".toList [] (twoVersions fun _ => none) rfl

def inUse (_ : Name) : Option Name := some "address already in use".toList

def unbound : Process := (Process.launch "gw1".toList []).run [.apply (plainHost inUse) 0 (version "old".toList)]

theorem never_listens_inUse : (unbound.run (twoVersions fun _ => none)).gateway.listeners.lns = [] ∧
    (unbound.run (twoVersions fun _ => none)).gateway.serving = true ∧
    ∀ h now, ((unbound.run (twoVersions fun _ => none)).gateway.apply h now (version "old".toList)).2 = {} :=
  never_listens "gw1".toList [] [.apply (plainHost inUse) 0 (version "old".toList)] (twoVersions fun _ => none) rfl rfl

end Sample

end Mailgw.Serving
