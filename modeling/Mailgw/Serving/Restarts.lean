import Mailgw.Rules.Groups
import Mailgw.Serving.Apply

namespace Mailgw.Serving

open Config Lists Queue Ratelimit Rules

theorem named_eq_nil {items : List (Bool × Name)} : named items = [] ↔ ∀ item ∈ items, item.1 = false := by
  induction items with
  | nil => simp [named]
  | cons item rest ih =>
    obtain ⟨changed, what⟩ := item
    cases changed <;> simp [named, ih]

/-- Two configurations that differ in what is swapped or read live only. -/
structure Fixed (c c' : Settings) : Prop where
  relays : ∀ name, c.relays.get name = c'.relays.get name
  server : c'.server = { c.server with rateLimit := c'.server.rateLimit }
  logging : c'.logging = c.logging

/-- Nothing needs a restart exactly when the limits, the credentials, the token, the allowlist and the
    rules are all that changes. -/
theorem restartRequired_eq_nil {c c' : Settings} : restartRequired c c' = [] ↔ Fixed c c' := by
  have relays : c.relays.agrees c'.relays = true ↔ ∀ name, c.relays.get name = c'.relays.get name := Table.agrees_iff
  simp only [restartRequired, named_eq_nil, List.forall_mem_cons, List.not_mem_nil, false_implies, implies_true, and_true,
    Bool.not_eq_false', relays, bne_eq_false_iff_eq]
  constructor
  · rintro ⟨table, listen, tls, hostname, greeting, domains, max, utf8, inactivity, shutdown, log, outbound, dsn, attach,
      msgAuth, events, logging⟩
    refine ⟨table, ?_, logging.symm⟩
    dsimp only
    rw [listen, tls, hostname, greeting, domains, max, utf8, inactivity, shutdown, log, outbound, dsn, attach, msgAuth,
      events]
  · rintro ⟨table, server, logging⟩
    rw [server, logging]
    simp [table]

theorem Fixed.refl (c : Settings) : Fixed c c := ⟨fun _ => rfl, rfl, rfl⟩

theorem restartRequired_self (c : Settings) : restartRequired c c = [] := restartRequired_eq_nil.mpr (.refl c)

section Building
variable [Text.LowerCase] [CaseFolding] [Netip] {h : Host} {uid tlsDir label : Name} {c c' : Settings} {l l' : Loaded}
  {signer : Option Signer} {tls : Option (Name × Name)}

def partsOf (uid : Name) (h : Host) (l : Loaded) (signer : Option Signer) (tls : Option (Name × Name)) : Parts where
  gatewayLabel := gatewayLabel uid l.cfg h.hostname
  spool := some l.cfg.server.outbound.spoolDir
  events := some (eventOptions l.cfg)
  bouncer := some (newBouncer l.cfg)
  runner := some (newRunner l.cfg (gatewayLabel uid l.cfg h.hostname) signer)
  backend := some (newBackend l.cfg (msgAuthChecker l.cfg l.rules) (gatewayLabel uid l.cfg h.hostname))
  srv := some (newServer l.cfg.server tls)
  replayer := startReplayer l.cfg

omit [CaseFolding] [Netip] in
theorem Fixed.signer_eq (fixed : Fixed c c') : dkimSigner h c' = dkimSigner h c := by
  unfold dkimSigner
  rw [fixed.server]

omit [Text.LowerCase] [CaseFolding] [Netip] in
theorem Fixed.tls_eq (fixed : Fixed c c') : serverTLS h tlsDir c' = serverTLS h tlsDir c := by
  unfold serverTLS
  rw [fixed.server]
  rfl

omit [Text.LowerCase] [CaseFolding] [Netip] in
theorem Fixed.label_eq (fixed : Fixed c c') : gatewayLabel uid c' h.hostname = gatewayLabel uid c h.hostname := by
  unfold gatewayLabel
  rw [fixed.server]

omit [Text.LowerCase] [CaseFolding] in
theorem Fixed.listeners_eq (fixed : Fixed c c') (ls : Listeners) (tls : Bool) : ls.start h c' tls = ls.start h c tls := by
  unfold Listeners.start
  rw [fixed.server]

omit [Text.LowerCase] [Netip] in
theorem Fixed.bouncer_eq (fixed : Fixed c c') : newBouncer c' = newBouncer c := by
  unfold newBouncer
  rw [fixed.server]

omit [Text.LowerCase] [Netip] in
theorem Fixed.runner_eq (fixed : Fixed c c') : newRunner c' label signer = newRunner c label signer := by
  have table : c'.relays.get = c.relays.get := funext fun name => (fixed.relays name).symm
  unfold newRunner
  rw [fixed.bouncer_eq, table, fixed.logging, fixed.server]

omit [Text.LowerCase] [Netip] in
theorem Fixed.backend_eq (fixed : Fixed c c') (checker : Option Checker) :
    newBackend c' checker label = newBackend c checker label := by
  have scanner : attachScanner c' = attachScanner c := by
    unfold attachScanner
    rw [fixed.logging, fixed.server]
  unfold newBackend
  rw [fixed.bouncer_eq, scanner, fixed.logging, fixed.server]

omit [Text.LowerCase] [CaseFolding] [Netip] in
/-- The checker depends on the rules in one way: whether they ask for one. -/
theorem Fixed.checker_iff (fixed : Fixed c c') {rules rules' : Ruleset} :
    msgAuthChecker c' rules' = msgAuthChecker c rules ↔ wantsChecker c' rules' = wantsChecker c rules := by
  have alike : c'.server.msgAuth = c.server.msgAuth := by rw [fixed.server]
  have named : c'.server.hostname = c.server.hostname := by rw [fixed.server]
  unfold msgAuthChecker
  rw [alike, named]
  cases wantsChecker c' rules' <;> cases wantsChecker c rules <;> simp

theorem Fixed.parts_iff (fixed : Fixed l.cfg l'.cfg) : partsOf uid h l' signer tls = partsOf uid h l signer tls ↔
    wantsChecker l'.cfg l'.rules = wantsChecker l.cfg l.rules := by
  have options : eventOptions l'.cfg = eventOptions l.cfg := by
    unfold eventOptions
    rw [fixed.logging, fixed.server]
  have replayer : startReplayer l'.cfg = startReplayer l.cfg := by
    unfold startReplayer
    rw [fixed.logging, fixed.server]
  have server : newServer l'.cfg.server tls = newServer l.cfg.server tls := by
    unfold newServer
    rw [fixed.server]
  have spool : l'.cfg.server.outbound.spoolDir = l.cfg.server.outbound.spoolDir := by rw [fixed.server]
  rw [← fixed.checker_iff]
  unfold partsOf
  rw [options, replayer, server, spool, fixed.label_eq, fixed.bouncer_eq, fixed.runner_eq, fixed.backend_eq]
  constructor
  · intro same
    have backend := congrArg (fun parts : Parts => parts.backend.bind Backend.checker) same
    exact backend
  · intro same
    rw [same]

end Building

end Mailgw.Serving
