import Mailgw.Deliver.PoolInvariants
import Mailgw.Relays.Group
import Mailgw.Text.Decimal
import Mailgw.Text.Paths

namespace Mailgw.Deliver

open Calls Lists World

abbrev Caller := Relay × Chars

def Caller.identity (caller : Caller) : Identity := .of caller.1 caller.2

def Sent.Secure (e : Sent) : Prop :=
  match e.op, e.request with
  | .deliver relay _ localName _, .take _ =>
    ∃ opener : Caller, e.conn.opened = some opener ∧ opener.identity = .of relay localName
  | .deliver relay _ _ _, .auth _ user pass =>
    user = relay.authUser ∧ pass = relay.authPass ∧ e.conn.addr = relay.addr ∧
      (e.conn.secured.isSome ∨ relay.allowInsecureAuth)
  | .deliver relay _ _ _, .mail _ _ _ | .deliver relay _ _ _, .rcpt _ _ | .deliver relay _ _ _, .write _ _ =>
    relay.tlsPolicy = .required → ∃ config, e.conn.secured = some config ∧
      config.serverName = relay.exchange ∧ config.insecureSkipVerify = false
  | _, _ => True

def KeysApart (callers : Set Caller) : Prop :=
  ∀ a ∈ callers, ∀ b ∈ callers, a.identity.key = b.identity.key → a.identity = b.identity

def Cfg.Serves (callers : Set Caller) (_ : Cfg) : Decision → Prop
  | .begin _ op => ∀ caller ∈ op.opener, caller ∈ callers
  | .step _ _ => True

section Keys

theorem exchange_eq_of_addr {relay relay' : Relay} (same : relay.addr = relay'.addr) : relay.exchange = relay'.exchange := by
  have colonless : ∀ n, ':' ∉ Nat.toDigits 10 n := by
    intro n member
    have digit := Nat.isDigit_of_mem_toDigits (by decide) (by decide) member
    exact absurd digit (by decide)
  exact (Text.append_last_sep_inj (colonless _) (colonless _) same).1

def nulFree (s : Chars) : Prop := '\x00' ∉ s

instance (s : Chars) : Decidable (nulFree s) := inferInstanceAs (Decidable (_ ∉ _))

theorem TLSPolicy.text_injective {a b : TLSPolicy} (same : a.text = b.text) : a = b := by
  cases a <;> cases b <;> first | rfl | exact absurd same (by decide)

/-- Without NUL characters in exchange and user the key determines the identity. -/
theorem key_injective {a b : Identity} (addr : nulFree a.addr) (addr' : nulFree b.addr) (user : nulFree a.authUser)
    (user' : nulFree b.authUser) (same : a.key = b.key) : a = b := by
  have policies : ∀ policy : TLSPolicy, '\x00' ∉ policy.text := by
    intro policy
    cases policy <;> decide
  simp only [Identity.key, List.append_assoc, List.cons_append] at same
  obtain ⟨addrs, same⟩ := Text.append_sep_inj addr addr' same
  obtain ⟨users, same⟩ := Text.append_sep_inj user user' same
  obtain ⟨tls, locals⟩ := Text.append_sep_inj (policies _) (policies _) same
  have policy := TLSPolicy.text_injective tls
  cases a
  cases b
  simp_all

theorem keysApart_of_nulFree {callers : Set Caller}
    (clean : ∀ caller ∈ callers, nulFree caller.1.addr ∧ nulFree caller.1.authUser) : KeysApart callers := by
  intro a within b within' same
  exact key_injective (clean a within).1 (clean b within').1 (clean a within).2 (clean b within').2 same

end Keys

section Serving
variable {callers : Set Caller}

structure World.Known (callers : Set Caller) (w : World) : Prop where
  conns : ∀ c, ∀ opener ∈ (w.conns c).opened, opener ∈ callers
  ops : ∀ e ∈ w.log, ∀ caller ∈ e.op.opener, caller ∈ callers
  sent : ∀ e ∈ w.log, ∀ opener ∈ e.conn.opened, opener ∈ callers

theorem respond_opened {t : Nat} {op : Op} {reply : Reply} {w : World} {request : Net} (c : Nat) :
    ((respond t op reply w request).2.conns c).opened = (w.conns c).opened ∨
      ((respond t op reply w request).2.conns c).opened = op.opener := by
  cases request with
  | take key =>
    left
    cases taken : w.idle.take key <;> simp [respond, taken, pickUp]
  | shelve key s messages =>
    left
    cases room : w.pool.refuses w.idle key <;> by_cases here : c = s.id <;>
      simp [respond, room, World.store, amend, putDown, here]
  | expired =>
    left
    by_cases off : w.pool.idleTimeout ≤ 0 <;> simp [respond, off, pickUp]
  | dial addr =>
    cases fault : reply.fault with
    | some err => simp [respond, fault]
    | none =>
      by_cases here : c = w.dialed <;> simp [respond, fault, enroll, here]
  | startTLS s config | hello s name | quit s | closeWithResponse s =>
    left
    cases fault : reply.fault <;> by_cases here : c = s.id <;> simp [respond, fault, shut, amend, putDown, here]
  | hangUp s =>
    left
    by_cases here : c = s.id <;> simp [respond, shut, amend, putDown, here]
  | _ => exact .inl rfl

theorem respond_log {t : Nat} {op : Op} {reply : Reply} {w : World} {request : Net} :
    (respond t op reply w request).2.log = w.log := by
  cases request with
  | take key => cases taken : w.idle.take key <;> simp [respond, taken, pickUp]
  | shelve key s messages => cases room : w.pool.refuses w.idle key <;> simp [respond, room, World.store, amend, putDown]
  | expired => by_cases off : w.pool.idleTimeout ≤ 0 <;> simp [respond, off, pickUp]
  | dial addr | startTLS s config | hello s name | quit s | closeWithResponse s =>
    cases fault : reply.fault <;> simp [respond, fault, enroll, amend, shut, putDown]
  | _ => rfl

theorem record_conn {op : Op} {w : World} {request : Net} {answer : request.Answer} {e : Sent}
    (member : e ∈ record op w request answer) : e.op = op ∧ ∃ c, e.conn = w.conns c := by
  by_cases search : ∃ key, request = .take key
  · obtain ⟨key, rfl⟩ := search
    cases answer with
    | none => simp [record, Net.socket?] at member
    | some conn =>
      rw [List.mem_singleton.mp member]
      exact ⟨rfl, _, rfl⟩
  · obtain ⟨s, -, rfl⟩ := mem_record (fun key same => search ⟨key, same⟩) member
    exact ⟨rfl, _, rfl⟩

theorem World.Known.exec {t : Nat} {op : Op} {reply : Reply} {w : World} {request : Net} (known : w.Known callers)
    (served : ∀ caller ∈ op.opener, caller ∈ callers) : (exec t op reply w request).2.Known callers := by
  have split : ∀ e ∈ (Deliver.exec t op reply w request).2.log,
      e ∈ record op w request (respond t op reply w request).1 ∨ e ∈ w.log := by
    intro e member
    rcases List.mem_append.mp member with new | old
    · exact .inl new
    · exact .inr (respond_log ▸ old)
  constructor
  · intro c opener opened
    rcases respond_opened c with same | same
    · exact known.conns c opener (same ▸ opened)
    · exact served opener (same ▸ opened)
  · intro e member caller asked
    rcases split e member with new | old
    · exact served caller ((record_conn new).1 ▸ asked)
    · exact known.ops e old caller asked
  · intro e member opener opened
    rcases split e member with new | old
    · obtain ⟨-, c, same⟩ := record_conn new
      exact known.conns c opener (same ▸ opened)
    · exact known.sent e old opener opened

structure Cfg.Known (callers : Set Caller) (cfg : Cfg) : Prop where
  world : cfg.world.Known callers
  threads : ∀ t op rest, cfg.threads t = .busy op rest → ∀ caller ∈ op.opener, caller ∈ callers

theorem Cfg.Known.setThread {cfg : Cfg} {t : Nat} {op : Op} {rest : Client (Option (Option Result))}
    (known : cfg.Known callers) (served : ∀ caller ∈ op.opener, caller ∈ callers) :
    (cfg.setThread t (.busy op rest)).Known callers := by
  refine ⟨known.world, fun t' op' rest' busy => ?_⟩
  by_cases same : t' = t
  · subst same
    simp only [Cfg.setThread, Function.update_self, Thread.busy.injEq] at busy
    exact busy.1 ▸ served
  · exact known.threads t' op' rest' (by simpa [Cfg.setThread, same] using busy)

theorem Cfg.Known.setIdle {cfg : Cfg} {t : Nat} (known : cfg.Known callers) :
    (cfg.setThread t .idle).Known callers := by
  refine ⟨known.world, fun t' op' rest' busy => ?_⟩
  by_cases same : t' = t
  · subst same
    simp [Cfg.setThread] at busy
  · exact known.threads t' op' rest' (by simpa [Cfg.setThread, same] using busy)

theorem Cfg.Known.next {cfg cfg' : Cfg} {d : Decision} (known : cfg.Known callers) (serves : Cfg.Serves callers cfg d)
    (move : cfg.next d = some cfg') : cfg'.Known callers := by
  cases d with
  | begin t op =>
    simp only [Cfg.next] at move
    split at move
    · cases move
      exact known.setThread serves
    · cases move
  | step t reply =>
    simp only [Cfg.next] at move
    split at move
    · rename_i op request next running
      cases move
      have served := known.threads t op _ running
      have after : ({ cfg with world := (Deliver.exec t op reply cfg.world request).2 } : Cfg).Known callers :=
        ⟨known.world.exec served, known.threads⟩
      unfold Cfg.settle
      split
      · exact after.setThread served
      · exact after.setIdle
      · have quiet : Cfg.Known callers (Cfg.setThread _ t .idle) := after.setIdle
        exact ⟨quiet.world, quiet.threads⟩
      · exact after.setThread served
    · cases move

end Serving

theorem Conn.Kept.fits {callers : Set Caller} (apart : KeysApart callers) {relay : Relay} {localName : Chars}
    (within : (relay, localName) ∈ callers) {k : Conn} (opener : ∀ caller ∈ k.opened, caller ∈ callers)
    (kept : k.Kept (Identity.of relay localName).key) :
    ∃ other : Caller, k.opened = some other ∧ k.Fits other.1 other.2 ∧ other.identity = .of relay localName := by
  obtain ⟨relay', localName', fits, same⟩ := kept
  refine ⟨(relay', localName'), fits.opened, fits, ?_⟩
  exact apart _ (opener _ fits.opened) _ within same

/-- Whenever different identities have different pool keys, a connection is reused only for the
    identity it was opened for, credentials go only to the relay's own address and in the clear only
    if the relay allows it, and nothing of a message for a relay that requires TLS is sent on a
    connection without a verified session for that relay's exchange. -/
theorem deliveries_secure (pool : Pool) (callers : Set Caller) (apart : KeysApart callers) (cfg : Cfg)
    (run : Reachable Cfg.next (Cfg.Serves callers) (Cfg.start pool) cfg) : ∀ e ∈ cfg.world.log, e.Secure := by
  have known : cfg.Known callers := by
    refine run.invariant (Cfg.Known callers) ?_ fun _ _ _ known serves move => known.next serves move
    refine ⟨⟨?_, ?_, ?_⟩, fun _ _ _ busy => (by cases busy)⟩
    · exact fun c opener opened => by cases opened
    · exact fun e member => by cases member
    · exact fun e member => by cases member
  intro e member
  have proper := (Cfg.steady_reachable run).sound.proper e member
  have opener := known.world.sent e member
  have own := known.world.ops e member
  obtain ⟨op, request, conn⟩ := e
  cases op with
  | deliver relay msg localName reuse =>
    have within : (relay, localName) ∈ callers := own _ rfl
    have verified : conn.Kept (Identity.of relay localName).key → relay.tlsPolicy = .required →
        ∃ config, conn.secured = some config ∧ config.serverName = relay.exchange ∧
          config.insecureSkipVerify = false := by
      intro kept required
      obtain ⟨other, -, fits, same⟩ := kept.fits apart within opener
      have policy : other.1.tlsPolicy = .required := (congrArg Identity.tlsPolicy same).trans required
      exact ⟨_, fits.required policy, exchange_eq_of_addr (congrArg Identity.addr same), rfl⟩
    cases request with
    | take key =>
      obtain ⟨-, kept, asked⟩ := proper
      rw [asked relay msg localName reuse rfl] at kept
      obtain ⟨other, opened, -, same⟩ := kept.fits apart within opener
      exact ⟨other, opened, same⟩
    | auth s user pass => exact proper
    | mail s sender opts => exact verified proper
    | rcpt s addr => exact verified proper
    | write s chunk => exact verified proper
    | _ => trivial
  | reap => trivial
  | close => trivial

section Sample

/-- Two relays whose addresses and users run together around the separator of the pool key. -/
def firstRelay : Relay :=
  { name := "one".toList, exchange := "h".toList, port := 25, authUser := "x:25\x00y".toList, authPass := "p".toList,
    tls := "required".toList }

def secondRelay : Relay :=
  { name := "two".toList, exchange := "h:25\x00x".toList, port := 25, authUser := "y".toList, authPass := "q".toList,
    tls := "required".toList }

def clashingRelays : Table Chars (List Relays.Relay) :=
  (Table.empty.set "one".toList [{ toRelay := firstRelay }]).set "two".toList [{ toRelay := secondRelay }]

def deliveryTo (relay : Relay) : Op := .deliver relay plainMessage "gw".toList true

def confused : List Decision :=
  .begin 0 (deliveryTo firstRelay) :: List.replicate 12 (.step 0 { taken := 1, offered := true }) ++
    .begin 1 (deliveryTo secondRelay) :: List.replicate 4 (.step 1 { taken := 1 })

/-- The message for the second relay, which requires TLS, goes to the first one over a session that
    was verified for another name. -/
theorem relay_confused : (∃ table, Relays.newTable clashingRelays = .ok table) ∧
    ∃ cfg, Reachable Cfg.next (fun _ _ => True) (Cfg.start samplePool) cfg ∧
      ∃ e ∈ cfg.world.log, e.op = deliveryTo secondRelay ∧ (∃ s opts, e.request = .mail s [] opts) ∧
        e.conn.opened = some (firstRelay, "gw".toList) ∧ ¬ e.Secure := by
  refine ⟨⟨_, rfl⟩, ?_⟩
  have played : ((play Cfg.next never (Cfg.start samplePool) confused).map fun cfg =>
      cfg.world.log.head?.any fun e => e.op == deliveryTo secondRelay &&
        (e.request == .mail ⟨0, none⟩ [] ⟨false, false⟩) && e.conn.opened == some (firstRelay, "gw".toList) &&
        e.conn.secured == some (verified firstRelay)) = some true := by
    decide
  obtain ⟨cfg, reached, last⟩ := Option.map_eq_some_iff.mp played
  obtain ⟨⟨op, request, conn⟩, newest, claims⟩ := (Option.any_eq_true _ _).mp last
  simp only [Bool.and_eq_true, beq_iff_eq] at claims
  obtain ⟨⟨⟨rfl, rfl⟩, opened⟩, secured⟩ := claims
  refine ⟨cfg, reachable_of_play (fun _ _ _ => trivial) _ reached, _, List.mem_of_mem_head? newest, rfl,
    ⟨_, _, rfl⟩, opened, fun secure => ?_⟩
  obtain ⟨config, held, name, -⟩ := secure (by decide)
  cases held.symm.trans secured
  exact absurd name (by decide)

def eastRelay : Relay :=
  { name := "east".toList, exchange := "a.example".toList, port := 587, authUser := "u".toList, authPass := "p".toList,
    tls := "required".toList }

def westRelay : Relay :=
  { name := "west".toList, exchange := "b.example".toList, port := 587, authUser := "v".toList, authPass := "q".toList,
    tls := "required".toList }

/-- The second relay is served while a delivery to the first one is under way, whose connection a later
    delivery finds in the pool. -/
def takingTurns : List Decision :=
  .begin 0 (deliveryTo eastRelay) :: List.replicate 6 (.step 0 { taken := 1, offered := true }) ++
    .begin 1 (deliveryTo westRelay) :: List.replicate 12 (.step 1 { taken := 1, offered := true }) ++
    List.replicate 6 (.step 0 { taken := 1, offered := true }) ++
    .begin 0 (deliveryTo eastRelay) :: List.replicate 9 (.step 0 { taken := 1 })

def logs (cfg : Cfg) (relay : Relay) (request : Net) : Bool :=
  cfg.world.log.any fun e => e.op == deliveryTo relay && e.request == request

theorem deliveries_secure_sample : ∃ cfg,
    Reachable Cfg.next (Cfg.Serves {(eastRelay, "gw".toList), (westRelay, "gw".toList)}) (Cfg.start samplePool) cfg ∧
      (logs cfg eastRelay (.auth ⟨0, none⟩ "u".toList "p".toList) = true ∧
        logs cfg westRelay (.auth ⟨1, none⟩ "v".toList "q".toList) = true ∧
        logs cfg eastRelay (.take (Identity.of eastRelay "gw".toList).key) = true ∧
        logs cfg westRelay (.write ⟨1, none⟩ [65]) = true) ∧
      ∀ e ∈ cfg.world.log, e.Secure := by
  have played : ((play Cfg.next (fun _ d => match d with
        | .begin _ op => op == deliveryTo eastRelay || op == deliveryTo westRelay
        | .step _ _ => true) (Cfg.start samplePool) takingTurns).map fun cfg =>
      logs cfg eastRelay (.auth ⟨0, none⟩ "u".toList "p".toList) &&
        logs cfg westRelay (.auth ⟨1, none⟩ "v".toList "q".toList) &&
        logs cfg eastRelay (.take (Identity.of eastRelay "gw".toList).key) && logs cfg westRelay (.write ⟨1, none⟩ [65])) = some true := by
    decide
  obtain ⟨cfg, reached, logged⟩ := Option.map_eq_some_iff.mp played
  simp only [Bool.and_eq_true, and_assoc] at logged
  have run : Reachable Cfg.next (Cfg.Serves {(eastRelay, "gw".toList), (westRelay, "gw".toList)}) (Cfg.start samplePool) cfg := by
    refine reachable_of_play ?_ _ reached
    intro cfg d allowed
    cases d with
    | begin t op =>
      rintro caller opener
      rcases Bool.or_eq_true_iff.mp allowed with to_ | to_ <;> rw [beq_iff_eq.mp to_] at opener
      · exact .inl (Option.some.inj opener).symm
      · exact .inr (Option.some.inj opener).symm
    | step t reply => trivial
  refine ⟨cfg, run, logged, deliveries_secure samplePool _ (keysApart_of_nulFree ?_) cfg run⟩
  rintro caller (rfl | rfl) <;> decide

end Sample

end Mailgw.Deliver
