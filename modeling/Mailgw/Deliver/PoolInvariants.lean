import Mailgw.Deliver.Steady

namespace Mailgw.Deliver

open Calls World

/-- The invariants of the pool. A party is the pool (`none`) or a thread. -/
structure Cfg.Guarded (cfg : Cfg) : Prop where
  total : 0 < cfg.world.pool.maxTotal → (cfg.world.idle.total : Int) ≤ cfg.world.pool.maxTotal
  perKey : ∀ key, ((cfg.world.idle.slot key).length : Int) ≤ cfg.world.pool.perKey
  matched : ∀ e ∈ cfg.world.log, ∀ key, e.request = .take key → e.conn.storedUnder = some key
  once : (ids cfg.world.idle.all).Nodup
  owner : ∀ c, (cfg.world.conns c).live = true → ∃! party, c ∈ cfg.world.hold party
  working : ∀ t, ∀ c ∈ cfg.world.hands t, ∃ op rest, cfg.threads t = .busy op rest
  emptied : cfg.world.closed = true → cfg.world.idle = []

/-- No delivery is about to hand a connection back once the pool has been closed. -/
def Cfg.Punctual (cfg : Cfg) : Decision → Prop
  | .begin _ _ => True
  | .step t _ => cfg.world.closed = true →
    ∀ op key s messages next, cfg.threads t ≠ .busy op (.call (.shelve key s messages) next)

namespace World

theorem respond_emptied {t : Nat} {op : Op} {reply : Reply} {w : World} {request : Net}
    (emptied : w.closed = true → w.idle = [])
    (prompt : w.closed = true → ∀ key s messages, request ≠ .shelve key s messages) :
    (respond t op reply w request).2.closed = true → (respond t op reply w request).2.idle = [] := by
  cases request with
  | take key =>
    cases taken : w.idle.take key with
    | none => simpa [respond, taken] using emptied
    | some pair =>
      obtain ⟨conn, idle⟩ := pair
      intro closed
      have nothing : w.idle.take key = none := by
        rw [emptied (by simpa [respond, taken, pickUp] using closed)]
        rfl
      cases taken.symm.trans nothing
  | shelve key s messages =>
    intro closed
    have late : w.closed = true := by
      cases room : w.pool.refuses w.idle key <;> simpa [respond, room, store, amend, putDown] using closed
    exact absurd rfl (prompt late key s messages)
  | expired =>
    by_cases off : w.pool.idleTimeout ≤ 0
    · simpa [respond, off] using emptied
    · simp only [respond, off, if_false, pickUp]
      intro closed
      rw [emptied closed]
      rfl
  | drain => exact fun _ => rfl
  | dial addr | hello s name | startTLS s config | closeWithResponse s | quit s =>
    cases fault : reply.fault <;> simpa [respond, fault, enroll, amend, shut, putDown] using emptied
  | hangUp s => simpa [respond, amend, shut, putDown] using emptied
  | _ => exact emptied

end World

namespace Cfg

variable {cfg cfg' : Cfg}

theorem settle_world (cfg : Cfg) (t : Nat) (op : Op) (rest : Client (Option (Option Result))) :
    (cfg.settle t op rest).world = cfg.world := by
  unfold settle
  split <;> rfl

theorem emptied_next {d : Decision} (emptied : cfg.world.closed = true → cfg.world.idle = [])
    (punctual : cfg.Punctual d) (move : cfg.next d = some cfg') :
    cfg'.world.closed = true → cfg'.world.idle = [] := by
  cases d with
  | begin t op =>
    simp only [next] at move
    split at move
    · cases move
      exact emptied
    · cases move
  | step t reply =>
    simp only [next] at move
    split at move
    · rename_i op request rest running
      cases move
      rw [settle_world]
      apply respond_emptied emptied
      rintro closed key s messages rfl
      exact punctual closed _ _ _ _ _ running
    · cases move

theorem Steady.guarded (steady : cfg.Steady) (emptied : cfg.world.closed = true → cfg.world.idle = []) :
    cfg.Guarded where
  total := steady.sound.total
  perKey := steady.sound.perKey
  matched := by
    intro e member key asked
    have proper := steady.sound.proper e member
    simp only [Sent.Proper, asked] at proper
    exact proper.1
  once := steady.sound.sole.nodup none
  owner := by
    intro c live
    obtain ⟨party, held⟩ := (steady.sound.live c).mp live
    exact ⟨party, held, fun other held' => steady.sound.sole.apart other party c held' held⟩
  working := by
    intro t c held
    cases going : cfg.threads t with
    | idle =>
      rw [steady.idle t going] at held
      cases held
    | busy op rest => exact ⟨op, rest, rfl⟩
  emptied := emptied

end Cfg

/-- The pool keeps its limits and hands every connection to one party at a time, for the key it was
    stored under; and it stays empty after it was closed, as long as nothing is put back then. -/
theorem pool_guarded (pool : Pool) (cfg : Cfg) (run : Reachable Cfg.next Cfg.Punctual (Cfg.start pool) cfg) :
    cfg.Guarded := by
  have emptied : cfg.world.closed = true → cfg.world.idle = [] :=
    run.invariant (fun cfg => cfg.world.closed = true → cfg.world.idle = []) (fun _ => rfl)
      fun _ _ _ emptied punctual move => Cfg.emptied_next emptied punctual move
  exact (Cfg.steady_reachable run).guarded emptied

section Sample

def samplePool : Pool := { maxPerRelay := 5, maxTotal := 256, maxMessages := 50, idleTimeout := 30 }

def plainRelay : Relay := { name := "r".toList, exchange := "mx".toList, port := 25, tls := "none".toList }

def plainMessage : Message := { mailFrom := [], rcpts := ["c@d".toList], body := ⟨[[65]], none⟩ }

def plainDelivery : Op := .deliver plainRelay plainMessage "gw".toList true

/-- Every call of a delivery that finds the pool empty succeeds, until it wants to put its connection
    back: pool, dial, greeting, MAIL, RCPT, DATA, one write and its end. -/
def untilPut (t : Nat) : List Decision := .begin t plainDelivery :: List.replicate 8 (.step t { taken := 1 })

def never (_ : Cfg) (_ : Decision) : Bool := true

def Cfg.putsBack (cfg : Cfg) (t : Nat) : Bool :=
  match cfg.threads t with
  | .busy _ (.call (.shelve _ _ _) _) => true
  | _ => false

def punctualNow (cfg : Cfg) : Decision → Bool
  | .begin _ _ => true
  | .step t _ => !cfg.world.closed || !cfg.putsBack t

theorem punctual_of_now (cfg : Cfg) (d : Decision) (now : punctualNow cfg d = true) : cfg.Punctual d := by
  cases d with
  | begin t op => trivial
  | step t reply =>
    intro closed op key s messages next putting
    simp [punctualNow, Cfg.putsBack, closed, putting] at now

def sharedThenClosed : List Decision :=
  untilPut 0 ++ [.step 0 {}] ++ .begin 1 plainDelivery :: List.replicate 9 (.step 1 { taken := 1 }) ++
    .begin 2 .close :: List.replicate 2 (.step 2 {})

theorem pool_guarded_sample : ∃ cfg, Reachable Cfg.next Cfg.Punctual (Cfg.start samplePool) cfg ∧
    cfg.world.closed = true ∧ (∃ e ∈ cfg.world.log, ∃ key, e.request = .take key ∧ e.conn.storedUnder = some key) ∧
    cfg.Guarded := by
  have played : ((play Cfg.next punctualNow (Cfg.start samplePool) sharedThenClosed).map fun cfg =>
      cfg.world.closed && cfg.world.log.any fun e => e.request == .take (Identity.of plainRelay "gw".toList).key) =
        some true := by
    decide
  obtain ⟨cfg, reached, holds⟩ := Option.map_eq_some_iff.mp played
  simp only [Bool.and_eq_true, List.any_eq_true, beq_iff_eq] at holds
  obtain ⟨closed, e, member, asked⟩ := holds
  have run := reachable_of_play punctual_of_now _ reached
  have guarded := pool_guarded samplePool cfg run
  exact ⟨cfg, run, closed, ⟨e, member, _, asked, guarded.matched e member _ asked⟩, guarded⟩

/-- The grace period of a shutdown ends while a delivery is in flight: the pool is closed, and
    holds a connection for ever. -/
theorem pooled_after_close : ∃ cfg, Reachable Cfg.next (fun _ _ => True) (Cfg.start samplePool) cfg ∧
    cfg.world.closed = true ∧ cfg.threads 1 matches .idle ∧ ¬ cfg.Guarded := by
  have played : ((play Cfg.next never (Cfg.start samplePool)
      (untilPut 0 ++ [.begin 1 .close, .step 1 {}, .step 0 {}])).map fun cfg =>
        cfg.world.closed && (cfg.threads 1 matches .idle) && cfg.world.idle != []) = some true := by
    decide
  obtain ⟨cfg, reached, holds⟩ := Option.map_eq_some_iff.mp played
  simp only [Bool.and_eq_true, bne_iff_ne, ne_eq] at holds
  refine ⟨cfg, reachable_of_play (fun _ _ _ => trivial) _ reached, holds.1.1, by simpa using holds.1.2, ?_⟩
  exact fun guarded => holds.2 (guarded.emptied holds.1.1)

end Sample

/-- The report is right about encryption exactly when its delivery dialled a connection of its own,
    or took one from the pool that is encrypted if and only if the relay's policy is not to do
    without. The condition speaks of the connection as it was when the message was begun. -/
theorem reported_tls_truthful (pool : Pool) (cfg : Cfg)
    (run : Reachable Cfg.next (fun _ _ => True) (Cfg.start pool) cfg) (r : Report) (member : r ∈ cfg.reports)
    (relay : Relay) (msg : Message) (localName : Chars) (reuse : Bool)
    (delivery : r.op = .deliver relay msg localName reuse) (fine : r.res.err = none) :
    ∃ k, r.carrier = some k ∧ ((r.res.tls = true ↔ k.secured.isSome = true) ↔
      (k.storedUnder = none ∨ (k.secured.isSome = true ↔ relay.tlsPolicy ≠ .none))) := by
  obtain ⟨k, carried, truthful⟩ := (Cfg.steady_reachable run).reports r member relay msg localName reuse delivery fine
  refine ⟨k, carried, ?_⟩
  have agreed : k.secured.isSome = decide (relay.tlsPolicy ≠ .none) ↔
      (k.secured.isSome = true ↔ relay.tlsPolicy ≠ .none) := by
    rw [Bool.eq_iff_iff, decide_eq_true_iff]
  unfold Truthful at truthful
  rw [← Bool.eq_iff_iff, truthful, agreed]
  by_cases fresh : k.storedUnder = none
  · simp [fresh]
  · simp [fresh]

section Sample

def opportunisticRelay : Relay := { name := "r".toList, exchange := "mx".toList, port := 25 }

def opportunisticDelivery : Op := .deliver opportunisticRelay plainMessage "gw".toList true

def refusal : Reply := { fault := some { text := "STARTTLS not offered".toList } }

/-- The relay does not offer STARTTLS, so the first delivery goes out in the clear; the second one
    reuses its connection. -/
def downgradedTwice : List Decision :=
  [.begin 0 opportunisticDelivery, .step 0 {}, .step 0 {}, .step 0 refusal] ++
    List.replicate 8 (.step 0 { taken := 1 }) ++
    .begin 1 opportunisticDelivery :: List.replicate 9 (.step 1 { taken := 1 })

/-- The second delivery reports an encrypted session. -/
theorem downgrade_forgotten : ∃ cfg, Reachable Cfg.next (fun _ _ => True) (Cfg.start samplePool) cfg ∧
    ∃ r ∈ cfg.reports, r.res.err = none ∧ r.res.tls = true ∧ ∃ k, r.carrier = some k ∧ k.secured = none := by
  have played : ((play Cfg.next never (Cfg.start samplePool) downgradedTwice).map fun cfg =>
      cfg.reports.head?.any fun r => r.res.err == none && r.res.tls &&
        r.carrier.any fun k => k.secured == none) = some true := by
    decide
  obtain ⟨cfg, reached, last⟩ := Option.map_eq_some_iff.mp played
  obtain ⟨r, newest, claims⟩ := (Option.any_eq_true _ _).mp last
  simp only [Bool.and_eq_true, beq_iff_eq] at claims
  obtain ⟨k, carried, clear⟩ := (Option.any_eq_true _ _).mp claims.2
  exact ⟨cfg, reachable_of_play (fun _ _ _ => trivial) _ reached, r, List.mem_of_mem_head? newest,
    claims.1.1, claims.1.2, k, carried, by simpa using clear⟩

/-- The second delivery goes over the encrypted connection of the first one. -/
theorem reported_tls_truthful_sample : ∃ cfg, Reachable Cfg.next (fun _ _ => True) (Cfg.start samplePool) cfg ∧
    ∃ r ∈ cfg.reports, r.res.err = none ∧ ∃ k, r.carrier = some k ∧ k.storedUnder ≠ none ∧ k.secured.isSome = true ∧
      (r.res.tls = true ↔ k.secured.isSome = true) := by
  have played : ((play Cfg.next never (Cfg.start samplePool)
      (.begin 0 opportunisticDelivery :: List.replicate 10 (.step 0 { taken := 1 }) ++
        .begin 0 opportunisticDelivery :: List.replicate 9 (.step 0 { taken := 1 }))).map fun cfg =>
      cfg.reports.head?.any fun r => r.op == opportunisticDelivery && r.res.err == none &&
        r.carrier.any fun k => k.storedUnder.isSome && k.secured.isSome) = some true := by
    decide
  obtain ⟨cfg, reached, last⟩ := Option.map_eq_some_iff.mp played
  obtain ⟨r, newest, claims⟩ := (Option.any_eq_true _ _).mp last
  simp only [Bool.and_eq_true, beq_iff_eq] at claims
  obtain ⟨⟨delivery, fine⟩, claims⟩ := claims
  have run := reachable_of_play (fun _ _ _ => trivial) _ reached
  have member := List.mem_of_mem_head? newest
  obtain ⟨k, carried, exact_⟩ := reported_tls_truthful samplePool cfg run r member opportunisticRelay plainMessage
    "gw".toList true delivery fine
  simp only [carried, Option.any_some, Bool.and_eq_true] at claims
  have pooled : k.storedUnder ≠ none := Option.isSome_iff_ne_none.mp claims.1
  have encrypts : opportunisticRelay.tlsPolicy ≠ .none := by decide
  exact ⟨cfg, run, r, member, fine, k, carried, pooled, claims.2,
    exact_.mpr (.inr (iff_of_true claims.2 encrypts))⟩

end Sample

end Mailgw.Deliver
