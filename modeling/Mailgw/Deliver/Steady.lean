import Mailgw.Deliver.Attempts

namespace Mailgw.Deliver

open Calls World

def Op.Ends (t : Nat) (op : Op) (out : Option (Option Result)) (w : World) : Prop :=
  ∃ carrier, Has t [] none carrier w ∧ ∀ relay msg localName reuse res,
    op = .deliver relay msg localName reuse → out = some (some res) → res.err = none →
      ∃ k, carrier = some k ∧ Truthful relay res k

theorem Op.Ends.stable {t : Nat} {op : Op} (out : Option (Option Result)) :
    Stable (contract t op) (op.Ends t out) := by
  rintro w w' move ⟨carrier, has, truthful⟩
  exact ⟨carrier, Has.stable w w' move has, truthful⟩

theorem Op.sat_prog {t : Nat} {op : Op} {pool : Pool} {known carrier : Option Conn} {w : World}
    (has : Has t [] known carrier w) : Sat (contract t op) (op.Ends t) (op.prog pool) w := by
  cases op with
  | deliver relay msg localName reuse =>
    apply Sat.map
    apply (sat_deliver has).mono
    rintro out w' ⟨carrier', has', truthful⟩
    refine ⟨carrier', has', ?_⟩
    rintro relay' msg' localName' reuse' res ⟨⟩ result fine
    apply truthful res ?_ fine
    cases out <;> simp_all
  | reap =>
    apply Sat.map
    apply (sat_reap has).mono
    exact fun _ w' has' => ⟨carrier, has', fun _ _ _ _ _ other => by cases other⟩
  | close =>
    apply Sat.map
    apply (sat_close has).mono
    exact fun _ w' has' => ⟨carrier, has', fun _ _ _ _ _ other => by cases other⟩

def Report.Proper (r : Report) : Prop :=
  ∀ relay msg localName reuse, r.op = .deliver relay msg localName reuse → r.res.err = none →
    ∃ k, r.carrier = some k ∧ Truthful relay r.res k

namespace Cfg

structure Steady (cfg : Cfg) : Prop where
  sound : cfg.world.Sound
  idle : ∀ t, cfg.threads t = .idle → cfg.world.hands t = []
  busy : ∀ t op rest, cfg.threads t = .busy op rest → Sat (contract t op) (op.Ends t) rest cfg.world
  reports : ∀ r ∈ cfg.reports, r.Proper

variable {cfg cfg' : Cfg}

theorem steady_start (pool : Pool) : (start pool).Steady := by
  refine ⟨?_, fun _ _ => rfl, fun _ _ _ busy => (by cases busy), fun _ member => (by cases member)⟩
  refine ⟨List.nodup_nil, ⟨?_, ?_⟩, ?_, fun _ _ => rfl, ?_, ?_, ?_, ?_⟩
  · intro p
    cases p <;> exact List.nodup_nil
  · intro p q x held
    cases p <;> cases held
  · intro c
    refine ⟨fun live => (by cases live), ?_⟩
    rintro ⟨p, held⟩
    cases p <;> cases held
  · exact fun key conn member => by cases member
  · intro key
    show (0 : Int) ≤ pool.perKey
    unfold Pool.perKey
    split <;> omega
  · intro limited
    show (0 : Int) ≤ pool.maxTotal
    exact Int.le_of_lt limited
  · exact fun e member => by cases member

theorem Steady.setThread {t : Nat} {op : Op} {rest : Client (Option (Option Result))} (steady : cfg.Steady)
    (sat : Sat (contract t op) (op.Ends t) rest cfg.world) : (cfg.setThread t (.busy op rest)).Steady := by
  refine ⟨steady.sound, ?_, ?_, steady.reports⟩
  · intro t' idle
    by_cases same : t' = t
    · subst same
      simp [Cfg.setThread] at idle
    · exact steady.idle t' (by simpa [Cfg.setThread, same] using idle)
  · intro t' op' rest' busy
    by_cases same : t' = t
    · subst same
      simp only [Cfg.setThread, Function.update_self, Thread.busy.injEq] at busy
      obtain ⟨rfl, rfl⟩ := busy
      exact sat
    · exact steady.busy t' op' rest' (by simpa [Cfg.setThread, same] using busy)

theorem Steady.setIdle {t : Nat} (steady : cfg.Steady) (empty : cfg.world.hands t = []) :
    (cfg.setThread t .idle).Steady := by
  refine ⟨steady.sound, ?_, ?_, steady.reports⟩
  · intro t' idle
    by_cases same : t' = t
    · rw [same]
      exact empty
    · exact steady.idle t' (by simpa [Cfg.setThread, same] using idle)
  · intro t' op' rest' busy
    by_cases same : t' = t
    · subst same
      simp [Cfg.setThread] at busy
    · exact steady.busy t' op' rest' (by simpa [Cfg.setThread, same] using busy)

theorem Steady.settle {t : Nat} {op : Op} {rest : Client (Option (Option Result))} (steady : cfg.Steady)
    (sat : Sat (contract t op) (op.Ends t) rest cfg.world) : (cfg.settle t op rest).Steady := by
  cases rest with
  | call request next => exact steady.setThread sat
  | done out =>
    obtain ⟨carrier, has, truthful⟩ := sat
    cases out with
    | none => exact steady.setThread (Op.sat_prog has)
    | some outcome =>
      cases outcome with
      | none => exact steady.setIdle has.hands
      | some res =>
        have quiet := steady.setIdle has.hands
        refine ⟨quiet.sound, quiet.idle, quiet.busy, ?_⟩
        intro r member
        rcases List.mem_cons.mp member with rfl | old
        · intro relay msg localName reuse same fine
          rw [has.carrier]
          exact truthful relay msg localName reuse res same rfl fine
        · exact steady.reports r old

theorem Steady.exec {t : Nat} {op : Op} {request : Net} {next : request.Answer → Client (Option (Option Result))}
    {reply : Reply} (steady : cfg.Steady) (running : cfg.threads t = .busy op (.call request next)) :
    Sat (contract t op) (op.Ends t) (next (Deliver.exec t op reply cfg.world request).1)
        (Deliver.exec t op reply cfg.world request).2 ∧
      ({ cfg with world := (Deliver.exec t op reply cfg.world request).2 }.setThread t
        (.busy op (next (Deliver.exec t op reply cfg.world request).1))).Steady := by
  obtain ⟨guar, sat⟩ := (steady.busy t op _ running).answer ⟨reply, rfl⟩
  refine ⟨sat, guar.sound, ?_, ?_, steady.reports⟩
  · intro t' idle
    by_cases same : t' = t
    · subst same
      simp [Cfg.setThread] at idle
    · have resting : cfg.threads t' = .idle := by simpa [Cfg.setThread, same] using idle
      exact (guar.hands t' same).trans (steady.idle t' resting)
  · intro t' op' rest' busy
    by_cases same : t' = t
    · subst same
      simp only [Cfg.setThread, Function.update_self, Thread.busy.injEq] at busy
      obtain ⟨rfl, rfl⟩ := busy
      exact sat
    · have going : cfg.threads t' = .busy op' rest' := by simpa [Cfg.setThread, same] using busy
      exact (steady.busy t' op' rest' going).stable Op.Ends.stable (guar.rely same)

theorem settle_setThread (cfg : Cfg) (t : Nat) (op : Op) (thread : Thread) (rest : Client (Option (Option Result))) :
    (cfg.setThread t thread).settle t op rest = cfg.settle t op rest := by
  have twice : ∀ thread', (cfg.setThread t thread).setThread t thread' = cfg.setThread t thread' := by
    intro thread'
    simp [setThread]
  unfold settle
  cases rest with
  | call request next => exact twice _
  | done out =>
    cases out with
    | none => exact twice _
    | some outcome =>
      cases outcome with
      | none => exact twice _
      | some res => simp only [twice]; rfl

theorem Steady.next {d : Decision} (steady : cfg.Steady) (move : cfg.next d = some cfg') : cfg'.Steady := by
  cases d with
  | begin t op =>
    simp only [Cfg.next] at move
    split at move
    · rename_i idle
      cases move
      have has : Has t [] none (cfg.world.carrier t) cfg.world :=
        ⟨steady.sound, steady.idle t idle, rfl, fun _ head => by cases head⟩
      exact steady.setThread (Op.sat_prog has)
    · cases move
  | step t reply =>
    simp only [Cfg.next] at move
    split at move
    · rename_i op request next running
      cases move
      obtain ⟨sat, after⟩ := @Steady.exec cfg t op request next reply steady running
      rw [← settle_setThread]
      exact after.settle sat
    · cases move

theorem steady_reachable {pool : Pool} {ok : Cfg → Decision → Prop} (run : Reachable Cfg.next ok (start pool) cfg) :
    cfg.Steady :=
  run.invariant Steady (steady_start pool) fun _ _ _ steady _ move => steady.next move

end Cfg

end Mailgw.Deliver
