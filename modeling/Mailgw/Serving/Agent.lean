import Mailgw.Store.Booting

namespace Mailgw.Serving

open Queue Store

/-- How long a version that failed to apply is left alone, in seconds. -/
def applyRetryBackoff : Int := 300

def maxApplyError : Nat := 4000

def truncate (s : Name) (max : Nat) : Name :=
  if s.length ≤ max then s else s.take max ++ "… (truncated)".toList

/-- What a cached bundle is applied to: its state, and the answer of the outside to one apply. It
    answers what only a restart can pick up, or what went wrong. -/
structure Applier (σ H : Type) where
  apply : H → List UInt8 → σ → σ × Except Name (List Name)

/-- What the outside answers one job: which statements and reads of the database fail, what the clock
    shows, and what the console hands out. -/
structure Answers (H : Type) where
  host : H
  desiredFails : Bool := false
  appliedUnread : Bool := false
  desiredUnread : Bool := false
  cacheUnread : Bool := false
  saveFault : Option SaveFault := none
  markFails : Bool := false
  now : Int := 0
  fetchedAt : Int := 0
  endedAt : Int := 0
  config : Option CachedConfig := none

/-- The agent of a process. `running` and `missed` only record: the version that was accepted last in
    this process, and whether that could not be written down. -/
structure Agent (σ : Type) where
  store : ConfigStore := {}
  gw : σ
  lastRestart : List Name := []
  failedVersion : Int := 0
  failedUntil : Int := 0
  running : Option Int := none
  missed : Bool := false

structure Report where
  appliedVersionID : Option Int
  applyError : Option Name
  restartRequired : Bool
  deriving DecidableEq

section Jobs
variable {σ H : Type} (gateway : Applier σ H)

namespace Agent

/-- The single place where a cached bundle becomes running configuration. -/
def applyCached (x : Answers H) (c : CachedConfig) (a : Agent σ) : Agent σ × Bool :=
  match gateway.apply x.host c.bundle a.gw with
  | (gw, .error err) =>
    ({ a with
      gw, store := a.store.after (.markApplyError c.versionID (truncate err maxApplyError) x.markFails)
      failedVersion := c.versionID, failedUntil := x.endedAt + applyRetryBackoff }, false)
  | (gw, .ok restart) =>
    ({ a with
      gw, store := a.store.after (.markApplied c.versionID x.endedAt x.markFails)
      failedVersion := 0, lastRestart := restart, running := some c.versionID
      missed := x.markFails || (a.store.cache.get c.versionID).isNone }, true)

def keep (x : Answers H) (c : CachedConfig) (a : Agent σ) : Agent σ :=
  let a := { a with store := a.store.after (.save c x.fetchedAt x.saveFault) }
  if x.saveFault.isSome then a else (a.applyCached gateway x c).1

def fetch (x : Answers H) (a : Agent σ) : Agent σ :=
  match x.config with
  | none => a
  | some resp => a.keep gateway x { resp with fetchedAt := some x.fetchedAt, appliedAt := none, applyError := [] }

def pull (x : Answers H) (want : Int) (sha : Option Name) (a : Agent σ) : Agent σ :=
  let a := { a with store := a.store.after (.setDesired want x.desiredFails) }
  if x.appliedUnread then a
  else if a.store.cache.appliedConfig.map CachedConfig.versionID = some want then { a with failedVersion := 0 }
  else if a.failedVersion = want ∧ x.now < a.failedUntil then a
  else if x.cacheUnread then a
  else
    match a.store.cache.configByVersionID want with
    | none => a.fetch gateway x
    | some c =>
      if sha.all fun digest => c.sha256 = digest then
        a.keep gateway x { c with fetchedAt := some x.fetchedAt, applyError := [] }
      else a.fetch gateway x

def offered (x : Answers H) (a : Agent σ) : Option CachedConfig :=
  bootConfig (if x.appliedUnread then .error () else .ok a.store.cache.appliedConfig)
    (if x.desiredUnread then .error () else .ok a.store.desired)
    fun id => if x.cacheUnread then .error () else .ok (a.store.cache.configByVersionID id)

/-- Brings the gateway up from the cache, with the last version that applied if the first one fails. -/
def bootFromCache (x y : Answers H) (a : Agent σ) : Agent σ :=
  match a.offered x with
  | none => a
  | some cached =>
    let first := a.applyCached gateway x cached
    if first.2 then first.1
    else if y.appliedUnread then first.1
    else
      match first.1.store.cache.appliedConfig with
      | none => first.1
      | some applied =>
        if applied.versionID = cached.versionID then first.1 else (first.1.applyCached gateway y applied).1

def applyFromCache (x : Answers H) (a : Agent σ) : Agent σ :=
  match a.offered x with
  | none => a
  | some c => (a.applyCached gateway x c).1

/-- Only a version the console issued is reported to it, and those are positive. What cannot be read is
    reported as absent. -/
def report (x : Answers H) (a : Agent σ) : Report where
  appliedVersionID :=
    if x.appliedUnread then none
    else (a.store.cache.appliedConfig.map CachedConfig.versionID).filter fun id => 0 < id
  applyError :=
    if a.failedVersion = 0 then none
    else if x.cacheUnread then none
    else ((a.store.cache.configByVersionID a.failedVersion).map CachedConfig.applyError).filter fun err => err ≠ []
  restartRequired := a.lastRestart ≠ []

end Agent

/-- What an agent goes through. A restarted process has a new gateway and the old database. The source
    polls in one goroutine and reloads in another; here a job is over before the next one begins. -/
inductive Job (σ H : Type) where
  | boot (x y : Answers H)
  | poll (x : Answers H) (want : Int) (sha : Option Name)
  | reload (x : Answers H)
  | restart (gw : σ)

namespace Agent

def after (a : Agent σ) : Job σ H → Agent σ
  | .boot x y => a.bootFromCache gateway x y
  | .poll x want sha => a.pull gateway x want sha
  | .reload x => a.applyFromCache gateway x
  | .restart gw => { store := a.store, gw }

def run (a : Agent σ) (jobs : List (Job σ H)) : Agent σ := jobs.foldl (after gateway) a

end Agent

end Jobs

section Truth
variable {σ H : Type} {gateway : Applier σ H} {a : Agent σ} {x y : Answers H}

structure Agent.Recorded (a : Agent σ) : Prop where
  consistent : a.store.Consistent
  marked : a.missed = false → ∀ id, a.running = some id → a.store.marked = some id

namespace Agent.Recorded

theorem move (recorded : a.Recorded) (move : ConfigMove) (unmarked : (a.store.after move).marked = a.store.marked) :
    Recorded { a with store := a.store.after move } := by
  constructor
  · exact recorded.consistent.after move
  · intro taken id running
    exact unmarked.trans (recorded.marked taken id running)

theorem applyCached (recorded : a.Recorded) (x : Answers H) (c : CachedConfig) : (a.applyCached gateway x c).1.Recorded := by
  unfold Agent.applyCached
  split
  · rename_i err _
    constructor
    · exact recorded.consistent.after (.markApplyError c.versionID (truncate err maxApplyError) x.markFails)
    · intro taken id running
      have same : (a.store.after (.markApplyError c.versionID (truncate err maxApplyError) x.markFails)).marked = a.store.marked := by
        cases x.markFails <;> rfl
      exact same.trans (recorded.marked taken id running)
  · constructor
    · exact recorded.consistent.after (.markApplied c.versionID x.endedAt x.markFails)
    · rintro taken id ⟨⟩
      simp only [Bool.or_eq_false_iff] at taken
      obtain ⟨works, there⟩ := taken
      have cached : (a.store.cache.get c.versionID).isSome = true := by
        cases here : a.store.cache.get c.versionID <;> simp [here] at there ⊢
      simp only [ConfigStore.after, works, Bool.false_eq_true, if_false, cached, if_true]

theorem keep (recorded : a.Recorded) (x : Answers H) (c : CachedConfig) : (a.keep gateway x c).Recorded := by
  have saved := recorded.move (.save c x.fetchedAt x.saveFault) rfl
  unfold Agent.keep
  dsimp only
  split
  · exact saved
  · exact saved.applyCached x c

theorem fetch (recorded : a.Recorded) (x : Answers H) : (a.fetch gateway x).Recorded := by
  unfold Agent.fetch
  split
  · exact recorded
  · exact recorded.keep x _

theorem pull (recorded : a.Recorded) (x : Answers H) (want : Int) (sha : Option Name) : (a.pull gateway x want sha).Recorded := by
  have unmarked : (a.store.after (.setDesired want x.desiredFails)).marked = a.store.marked := by
    cases x.desiredFails <;> rfl
  have wanted := recorded.move (.setDesired want x.desiredFails) unmarked
  unfold Agent.pull
  dsimp only
  split
  · exact wanted
  split
  · exact ⟨wanted.consistent, wanted.marked⟩
  split
  · exact wanted
  split
  · exact wanted
  split
  · exact wanted.fetch x
  · split
    · exact wanted.keep x _
    · exact wanted.fetch x

theorem bootFromCache (recorded : a.Recorded) (x y : Answers H) : (a.bootFromCache gateway x y).Recorded := by
  unfold Agent.bootFromCache
  split
  · exact recorded
  · rename_i cached _
    have first : (a.applyCached gateway x cached).1.Recorded := recorded.applyCached x cached
    dsimp only
    split
    · exact first
    split
    · exact first
    split
    · exact first
    · split
      · exact first
      · exact first.applyCached y _

theorem applyFromCache (recorded : a.Recorded) (x : Answers H) : (a.applyFromCache gateway x).Recorded := by
  unfold Agent.applyFromCache
  split
  · exact recorded
  · exact recorded.applyCached x _

theorem after (recorded : a.Recorded) (job : Job σ H) : (a.after gateway job).Recorded := by
  cases job with
  | boot x y => exact recorded.bootFromCache x y
  | poll x want sha => exact recorded.pull x want sha
  | reload x => exact recorded.applyFromCache x
  | restart gw =>
    constructor
    · exact recorded.consistent
    · rintro _ id ⟨⟩

theorem run (recorded : a.Recorded) (jobs : List (Job σ H)) : (a.run gateway jobs).Recorded := by
  induction jobs generalizing a with
  | nil => exact recorded
  | cons job rest ih => exact ih (recorded.after job)

end Agent.Recorded

/-- Through any boots, polls, reloads and restarts of the process that do not overlap, whatever fails: unless
    the last accepted version could not be written down, it is the applied row of the database, with the
    bytes last saved for it, and the version that is reported when the console issued it and the row can be
    read. -/
theorem reported_is_running (gateway : Applier σ H) (gw : σ) (jobs : List (Job σ H)) {id : Int}
    (running : (({ gw } : Agent σ).run gateway jobs).running = some id)
    (written : (({ gw } : Agent σ).run gateway jobs).missed = false) :
    (∀ x : Answers H, ((({ gw } : Agent σ).run gateway jobs).report x).appliedVersionID =
        if x.appliedUnread = false ∧ 0 < id then some id else none) ∧
      ∃ c, (({ gw } : Agent σ).run gateway jobs).store.cache.appliedConfig = some c ∧ c.versionID = id ∧
        (({ gw } : Agent σ).run gateway jobs).store.saved.get id = some c.bundle := by
  have recorded : (({ gw } : Agent σ).run gateway jobs).Recorded := by
    apply Agent.Recorded.run
    constructor
    · exact ConfigStore.consistent_fresh
    · rintro _ _ ⟨⟩
  generalize ({ gw } : Agent σ).run gateway jobs = a at *
  obtain ⟨c, config, _, own, bytes⟩ := recorded.consistent.lawful.applied id (recorded.marked written id running)
  refine ⟨fun x => ?_, c, config, own, bytes⟩
  unfold Agent.report
  rw [config]
  cases x.appliedUnread with
  | true => simp
  | false => by_cases positive : 0 < id <;> simp [Option.filter, own, positive]

end Truth

section Backoff
variable {σ H : Type} {gateway : Applier σ H} {a : Agent σ}

structure Agent.Resting (a b : Agent σ) (version until_ : Int) : Prop where
  gw : b.gw = a.gw
  cache : b.store.cache = a.store.cache
  running : b.running = a.running
  failed : b.failedVersion = version
  rests : b.failedUntil = until_

/-- While a version that failed is left alone, and the console goes on wanting it, nothing is fetched or
    applied. -/
theorem polls_rest {version until_ : Int} (polls : List (Answers H × Option Name))
    (failed : a.failedVersion = version) (rests : a.failedUntil = until_)
    (other : a.store.cache.appliedConfig.map CachedConfig.versionID ≠ some version)
    (early : ∀ poll ∈ polls, poll.1.now < until_) :
    a.Resting (a.run gateway (polls.map fun poll => .poll poll.1 version poll.2)) version until_ := by
  induction polls generalizing a with
  | nil => exact ⟨rfl, rfl, rfl, failed, rests⟩
  | cons poll rest ih =>
    obtain ⟨first, later⟩ := List.forall_mem_cons.mp early
    have step : a.Resting (a.after gateway (.poll poll.1 version poll.2)) version until_ := by
      have same : (a.store.after (.setDesired version poll.1.desiredFails)).cache = a.store.cache := by
        cases poll.1.desiredFails <;> rfl
      have waits : a.failedVersion = version ∧ poll.1.now < a.failedUntil := ⟨failed, by rw [rests]; exact first⟩
      unfold Agent.after Agent.pull
      dsimp only
      rw [same, if_neg other, if_pos waits]
      split <;> exact ⟨rfl, same, rfl, failed, rests⟩
    have onward := ih step.failed step.rests (by rw [step.cache]; exact other) later
    exact ⟨onward.gw.trans step.gw, onward.cache.trans step.cache, onward.running.trans step.running, onward.failed,
      onward.rests⟩

/-- A version that failed to apply is left alone for five minutes: however often the console is asked, and
    as long as it goes on wanting that version, the gateway and the cache stay as the failure left them. -/
theorem failed_version_rests (gateway : Applier σ H) (a : Agent σ) (x : Answers H) (c : CachedConfig)
    (failed : (a.applyCached gateway x c).2 = false)
    (other : (a.applyCached gateway x c).1.store.cache.appliedConfig.map CachedConfig.versionID ≠ some c.versionID)
    (polls : List (Answers H × Option Name)) (early : ∀ poll ∈ polls, poll.1.now < x.endedAt + applyRetryBackoff) :
    (a.applyCached gateway x c).1.Resting
      ((a.applyCached gateway x c).1.run gateway (polls.map fun poll => .poll poll.1 c.versionID poll.2))
      c.versionID (x.endedAt + applyRetryBackoff) := by
  have rests : (a.applyCached gateway x c).1.failedVersion = c.versionID ∧
      (a.applyCached gateway x c).1.failedUntil = x.endedAt + applyRetryBackoff := by
    unfold Agent.applyCached at failed ⊢
    split at failed
    · exact ⟨rfl, rfl⟩
    · cases failed
  exact polls_rest polls rests.1 rests.2 other early

end Backoff

section Sample

def oneByte : Applier Unit Unit where
  apply _ bundle gw := (gw, if bundle.length = 1 then .ok [] else .error "not a bundle".toList)

def goodBundle : CachedConfig := { versionID := 7, version := 1, bundle := [1] }

def badBundle : CachedConfig := { versionID := 8, version := 2, bundle := [] }

def deploys : List (Job Unit Unit) :=
  [.poll { host := (), config := some goodBundle } 7 none,
    .poll { host := (), now := 10, endedAt := 11, config := some badBundle } 8 none, .reload { host := () }]

theorem reported_is_running_sample :
    ((({ gw := () } : Agent Unit).run oneByte deploys).report { host := () }).appliedVersionID = some 7 ∧
    ((({ gw := () } : Agent Unit).run oneByte deploys).report { host := (), appliedUnread := true }).appliedVersionID = none ∧
    ∃ c, (({ gw := () } : Agent Unit).run oneByte deploys).store.cache.appliedConfig = some c ∧ c.versionID = 7 ∧
      (({ gw := () } : Agent Unit).run oneByte deploys).store.saved.get 7 = some c.bundle := by
  obtain ⟨reported, row⟩ := reported_is_running oneByte () deploys
    (show (({ gw := () } : Agent Unit).run oneByte deploys).running = some 7 by decide) (by decide)
  exact ⟨reported { host := () }, reported { host := (), appliedUnread := true }, row⟩

def pulledBad : Agent Unit := { gw := (), store := ({} : ConfigStore).after (.save badBundle 10 none) }

def secondPoll : List (Answers Unit × Option Name) := [({ host := (), now := 100 }, none), ({ host := (), now := 299 }, none)]

theorem failed_version_rests_sample : (pulledBad.applyCached oneByte { host := () } badBundle).1.Resting
    ((pulledBad.applyCached oneByte { host := () } badBundle).1.run oneByte
      (secondPoll.map fun poll => .poll poll.1 8 poll.2)) 8 300 :=
  failed_version_rests oneByte pulledBad { host := () } badBundle (by decide) (by decide) secondPoll (by decide)

end Sample

end Mailgw.Serving
