import Mathlib.Data.Prod.Lex
import Mailgw.Lists.Latest
import Mailgw.Lists.Table
import Mailgw.Queue.Names

namespace Mailgw.Store

open Lists Queue

/-- How many cached bundles are kept beyond those that were applied. -/
def keepConfigs : Nat := 10

/-- One configuration version as it was pulled. Times are in seconds, and a missing one is zero. -/
structure CachedConfig where
  versionID : Int
  version : Int := 0
  sha256 : Name := []
  bundle : List UInt8
  fetchedAt : Option Int := none
  appliedAt : Option Int := none
  applyError : Name := []
  deriving DecidableEq

structure Row where
  version : Int
  sha256 : Name
  bundle : List UInt8
  fetchedAt : Int
  appliedAt : Option Int
  appliedSeq : Int := 0
  applyError : Name
  deriving DecidableEq

abbrev ConfigCache := Table Int Row

inductive SaveFault where
  | cache | prune
  deriving DecidableEq

namespace ConfigCache

def insert (cache : ConfigCache) (c : CachedConfig) (now : Int) : ConfigCache :=
  let fetchedAt := c.fetchedAt.getD now
  cache.set c.versionID <| match cache.get c.versionID with
    | none => ⟨c.version, c.sha256, c.bundle, fetchedAt, c.appliedAt, 0, c.applyError⟩
    | some row => { row with
        version := c.version, sha256 := c.sha256, bundle := c.bundle, fetchedAt, applyError := c.applyError }

def fetchOrder (entry : Int × Row) : Int ×ₗ Int := toLex (entry.2.fetchedAt, entry.1)

def appliedOrder (entry : Int × Row) : Int ×ₗ Int ×ₗ Int :=
  toLex (entry.2.appliedSeq, toLex (entry.2.appliedAt.getD 0, entry.1))

/-- Keeps what was applied, and what was fetched last. -/
def pruneConfigs (cache : ConfigCache) : ConfigCache :=
  let recent := ((latest fetchOrder cache.entries).take keepConfigs).map Prod.fst
  cache.keep fun id row => row.appliedAt.isSome || decide (id ∈ recent)

def saveConfig (cache : ConfigCache) (c : CachedConfig) (now : Int) : Option SaveFault → ConfigCache × Except SaveFault Unit
  | some .cache => (cache, .error .cache)
  | some .prune => (cache.insert c now, .error .prune)
  | none => ((cache.insert c now).pruneConfigs, .ok ())

def oneConfig (entry : Int × Row) : CachedConfig where
  versionID := entry.1
  version := entry.2.version
  sha256 := entry.2.sha256
  bundle := entry.2.bundle
  fetchedAt := some entry.2.fetchedAt
  appliedAt := entry.2.appliedAt
  applyError := entry.2.applyError

def applied (cache : ConfigCache) : List (Int × Row) := cache.entries.filter fun entry => entry.2.appliedAt.isSome

def appliedConfig (cache : ConfigCache) : Option CachedConfig := (latest appliedOrder cache.applied).head?.map oneConfig

def configByVersionID (cache : ConfigCache) (versionID : Int) : Option CachedConfig :=
  (cache.get versionID).map fun row => oneConfig (versionID, row)

def maxSeq (cache : ConfigCache) : Int := (cache.entries.map fun entry => entry.2.appliedSeq).max?.getD 0

def markApplied (cache : ConfigCache) (versionID time : Int) : ConfigCache :=
  match cache.get versionID with
  | none => cache
  | some row => cache.set versionID { row with
      appliedAt := some time, appliedSeq := cache.maxSeq + 1, applyError := [] }

def markApplyError (cache : ConfigCache) (versionID : Int) (message : Name) : ConfigCache :=
  match cache.get versionID with
  | none => cache
  | some row => cache.set versionID { row with applyError := message }

end ConfigCache

def bootConfig {ε : Type} (applied : Except ε (Option CachedConfig)) (desired : Except ε Int)
    (wanted : Int → Except ε (Option CachedConfig)) : Option CachedConfig :=
  match applied with
  | .error _ => none
  | .ok applied =>
    match desired with
    | .error _ => applied
    | .ok desired =>
      if desired = 0 then applied
      else
        match wanted desired with
        | .ok (some wanted) => some wanted
        | _ => applied

/-- What the database holds for a gateway. `saved` and `marked` only record: the bytes last stored for
    every version, and the version that was marked last as applied while it was cached. -/
structure ConfigStore where
  cache : ConfigCache := .empty
  desired : Int := 0
  saved : Table Int (List UInt8) := .empty
  marked : Option Int := none

inductive ConfigMove where
  | save (c : CachedConfig) (now : Int) (fault : Option SaveFault)
  | markApplied (versionID time : Int) (fails : Bool)
  | markApplyError (versionID : Int) (message : Name) (fails : Bool)
  | setDesired (id : Int) (fails : Bool)
  | reboot

namespace ConfigStore

def after (s : ConfigStore) : ConfigMove → ConfigStore
  | .save c now fault => { s with
      cache := (s.cache.saveConfig c now fault).1
      saved := if fault = some .cache then s.saved else s.saved.set c.versionID c.bundle }
  | .markApplied versionID time fails =>
    if fails then s
    else { s with
      cache := s.cache.markApplied versionID time
      marked := if (s.cache.get versionID).isSome then some versionID else s.marked }
  | .markApplyError versionID message fails =>
    if fails then s else { s with cache := s.cache.markApplyError versionID message }
  | .setDesired id fails => if fails then s else { s with desired := id }
  | .reboot => s

def boot (s : ConfigStore) : Option CachedConfig :=
  bootConfig (ε := Empty) (.ok s.cache.appliedConfig) (.ok s.desired) fun id => .ok (s.cache.configByVersionID id)

end ConfigStore

end Mailgw.Store
