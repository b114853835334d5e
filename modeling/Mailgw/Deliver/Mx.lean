import Mailgw.Calls.Stages
import Mailgw.Queue.Envelope
import Mailgw.Relays.Group
import Mailgw.Text.Letters

namespace Mailgw.Deliver

open Calls Lists Queue

structure Host where
  name : Chars
  pref : Nat
  deriving Repr, DecidableEq

structure MX where
  host : Chars
  pref : UInt16
  deriving Repr, DecidableEq

/-- What a lookup reports. `notFound` when the error of the DNS that it wraps says so. -/
structure LookupError where
  text : Chars
  notFound : Bool := false
  deriving Repr, DecidableEq

structure LookupAnswer where
  records : List MX := []
  err : Option LookupError := none
  deriving Repr, DecidableEq

/-- A domain without MX records reports an error, which is no failure. -/
def LookupAnswer.found (answer : LookupAnswer) : Except Chars (List MX) :=
  match answer.err with
  | none => .ok answer.records
  | some err => if err.notFound then .ok [] else .error err.text

def defaultTTL : Int := 5 * 60 * 1000000000
def negativeTTL : Int := 30 * 1000000000
def maxCacheEntries : Nat := 1024

/-- The resolver that all deliveries share, or the zero value that is made for one call. -/
inductive Resolver where
  | shared (ttl : Int)
  | zero
  deriving Repr, DecidableEq

def Resolver.ttl : Resolver → Int
  | .shared ttl => if 0 < ttl then ttl else defaultTTL
  | .zero => defaultTTL

structure CachedMX where
  hosts : List Host
  err : Option Chars
  storedAt : Int
  ttl : Int
  deriving Repr, DecidableEq

abbrev MxCache := Table Chars CachedMX

/-- A stored answer or a stored failure that has not outlived its own time. -/
def MxCache.cached (cache : MxCache) (now : Int) (domain : Chars) : Option (Except Chars (List Host)) :=
  match cache.get domain with
  | none => none
  | some c =>
    if c.ttl < now - c.storedAt then none
    else
      match c.err with
      | some err => some (.error err)
      | none => some (.ok c.hosts)

/-- Stores an answer. A cache that is full is swept, and one that still is starts again. The clock is
    read a second time for the sweep. -/
def MxCache.store (cache : MxCache) (now later : Int) (domain : Chars) (hosts : List Host) (err : Option Chars)
    (ttl : Int) : MxCache :=
  let cache := cache.set domain { hosts, err, storedAt := now, ttl }
  if cache.size ≤ maxCacheEntries then cache
  else
    let swept := cache.keep fun d c => ¬ (d ≠ domain ∧ c.ttl < later - c.storedAt)
    if swept.size ≤ maxCacheEntries then swept else swept.keep fun d _ => d = domain

/-- What a resolver asks for outside itself: random numbers, its cache under the lock, and the DNS. -/
inductive MxCall where
  | shuffle (n : Nat)
  | cached (r : Resolver) (domain : Chars)
  | lookup (domain : Chars)
  | store (r : Resolver) (domain : Chars) (hosts : List Host) (err : Option Chars) (ttl : Int)
  deriving DecidableEq

abbrev MxCall.Answer : MxCall → Type
  | .shuffle n => Equiv.Perm (Fin n)
  | .cached _ _ => Option (Except Chars (List Host))
  | .lookup _ => LookupAnswer
  | .store _ _ _ _ _ => Int

abbrev MxJob := Prog MxCall MxCall.Answer

abbrev MxEvent := Σ call : MxCall, call.Answer

def shuffle (n : Nat) : MxJob (Equiv.Perm (Fin n)) := Prog.ask (MxCall.shuffle n)

def sortHosts (hosts : List Host) : MxJob (List Host) := shuffleBands shuffle Host.pref (ranked Host.pref hosts)

def cached (r : Resolver) (domain : Chars) : MxJob (Option (Except Chars (List Host))) := do
  match ← Prog.ask (MxCall.cached r domain) with
  | none => return none
  | some (.error err) => return some (.error err)
  | some (.ok hosts) =>
    let hosts ← sortHosts hosts
    return some (.ok hosts)

def store (r : Resolver) (domain : Chars) (hosts : List Host) (err : Option Chars) (ttl : Int) : MxJob Unit := do
  let _ ← Prog.ask (MxCall.store r domain hosts err ttl)
  return ()

def MX.name (m : MX) : Chars := trimSuffix ['.'] m.host

def MX.target (m : MX) : Host := { name := m.name, pref := m.pref.toNat }

def hostOf (m : MX) : Option Host := if m.name = [] then none else some m.target

section Resolving
variable [Text.LowerCase]

def mxDomain (domain : Chars) : Chars := Text.toLower (trimSuffix ['.'] (Text.trimSpace domain))

def hosts (r : Resolver) (domain : Chars) : MxJob (Except Chars (List Host)) := do
  let domain := mxDomain domain
  if domain = [] then return .error "mx: empty domain".toList
  else
    match ← cached r domain with
    | some answer => return answer
    | none =>
      let answer : LookupAnswer ← Prog.ask (MxCall.lookup domain)
      match answer.found with
      | .error err =>
        let failure := "mx ".toList ++ domain ++ ": ".toList ++ err
        store r domain [] (some failure) negativeTTL
        return .error failure
      | .ok records =>
        match records.mapM hostOf with
        | none =>
          let nullMX := "mx ".toList ++ domain ++ ": null MX; the domain accepts no mail".toList
          store r domain [] (some nullMX) r.ttl
          return .error nullMX
        | some hosts =>
          let hosts ← sortHosts (if hosts = [] then [{ name := domain, pref := 0 }] else hosts)
          store r domain hosts none r.ttl
          return .ok hosts

end Resolving

def viaHost (relay : Relays.Relay) (host : Chars) : Relays.Relay :=
  { relay with exchange := host, name := relay.name ++ '/' :: host }

def expand [Text.LowerCase] (r : Option Resolver) (relay : Relays.Relay) :
    MxJob (Except Chars (List Relays.Relay)) :=
  if relay.useMX = false then return .ok [relay]
  else do
    match ← hosts (r.getD .zero) relay.exchange with
    | .error err => return .error err
    | .ok hosts => return .ok (hosts.map fun h => viaHost relay h.name)

abbrev Asking := Chars × LookupAnswer

/-- The shared resolver and its clock. `asked` are the answers the DNS has given, and `origin` the one that
    an entry of the cache was stored for. The code keeps neither. -/
structure Dns where
  cache : MxCache := .empty
  clock : Int := 0
  asked : List Asking := []
  origin : Table Chars Asking := .empty

structure DnsView where
  dns : Dns
  given : List Asking

/-- An entry goes into the cache. It is stored for the answer that was given last. -/
def Dns.put (d : Dns) (given : List Asking) (later : Int) (domain : Chars) (hosts : List Host) (err : Option Chars)
    (ttl : Int) : Dns where
  cache := d.cache.store d.clock later domain hosts err ttl
  clock := later
  asked := d.asked
  origin := given.getLast?.elim d.origin (d.origin.set domain)

/-- The resolver after a call, if it can be answered so. Anything may come of a lookup. A zero resolver has
    nothing in its cache, and nobody sees what it stores. -/
def DnsView.serve (v : DnsView) : MxEvent → Option DnsView
  | ⟨.shuffle _, _⟩ => some v
  | ⟨.cached (.shared _) domain, hit⟩ =>
    if hit = v.dns.cache.cached v.dns.clock domain then
      some (if hit = none then v else { v with given := v.given ++ (v.dns.origin.get domain).toList })
    else none
  | ⟨.cached .zero _, hit⟩ => if hit = none then some v else none
  | ⟨.lookup domain, answer⟩ =>
    some { dns := { v.dns with asked := (domain, answer) :: v.dns.asked }, given := v.given ++ [(domain, answer)] }
  | ⟨.store r domain hosts err ttl, later⟩ =>
    if later < v.dns.clock then none
    else
      match r with
      | .shared _ => some { v with dns := v.dns.put v.given later domain hosts err ttl }
      | .zero => some { v with dns := { v.dns with clock := later } }

end Mailgw.Deliver
