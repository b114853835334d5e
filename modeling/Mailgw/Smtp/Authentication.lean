import Mailgw.Calls.Runs
import Mailgw.Calls.Stages
import Mailgw.Ratelimit.Limiter
import Mailgw.Smtp.State

namespace Mailgw.Smtp

open Calls Queue Rules Ratelimit

/-- What judging a credential asks of its surroundings: the budget of a client, the credentials, one
    of the slots for comparisons (there is none during a shutdown), a comparison, and the charge. -/
inductive AuthCall where
  | blocked (key : Name)
  | lookup (username : Name)
  | enter
  | compare (hash password : Name)
  | spend (key : Name)
  deriving DecidableEq

abbrev AuthCall.Answer : AuthCall → Type
  | .blocked _ | .enter | .compare _ _ => Bool
  | .lookup _ => Option Name
  | .spend _ => Unit

abbrev AuthJob := Prog AuthCall AuthCall.Answer

abbrev Judging := Σ call : AuthCall, call.Answer

/-- What a comparison for an unknown name is made with. -/
def dummyHash : Name := "$2a$10$N9qo8uLOickgx2ZMRZoMyeIjZAgcfl7p92ldGxad68LJZdL17lhWy".toList

def errBadCredentials : Reply := ⟨535, (5, 7, 8), "Authentication credentials invalid".toList⟩

def tooManyFailures : Reply := ⟨454, (4, 7, 0), "Too many authentication failures, try again later".toList⟩

def shuttingDown : Reply := ⟨454, (4, 7, 0), "Server shutting down, try again".toList⟩

def authRateKey (text : Addr → Name) (remote : Addr) : Name := if remote = .invalid then [] else text remote.unmap

def allowAuthAttempt (key : Name) : AuthJob (Option Reply) :=
  if key = [] then return none
  else do
    let blocked ← Prog.ask (AuthCall.blocked key)
    return if blocked then some tooManyFailures else none

def recordAuthFailure (key : Name) : AuthJob Unit := if key = [] then return () else Prog.ask (AuthCall.spend key)

def verify (key username password : Name) : AuthJob (Option Reply) := do
  match ← allowAuthAttempt key with
  | some reply => return some reply
  | none =>
    let known : Option Name ← Prog.ask (AuthCall.lookup username)
    let entered ← Prog.ask AuthCall.enter
    if !entered then return some shuttingDown
    else
      let right ← Prog.ask (AuthCall.compare (known.getD dummyHash) password)
      if known.isNone || !right then
        recordAuthFailure key
        return some errBadCredentials
      else return none

inductive AuthStage where
  | asking
  | admitted
  | found (known : Bool)
  | failed
  | settled
  deriving DecidableEq

namespace AuthStage

def pending : AuthStage → Bool
  | .admitted | .found _ | .failed => true
  | _ => false

def after : Judging → AuthStage → AuthStage
  | ⟨.blocked _, blocked⟩, _ => if blocked = true then .settled else .admitted
  | ⟨.lookup _, hash⟩, _ => .found (hash : Option Name).isSome
  | ⟨.enter, entered⟩, stage => if entered = true then stage else .settled
  | ⟨.compare _ _, right⟩, stage => if stage = .found true ∧ right = true then .settled else .failed
  | ⟨.spend _, _⟩, _ => .settled

end AuthStage

structure Attempt where
  key : Name
  stage : AuthStage
  job : AuthJob (Option Reply)

/-- The attempts of all connections. `failures` only records: for every verification that failed the
    client and the time, the latest one last. -/
structure AuthDesk where
  limiter : Limiter
  clock : Int := 0
  attempts : List Attempt := []
  failures : List (Name × Int) := []

inductive AuthMove where
  | attempt (remote : Addr) (username password : Name)
  | work (i : Nat) (event : Judging) (lag : Nat)
  | finish (i : Nat)
  | limit (request : Ratelimit.Request) (key : Key) (lag : Nat)
  | wait (time : Nat)

namespace AuthDesk

def serve (d : AuthDesk) (lag : Nat) : Judging → Option Limiter
  | ⟨.blocked key, blocked⟩ =>
    let (limiter, allowed) := d.limiter.take ⟨.authFailPerIP, key⟩ false d.clock (d.clock + lag)
    if blocked = !allowed then some limiter else none
  | ⟨.spend key, _⟩ => some (d.limiter.take ⟨.authFailPerIP, key⟩ true d.clock (d.clock + lag)).1
  | _ => some d.limiter

def fails (a : Attempt) (event : Judging) : Bool :=
  match event.1 with
  | .compare _ _ => a.stage.after event = .failed
  | _ => false

def next (text : Addr → Name) (d : AuthDesk) : AuthMove → Option AuthDesk
  | .attempt remote username password =>
    let key := authRateKey text remote
    let attempt := { key, stage := if key = [] then .admitted else .asking, job := verify key username password }
    some { d with attempts := attempt :: d.attempts }
  | .work i event lag => do
    let a ← d.attempts[i]?
    let left ← a.job.step event
    let limiter ← d.serve lag event
    some { d with
      limiter, clock := d.clock + lag
      attempts := d.attempts.set i { a with stage := a.stage.after event, job := left }
      failures := if fails a event then d.failures ++ [(a.key, d.clock)] else d.failures }
  | .finish i => do
    let a ← d.attempts[i]?
    match a.job with
    | .done _ => some { d with attempts := d.attempts.eraseIdx i }
    | _ => none
  | .limit request key lag =>
    if key.dim = .authFailPerIP then none
    else some { d with
      limiter := (d.limiter.serve ⟨request, key, d.clock, d.clock + lag⟩).1, clock := d.clock + lag }
  | .wait time => some { d with clock := d.clock + time }

def failed (d : AuthDesk) (key : Name) (first last : Int) : Nat :=
  d.failures.countP fun failure => failure.1 = key ∧ first ≤ failure.2 ∧ failure.2 ≤ last

end AuthDesk

end Mailgw.Smtp
