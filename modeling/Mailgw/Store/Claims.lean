import Mailgw.Calls.Runs
import Mailgw.Calls.Stages
import Mailgw.Lists.Table
import Mailgw.Queue.Names
import Mailgw.Text.Letters

namespace Mailgw.Store

open Calls Lists Queue

def claimDigit (n : Nat) (c : Char) : Option (List Char) :=
  let c := if c = 'I' ∨ c = 'L' then '1' else if c = 'O' then '0' else c
  if (c < '0' ∨ '9' < c) ∧ (c < 'A' ∨ 'Z' < c) then none
  else some (if 0 < n ∧ n % 5 = 0 then ['-', c] else [c])

def claimDigits (n : Nat) : List Char → Name
  | [] => []
  | c :: rest =>
    match claimDigit n c with
    | none => claimDigits n rest
    | some digit => digit ++ claimDigits (n + 1) rest

def normalizeClaimCode (presented : Name) : Name := claimDigits 0 (Text.upper (Text.trimSpace presented))

def sessionTTL : Int := 12 * 60 * 60

/-- A row of `admin_sessions`, under its id. `epoch` only records how often the code had been reset
    when the code that was presented for the session was found right. -/
structure AdminSession where
  csrf : Name
  createdAt : Int
  expiresAt : Int
  epoch : Nat
  deriving DecidableEq

/-- The statements of a login, the clock, and the random tokens. Any of them but the clock may fail. -/
inductive LoginCall where
  | readCode
  | readClaimed
  | writeClaimed
  | now
  | token
  | sweep (now : Int)
  | insert (id csrf : Name) (now expiresAt : Int)
  deriving DecidableEq

abbrev LoginCall.Answer : LoginCall → Type
  | .readCode | .token => Option Name
  | .readClaimed => Option (Option Int)
  | .writeClaimed | .sweep _ | .insert _ _ _ _ => Bool
  | .now => Int

abbrev LoginJob := Prog LoginCall LoginCall.Answer

abbrev Signing := Σ call : LoginCall, call.Answer

/-- Compares a code against the stored one, and records the first success. There is no answer when a
    statement fails. -/
def checkClaimCode (presented : Name) : LoginJob (Option Bool) := do
  match ← Prog.ask LoginCall.readCode with
  | none => return none
  | some stored =>
    if stored = [] then return some false
    else if normalizeClaimCode presented ≠ stored then return some false
    else
      match ← Prog.ask LoginCall.readClaimed with
      | none => return none
      | some (some _) => return some true
      | some none =>
        let written : Bool ← Prog.ask LoginCall.writeClaimed
        return if written then some true else none

def newSession : LoginJob (Option Name) := do
  let now : Int ← Prog.ask LoginCall.now
  match ← Prog.ask LoginCall.token with
  | none => return none
  | some id =>
    match ← Prog.ask LoginCall.token with
    | none => return none
    | some csrf =>
      let swept : Bool ← Prog.ask (LoginCall.sweep now)
      if !swept then return none
      else
        let inserted : Bool ← Prog.ask (LoginCall.insert id csrf now (now + sessionTTL))
        return if inserted then some id else none

inductive ClaimReply where
  | internalError
  | unauthorized
  | seeOther (session : Name)
  deriving DecidableEq

def handleClaim (presented : Name) : LoginJob ClaimReply := do
  match ← checkClaimCode presented with
  | none => return .internalError
  | some false => return .unauthorized
  | some true =>
    match ← newSession with
    | none => return .internalError
    | some id => return .seeOther id

inductive LoginStage where
  | reading
  | matched
  | settled
  deriving DecidableEq

def LoginStage.after (presented : Name) : Signing → LoginStage → LoginStage
  | ⟨.readCode, stored⟩, _ => if stored = some (normalizeClaimCode presented) ∧ stored ≠ some [] then .matched else .settled
  | ⟨.insert _ _ _ _, _⟩, _ => .settled
  | _, stage => stage

structure Login where
  presented : Name
  stage : LoginStage := .reading
  epoch : Nat := 0
  job : LoginJob ClaimReply

/-- The database of the admin UI and the logins under way. The database has one connection, so a
    statement or a transaction is made at once. `epoch` only counts how often the code was reset. -/
structure AdminDesk where
  code : Name := []
  claimedAt : Option Int := none
  sessions : Table Name AdminSession := .empty
  clock : Int := 0
  logins : List Login := []
  epoch : Nat := 0

inductive AdminMove where
  | login (presented : Name)
  | work (i : Nat) (event : Signing)
  | leave (i : Nat)
  | logout (id : Name)
  | lookup (id : Name)
  | ensure (code : Name)
  | reset (code : Name)
  | tick (clock : Int)

namespace AdminDesk

def session (d : AdminDesk) (id : Name) : Option AdminSession :=
  if id = [] then none else (d.sessions.get id).filter fun s => decide (d.clock < s.expiresAt)

def serve (d : AdminDesk) (epoch : Nat) : Signing → Option AdminDesk
  | ⟨.readCode, stored⟩ => if stored = none ∨ stored = some d.code then some d else none
  | ⟨.readClaimed, claimed⟩ => if claimed = none ∨ claimed = some d.claimedAt then some d else none
  | ⟨.writeClaimed, written⟩ => if written = true then some { d with claimedAt := some d.clock } else some d
  | ⟨.now, now⟩ => if now = d.clock then some d else none
  | ⟨.token, _⟩ => some d
  | ⟨.sweep now, swept⟩ =>
    if swept = true then some { d with sessions := d.sessions.keep fun _ s => decide (now < s.expiresAt) } else some d
  | ⟨.insert id csrf now expiresAt, inserted⟩ =>
    if inserted = true then
      if (d.sessions.get id).isNone then some { d with sessions := d.sessions.set id ⟨csrf, now, expiresAt, epoch⟩ } else none
    else some d

def next (d : AdminDesk) : AdminMove → Option AdminDesk
  | .login presented => some { d with logins := ⟨presented, .reading, 0, handleClaim presented⟩ :: d.logins }
  | .work i event => do
    let l ← d.logins[i]?
    let left ← l.job.step event
    let d ← d.serve l.epoch event
    let epoch := if event.1 = .readCode then d.epoch else l.epoch
    some { d with logins := d.logins.set i { l with stage := l.stage.after l.presented event, epoch, job := left } }
  | .leave i => some { d with logins := d.logins.eraseIdx i }
  | .logout id => some (if id = [] then d else { d with sessions := d.sessions.del id })
  | .lookup _ => some d
  | .ensure code => some (if d.code = [] then { d with code } else d)
  | .reset code => some { d with code, claimedAt := none, sessions := .empty, epoch := d.epoch + 1 }
  | .tick clock => some { d with clock }

end AdminDesk

end Mailgw.Store
