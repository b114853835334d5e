import Mailgw.Calls.Runs
import Mailgw.Calls.Stages
import Mailgw.Events.Replay

namespace Mailgw.Events

open Calls

/-- One audit event. `json` is its encoded body; `none` when the body cannot be encoded. -/
structure Event where
  kind : Chars
  url : Chars
  json : Option Chars
  deriving Repr, DecidableEq

inductive Counter where
  | queued | sent | dropped | spilled | rejected | retried | spillFail
  deriving Repr, DecidableEq

def Counter.isFinal : Counter → Bool
  | .sent | .dropped | .spilled | .spillFail => true
  | _ => false

/-- What the goroutines of the pipeline do to what they share, and ask of the outside. A counter
    is named with the event it is counted for, a request with the event it is about. -/
inductive ClientCall where
  | loadClosed
  | count (counter : Counter) (env : Event)
  | offer (env : Event)
  | take
  | takeNow
  | once
  | storeClosed
  | storeShutdown
  | closeDone
  | onceDone
  | workerDone
  | wait
  | expired
  | sleep (attempt : Nat)
  | post (env : Event) (body : Chars)
  | makeDir
  | now
  | nextSpill
  | write (name : Chars) (record : SpillRecord)
  deriving Repr, DecidableEq

abbrev ClientCall.Answer : ClientCall → Type
  | .loadClosed | .offer _ | .once | .makeDir | .write _ _ => Bool
  | .take | .takeNow => Option Event
  | .expired => Option Chars
  | .post _ _ => Except Chars Nat
  | .now | .nextSpill => Nat
  | _ => Unit

abbrev Client := Prog ClientCall ClientCall.Answer

abbrev act (c : ClientCall) : Client c.Answer := Prog.ask c

structure Options where
  retries : Nat := 0
  bufferSize : Nat
  senders : Nat
  spills : Bool
  formatTime : Nat → Chars

inductive Body where
  | send (env : Event)
  | work
  | drainOut
  | close
  | sweep
  deriving Repr, DecidableEq

/-- Sorts by spill time; the sequence number keeps apart what is spilled at one reading. -/
def spillName (time seq : Nat) (kind : Chars) : Chars :=
  Text.padDecimal 19 time ++ '.' :: kind ++ '.' :: Text.padDecimal 4 (seq % 10000) ++ suffixJson

namespace Client

def send (env : Event) : Client Unit := do
  if env.url = [] then return ()
  else
    let closed ← act .loadClosed
    if closed then act (.count .dropped env)
    else
      act (.count .queued env)
      let taken ← act (.offer env)
      if taken then return ()
      else act (.count .dropped env)

def spill (opts : Options) (env : Event) (body reason : Chars) : Client Unit := do
  if !opts.spills then return ()
  else
    let made ← act .makeDir
    if !made then act (.count .spillFail env)
    else
      let time ← act .now
      let seq ← act .nextSpill
      let stamp ← act .now
      let record : SpillRecord := { kind := env.kind, url := env.url, reason, at_ := opts.formatTime time, body }
      let written ← act (.write (spillName stamp seq env.kind) record)
      if !written then act (.count .spillFail env)
      else act (.count .spilled env)

def attempt (opts : Options) (env : Event) (body : Chars) (again : Chars → Client Unit) : Client Unit := do
  match ← act (.post env body) with
  | .ok status =>
    if 200 ≤ status ∧ status < 300 then act (.count .sent env)
    else
      let reason := "http ".toList ++ Nat.toDigits 10 status
      if 400 ≤ status ∧ status < 500 then
        act (.count .rejected env)
        spill opts env body reason
      else again reason
  | .error err => again err

def attemptFrom (opts : Options) (env : Event) (body : Chars) : Nat → Nat → Chars → Client Unit
  | _, 0, lastErr => spill opts env body lastErr
  | made, left + 1, _ => do
    match ← act .expired with
    | some err => spill opts env body ("shutdown: ".toList ++ err)
    | none =>
      if 0 < made then
        act (.count .retried env)
        act (.sleep made)
      attempt opts env body (attemptFrom opts env body (made + 1) left)

def deliver (opts : Options) (env : Event) : Client Unit :=
  match env.json with
  | none => return ()
  | some body => attemptFrom opts env body 0 (opts.retries + 1) "unknown".toList

end Client

/-- What a goroutine does, up to the point where it starts over or ends. -/
def Body.prog (opts : Options) : Body → Client (Option Body)
  | .send env => do
    Client.send env
    return none
  | .work => do
    match ← act .take with
    | some env =>
      Client.deliver opts env
      return some .work
    | none => return some .drainOut
  | .drainOut => do
    match ← act .takeNow with
    | some env =>
      Client.deliver opts env
      return some .drainOut
    | none =>
      act .workerDone
      return none
  | .close => do
    let first ← act .once
    if first then
      act .storeClosed
      act .storeShutdown
      act .closeDone
      act .onceDone
    act .wait
    return some .sweep
  | .sweep => do
    match ← act .takeNow with
    | some env =>
      act (.count .dropped env)
      return some .sweep
    | none => return none

end Mailgw.Events
