import Mailgw.Calls.Runs
import Mailgw.Calls.Stages
import Mailgw.Lists.Replace

namespace Mailgw.Smtp

open Calls

/-- A connection and what is wrapped around it: a meter, or a layer that says what is beneath it. -/
inductive NetConn where
  | socket
  | slotConn (inner : NetConn)
  | layer (inner : NetConn)
  deriving DecidableEq

/-- Whether a meter is found underneath, within so many hops. -/
def slotOf : Nat → NetConn → Bool
  | 0, _ => false
  | _ + 1, .slotConn _ => true
  | hops + 1, .layer inner => slotOf hops inner
  | _ + 1, .socket => false

/-- What closing a connection asks for: the close beneath, the once, the release under its mutex, and
    a receive from the semaphore. -/
inductive CloseCall where
  | inner
  | enter
  | readRelease
  | receive
  | leave
  deriving DecidableEq

abbrev CloseCall.Answer : CloseCall → Type
  | .inner | .enter | .readRelease => Bool
  | .receive | .leave => Unit

abbrev CloseJob := Prog CloseCall CloseCall.Answer

abbrev Closing := Σ call : CloseCall, call.Answer

/-- Closes a metered connection. The slot goes back once, if there is one. Returned is whether the
    close beneath went well. -/
def slotClose : CloseJob Bool := do
  let err : Bool ← Prog.ask CloseCall.inner
  let first : Bool ← Prog.ask CloseCall.enter
  if first then
    let armed : Bool ← Prog.ask CloseCall.readRelease
    if armed then Prog.ask CloseCall.receive
    Prog.ask CloseCall.leave
  return err

def limitClose : CloseJob Bool := do
  let err : Bool ← Prog.ask CloseCall.inner
  let first : Bool ← Prog.ask CloseCall.enter
  if first then
    Prog.ask CloseCall.receive
    Prog.ask CloseCall.leave
  return err

def plainClose : CloseJob Bool := Prog.ask CloseCall.inner

inductive Wrapper where
  | slot | limit | plain
  deriving DecidableEq

def Wrapper.close : Wrapper → CloseJob Bool
  | .slot => slotClose
  | .limit => limitClose
  | .plain => plainClose

inductive CloseStage where
  | before
  | inside
  | releasing
  | spent
  | after
  deriving DecidableEq

def CloseStage.next (wrapper : Wrapper) : Closing → CloseStage → CloseStage
  | ⟨.inner, _⟩, stage => if wrapper = .plain then .after else stage
  | ⟨.enter, first⟩, _ => if first = true then (if wrapper = .limit then .releasing else .inside) else .after
  | ⟨.readRelease, armed⟩, _ => if armed = true then .releasing else .spent
  | ⟨.receive, _⟩, _ => .spent
  | ⟨.leave, _⟩, _ => .after

/-- How a connection fares: it waits for the cap, has taken a slot, was handed on, or was refused on the
    way or by the cap. -/
inductive ConnPhase where
  | offered | holding | admitted | refused
  deriving DecidableEq

inductive Once where
  | fresh
  | running (closer : Nat)
  | done
  deriving DecidableEq

/-- `released` only counts how often its slot was given back. -/
structure Connection where
  conn : NetConn
  phase : ConnPhase := .offered
  once : Once := .fresh
  released : Nat := 0
  deriving DecidableEq

namespace Connection

def wrapper (c : Connection) : Wrapper :=
  if slotOf 4 c.conn then .slot else if c.phase = .admitted then .limit else .plain

def occupies (c : Connection) : Bool := c.phase = .holding || (c.phase = .admitted && c.released = 0)

end Connection

structure Closer where
  conn : Nat
  wrapper : Wrapper
  stage : CloseStage := .before
  job : CloseJob Bool

/-- All listeners that share a semaphore. `taken` is what is in its channel. -/
structure CapDesk where
  taken : Nat := 0
  conns : List Connection := []
  closers : List Closer := []

inductive CapMove where
  | accept (conn : NetConn)
  | turnAway (i : Nat)
  | take (i : Nat)
  | handOn (i : Nat)
  | close (i : Nat)
  | work (k : Nat) (event : Closing)

namespace CapDesk

def setConn (d : CapDesk) (i : Nat) (c : Connection) : CapDesk := { d with conns := d.conns.set i c }

/-- The connections and the semaphore after a step of a close, if it can be answered so. Whoever comes
    to a once that is running waits. -/
def serve (d : CapDesk) (k : Nat) (i : Nat) (c : Connection) : Closing → Option CapDesk
  | ⟨.inner, _⟩ => some d
  | ⟨.enter, first⟩ =>
    match c.once with
    | .fresh => if first = true then some (d.setConn i { c with once := .running k }) else none
    | .running _ => none
    | .done => if first = true then none else some d
  | ⟨.readRelease, armed⟩ => if armed = decide (c.phase = .admitted) then some d else none
  | ⟨.receive, _⟩ =>
    if 0 < d.taken then some { d.setConn i { c with released := c.released + 1 } with taken := d.taken - 1 } else some d
  | ⟨.leave, _⟩ => some (d.setConn i { c with once := .done })

def next (cap : Nat) (d : CapDesk) : CapMove → Option CapDesk
  | .accept conn => some { d with conns := d.conns ++ [{ conn }] }
  | .turnAway i => do
    let c ← d.conns[i]?
    if c.phase = .offered then some (d.setConn i { c with phase := .refused }) else none
  | .take i => do
    let c ← d.conns[i]?
    if c.phase = .offered ∧ d.taken < cap then some { d.setConn i { c with phase := .holding } with taken := d.taken + 1 }
    else none
  | .handOn i => do
    let c ← d.conns[i]?
    if c.phase = .holding then some (d.setConn i { c with phase := .admitted }) else none
  | .close i => do
    let c ← d.conns[i]?
    if c.phase = .admitted ∨ c.phase = .refused then
      some { d with closers := d.closers ++ [{ conn := i, wrapper := c.wrapper, job := c.wrapper.close }] }
    else none
  | .work k event => do
    let x ← d.closers[k]?
    let left ← x.job.step event
    let c ← d.conns[x.conn]?
    let d ← d.serve k x.conn c event
    some { d with closers := d.closers.set k { x with stage := x.stage.next x.wrapper event, job := left } }

end CapDesk

end Mailgw.Smtp
