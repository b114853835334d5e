import Mailgw.Calls.Custody
import Mailgw.Calls.Runs
import Mailgw.Deliver.Idle

namespace Mailgw.Deliver

open Calls

/-- What the gateway does with its relay connections: deliveries with the options the queue runner
    builds, ticks of the sweeper, and the shutdown. -/
inductive Op where
  | deliver (relay : Relay) (msg : Message) (localName : Chars) (reuse : Bool)
  | reap
  | close
  deriving Repr, DecidableEq

namespace Op

def options (pool : Pool) (localName : Chars) (reuse : Bool) : Options :=
  { localName, pool := if reuse then some pool else none }

def prog (pool : Pool) : Op → Client (Option (Option Result))
  | .deliver relay msg localName reuse => Option.map some <$> Deliver.deliver relay msg (options pool localName reuse)
  | .reap => (fun _ => some none) <$> Pool.reap
  | .close => (fun _ => some none) <$> Pool.close

end Op

/-- A connection. `wrapped` is the TLS session it was asked to start and `secured` the one whose
    handshake is complete; `opened` and `storedUnder` only record who dialled it and under which key
    it was last pooled. -/
structure Conn where
  addr : Chars := []
  opened : Option (Relay × Chars) := none
  wrapped : Option TLSConfig := none
  secured : Option TLSConfig := none
  storedUnder : Option Chars := none
  live : Bool := false
  deriving Repr, DecidableEq

structure Sent where
  op : Op
  request : Net
  conn : Conn
  deriving Repr, DecidableEq

/-- The pool, the connections, and what every thread has in hand. `carrier` is the connection of the
    last MAIL of a thread and `log` what was sent; both only record. -/
structure World where
  pool : Pool
  idle : Idle := []
  closed : Bool := false
  dialed : Nat := 0
  conns : Nat → Conn := fun _ => {}
  hands : Nat → List Nat := fun _ => []
  carrier : Nat → Option Conn := fun _ => none
  log : List Sent := []

structure Reply where
  fault : Option Failure := none
  peer : Option Chars := none
  offered : Bool := false
  taken : Nat := 0
  text : Chars := []
  now : Int := 0
  deriving Repr, DecidableEq

def Net.socket? : Net → Option Socket
  | .take _ | .shelve _ _ _ | .expired | .drain | .clock | .dial _ => none
  | .startTLS s _ | .hello s _ | .extension s _ | .auth s _ _ | .mail s _ _ | .rcpt s _ | .data s | .write s _
  | .close s | .closeWithResponse s | .reset s | .quit s | .hangUp s => some s

def ids (conns : List Pooled) : List Nat := conns.map fun conn => conn.socket.id

namespace Pool

def perKey (pool : Pool) : Int := if pool.maxPerRelay ≤ 0 then 2 else pool.maxPerRelay

def isFull (pool : Pool) (idle : Idle) : Bool := 0 < pool.maxTotal ∧ pool.maxTotal ≤ idle.total

def refuses (pool : Pool) (idle : Idle) (key : Chars) : Bool :=
  pool.isFull idle ∨ pool.perKey ≤ (idle.slot key).length

end Pool

namespace World

def amend (w : World) (s : Socket) (change : Conn → Conn) : World :=
  { w with conns := Function.update w.conns s.id (change (w.conns s.id)) }

def putDown (w : World) (t : Nat) (s : Socket) : World :=
  { w with hands := Function.update w.hands t ((w.hands t).erase s.id) }

def pickUp (w : World) (t : Nat) (new : List Nat) : World :=
  { w with hands := Function.update w.hands t (new ++ w.hands t) }

def shut (w : World) (t : Nat) (s : Socket) : World :=
  (w.amend s fun conn => { conn with live := false }).putDown t s

def enroll (w : World) (t : Nat) (conn : Conn) : World :=
  { w with
    dialed := w.dialed + 1
    conns := Function.update w.conns w.dialed conn
    hands := Function.update w.hands t (w.dialed :: w.hands t) }

def store (w : World) (t : Nat) (key : Chars) (conn : Pooled) : World :=
  ({ w with idle := w.idle.push key conn }.amend conn.socket
    fun c => { c with storedUnder := some key }).putDown t conn.socket

end World

def Op.opener : Op → Option (Relay × Chars)
  | .deliver relay _ localName _ => some (relay, localName)
  | _ => none

/-- The effect of a call: the locked sections of the pool are computed, the network answers as it
    likes. The client library closes a connection whose STARTTLS fails, and a QUIT that succeeds
    closes it as well; a greeting that succeeds completes the handshake. -/
def respond (t : Nat) (op : Op) (reply : Reply) (w : World) : (request : Net) → request.Answer × World
  | .take key => match w.idle.take key with
    | none => (none, w)
    | some (conn, idle) => (some conn, { w with idle }.pickUp t [conn.socket.id])
  | .shelve key socket messages =>
    if w.pool.refuses w.idle key then (⟨true, w.pool.isFull w.idle⟩, w)
    else (⟨false, false⟩, w.store t key ⟨socket, messages, reply.now⟩)
  | .expired =>
    if w.pool.idleTimeout ≤ 0 then ([], w)
    else
      let swept := w.idle.expire (reply.now - w.pool.idleTimeout)
      (swept.1, { w with idle := swept.2 }.pickUp t (ids swept.1))
  | .drain => (w.idle.all, { w with idle := [], closed := true }.pickUp t (ids w.idle.all))
  | .clock => (reply.now, w)
  | .dial addr => match reply.fault with
    | some err => (.error err.text, w)
    | none => (.ok ⟨w.dialed, reply.peer⟩, w.enroll t { addr, opened := op.opener, live := true })
  | .startTLS socket config => match reply.fault with
    | some err => (some err.text, w.shut t socket)
    | none => (none, w.amend socket fun conn => { conn with wrapped := some config })
  | .hello socket _ => match reply.fault with
    | some err => (some err.text, w)
    | none => (none, w.amend socket fun conn => { conn with secured := conn.wrapped })
  | .extension _ _ => (reply.offered, w)
  | .auth _ _ _ | .close _ | .reset _ => (reply.fault.map Failure.text, w)
  | .mail socket _ _ => (reply.fault, { w with carrier := Function.update w.carrier t (some (w.conns socket.id)) })
  | .rcpt _ _ | .data _ => (reply.fault, w)
  | .write _ _ => (⟨reply.taken, reply.fault.map Failure.text⟩, w)
  | .closeWithResponse _ => match reply.fault with
    | some err => (.error err, w)
    | none => (.ok reply.text, w)
  | .quit socket => match reply.fault with
    | some err => (some err.text, w)
    | none => (none, w.shut t socket)
  | .hangUp socket => ((), w.shut t socket)

def record (op : Op) (w : World) (request : Net) (answer : request.Answer) : List Sent :=
  match request, answer with
  | .take key, some conn => [⟨op, .take key, w.conns conn.socket.id⟩]
  | request, _ => match request.socket? with
    | some socket => [⟨op, request, w.conns socket.id⟩]
    | none => []

def World.withLog (w : World) (log : List Sent) : World := { w with log }

def exec (t : Nat) (op : Op) (reply : Reply) (w : World) (request : Net) : request.Answer × World :=
  let answered := respond t op reply w request
  (answered.1, answered.2.withLog (record op w request answered.1 ++ answered.2.log))

inductive Thread where
  | idle
  | busy (op : Op) (rest : Client (Option (Option Result)))

structure Report where
  op : Op
  res : Result
  carrier : Option Conn
  deriving DecidableEq

structure Cfg where
  world : World
  threads : Nat → Thread := fun _ => .idle
  reports : List Report := []

inductive Decision where
  | begin (t : Nat) (op : Op)
  | step (t : Nat) (reply : Reply)

namespace Cfg

def start (pool : Pool) : Cfg := { world := { pool } }

def setThread (cfg : Cfg) (t : Nat) (thread : Thread) : Cfg :=
  { cfg with threads := Function.update cfg.threads t thread }

/-- A loop starts its next round, a result is reported. -/
def settle (cfg : Cfg) (t : Nat) (op : Op) : Client (Option (Option Result)) → Cfg
  | .done none => cfg.setThread t (.busy op (op.prog cfg.world.pool))
  | .done (some none) => cfg.setThread t .idle
  | .done (some (some res)) =>
    { cfg.setThread t .idle with reports := ⟨op, res, cfg.world.carrier t⟩ :: cfg.reports }
  | rest => cfg.setThread t (.busy op rest)

def next (cfg : Cfg) : Decision → Option Cfg
  | .begin t op => match cfg.threads t with
    | .idle => some (cfg.setThread t (.busy op (op.prog cfg.world.pool)))
    | _ => none
  | .step t reply => match cfg.threads t with
    | .busy op (.call request rest) =>
      let (answer, world) := exec t op reply cfg.world request
      some ({ cfg with world }.settle t op (rest answer))
    | _ => none

end Cfg

end Mailgw.Deliver
