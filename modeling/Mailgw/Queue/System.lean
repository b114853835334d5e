import Mailgw.Queue.Inspect

namespace Mailgw.Queue

open Calls

/-- What the sessions, the delivery workers, the operators and the start-up of the gateway ask of
    the spool. `data` is the spooling half of one DATA command: the body, then every envelope the
    transaction was split into, the flagged ones into quarantine. A bounce is spooled the same way. -/
inductive Op where
  | data (txnUUID bytes : Name) (parts : List (Bool × Envelope))
  | enqueue (e : Envelope)
  | quarantine (e : Envelope)
  | claim (name : Name)
  | complete (inflightName : Name) (e : Envelope)
  | reschedule (inflightName : Name) (e : Envelope) (due : Instant)
  | bury (inflightName : Name) (e : Envelope)
  | flush (uuid : Name)
  | hold (uuid : Name)
  | release (uuid : Name)
  | remove (uuid : Name)
  | recover
  deriving DecidableEq

namespace Op

def bodyName (txnUUID : Name) : Name := txnUUID ++ suffixEml

def placeOne (part : Bool × Envelope) : Spool Unit :=
  if part.1 then Spool.quarantine part.2 else Spool.enqueue part.2

def place : List (Bool × Envelope) → Spool Unit
  | [] => return ()
  | part :: rest => do
    placeOne part
    place rest

def plain {α : Type} (p : Spool α) : Fs (Option (Name × Envelope)) := p.run >>= fun _ => pure none

/-- The system calls of an operation. Only a claim that succeeds returns an envelope. -/
def prog (pid : Fin (2 ^ 63)) : Op → Fs (Option (Name × Envelope))
  | data txnUUID bytes parts => plain do
      let _ ← Spool.writeBody txnUUID bytes
      place parts
  | enqueue e => plain (Spool.enqueue e)
  | quarantine e => plain (Spool.quarantine e)
  | claim name => (Spool.claim pid name).run >>= fun
      | .ok (e, inflightName) => pure (some (inflightName, e))
      | .error _ => pure none
  | complete inflightName e => plain (Spool.complete inflightName e)
  | reschedule inflightName e due => plain (Spool.reschedule inflightName e due)
  | bury inflightName e => plain (Spool.bury inflightName e)
  | flush uuid => plain (Spool.flush uuid)
  | hold uuid => plain (Spool.hold uuid)
  | release uuid => plain (Spool.release uuid)
  | remove uuid => plain (Spool.removeEnvelope uuid)
  | recover => plain Spool.recover

/-- Operator commands run in a process of their own and survive a crash of the gateway. -/
def isOperator : Op → Bool
  | flush _ | hold _ | release _ | remove _ => true
  | _ => false

end Op

inductive Thread where
  | idle
  | holding (inflightName : Name) (e : Envelope)
  | busy (op : Op) (rest : Fs (Option (Name × Envelope)))

def Thread.settle (op : Op) : Fs (Option (Name × Envelope)) → Thread
  | .done none => .idle
  | .done (some (inflightName, e)) => .holding inflightName e
  | rest => .busy op rest

def Thread.afterCrash : Thread → Thread
  | .busy op rest => if op.isOperator then .busy op rest else .idle
  | _ => .idle

/-- The gateway's start-up: recovery has to return before anything is claimed. -/
inductive Phase where
  | crashed | recovering | running
  deriving Repr, DecidableEq

inductive Event where
  | begun (op : Op) (clock : Instant)
  | did (op : Op) (c : FsCall)
  deriving DecidableEq

/-- The spool and everybody who works on it. `owner`, `issued` and `log` only record: which thread
    claimed an inflight file, which uuids with which bodies were handed out, what was done. -/
structure Cfg where
  disk : Disk
  threads : Nat → Thread
  phase : Phase
  pid : Fin (2 ^ 63)
  maxLifetime : Nat
  owner : Name → Option Nat
  issued : List (Name × Name)
  log : List Event

inductive Decision where
  | begin (t : Nat) (op : Op) (clock : Instant)
  | step (t : Nat) (choice : Choice)
  | crash (pid : Fin (2 ^ 63))
  | abort (t : Nat)

def Attempted (e e' : Envelope) : Prop :=
  e' = { e with
    rcpts := e'.rcpts, attempts := e'.attempts, lastErr := e'.lastErr, delayWarned := e'.delayWarned,
    dsnSeq := e'.dsnSeq } ∧ e'.rcptAddrs = e.rcptAddrs

instance (e e' : Envelope) : Decidable (Attempted e e') := inferInstanceAs (Decidable (_ ∧ _))

/-- Longer in the queue than max_lifetime allows; zero means no limit. -/
def outlived (maxLifetime : Nat) (clock : Instant) (e : Envelope) : Prop :=
  0 < maxLifetime ∧ maxLifetime < clock.val - e.queuedAt.val

instance (maxLifetime : Nat) (clock : Instant) (e : Envelope) : Decidable (outlived maxLifetime clock e) :=
  inferInstanceAs (Decidable (_ ∧ _))

def freshParts (issued : List (Name × Name)) (txnUUID : Name) (parts : List (Bool × Envelope)) : Prop :=
  (parts.map fun part => part.2.uuid).Nodup ∧
    (∀ part ∈ parts, part.2.body = Op.bodyName txnUUID ∧ part.2.uuid ∉ issued.map Prod.fst) ∧
    Op.bodyName txnUUID ∉ issued.map Prod.snd

instance (issued : List (Name × Name)) (txnUUID : Name) (parts : List (Bool × Envelope)) :
    Decidable (freshParts issued txnUUID parts) := inferInstanceAs (Decidable (_ ∧ _ ∧ _))

/-- Who may start an operation: only a worker finishes what it claimed, it completes an envelope
    when no recipient is pending and buries it when it outlived its time, and nothing is claimed
    before recovery has returned. -/
def Thread.mayBegin (thread : Thread) (cfg : Cfg) (clock : Instant) : Op → Prop
  | .complete inflightName e' => match thread with
    | .holding held e => held = inflightName ∧ Attempted e e' ∧ e'.isDone
    | _ => False
  | .reschedule inflightName e' _ => match thread with
    | .holding held e => held = inflightName ∧ Attempted e e'
    | _ => False
  | .bury inflightName e' => match thread with
    | .holding held e => held = inflightName ∧ Attempted e e' ∧ outlived cfg.maxLifetime clock e'
    | _ => False
  | .claim _ => thread matches .idle ∧ cfg.phase = .running
  | .recover => thread matches .idle ∧ cfg.phase = .crashed
  | .data txnUUID _ parts => thread matches .idle ∧ freshParts cfg.issued txnUUID parts
  | _ => thread matches .idle

instance (thread : Thread) (cfg : Cfg) (clock : Instant) (op : Op) : Decidable (thread.mayBegin cfg clock op) := by
  cases op <;> cases thread <;> unfold Thread.mayBegin <;> dsimp only <;> infer_instance

namespace Cfg

def issuedBy (op : Op) : List (Name × Name) :=
  match op with
  | .data _ _ parts => parts.map fun part => (part.2.uuid, part.2.body)
  | _ => []

def ownAfter (t : Nat) (owner : Name → Option Nat) (c : FsCall) (answer : c.Answer) : Name → Option Nat :=
  match c, answer with
  | .rename .ready _ .inflight name', .ok () => Function.update owner name' (some t)
  | .rename .inflight name _ _, .ok () => Function.update owner name none
  | .remove .inflight name, .ok () => Function.update owner name none
  | _, _ => owner

def record (op : Op) (c : FsCall) (answer : c.Answer) : List Event :=
  match c, answer with
  | .publish _ _ _, .ok () | .rename _ _ _ _, .ok () | .remove _ _, .ok () => [.did op c]
  | _, _ => []

/-- Recovery has ended once its program has, whatever it returned. -/
def phaseAfter (phase : Phase) (op : Op) (thread : Thread) : Phase :=
  match op, thread with
  | .recover, .busy _ _ => .recovering
  | .recover, _ => .running
  | _, _ => phase

def next (cfg : Cfg) : Decision → Option Cfg
  | .begin t op clock =>
    if (cfg.threads t).mayBegin cfg clock op then
      let thread := Thread.settle op (op.prog cfg.pid)
      some { cfg with
        threads := Function.update cfg.threads t thread
        phase := phaseAfter cfg.phase op thread
        issued := issuedBy op ++ cfg.issued
        log := .begun op clock :: cfg.log }
    else none
  | .step t choice =>
    match cfg.threads t with
    | .busy op (.call c rest) =>
      let (answer, disk) := exec choice cfg.disk c
      let thread := Thread.settle op (rest answer)
      some { cfg with
        disk
        threads := Function.update cfg.threads t thread
        phase := phaseAfter cfg.phase op thread
        owner := ownAfter t cfg.owner c answer
        log := record op c answer ++ cfg.log }
    | _ => none
  | .crash pid =>
    some { cfg with
      threads := fun t => (cfg.threads t).afterCrash
      phase := .crashed
      pid
      owner := fun _ => none }
  | .abort t =>
    match cfg.threads t with
    | .busy op _ => if op.isOperator then some { cfg with threads := Function.update cfg.threads t .idle } else none
    | _ => none

end Cfg

end Mailgw.Queue
