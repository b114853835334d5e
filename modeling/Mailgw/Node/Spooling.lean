import Mailgw.Calls.Runs
import Mailgw.Smtp.Naming

namespace Mailgw.Node

open Calls Deliver Queue Smtp

structure Talk where
  session : Session
  filing : Option (Filing (Session × Smtp.Reply)) := none

structure Worker where
  file : Envelope
  filed : Bool := true
  saved : Bool := false
  job : Option (Job Unit)

/-- Everybody who names things in the spool, and what the names are for. `taken` only records: all
    names given to bodies and to new envelopes, the last one first. -/
structure Gateway where
  roots : List Name := []
  talks : List Talk := []
  ready : List Envelope := []
  shelved : List Name := []
  workers : List Worker := []
  recovering : Option (List Name) := none
  taken : List Grant := []

inductive Move where
  | connect (root hostname : Name) (tls : Option TLSState) (conn : Rules.ConnEnv) (rules : Option Rules.Ruleset)
  | command (i : Nat) (b : Backend) (cmd : Command)
  | data (i : Nat) (b : Backend) (w : Smtp.World) (fault : Chars → BodyFault) (body : Reader) (scan : Scan)
  | file (i : Nat) (event : Filed) (despite : Bool)
  | reply (i : Nat)
  | hangUp (i : Nat)
  | claim (i : Nat) (cfg : RunnerConfig) (inflight : Name)
  | work (i : Nat) (event : Happening) (despite : Bool)
  | save (i : Nat)
  | crash
  | recover (i : Nat)
  | started

/-- What a call does to the spool. A call that answers with an error may have done it despite that. -/
def Gateway.record (g : Gateway) (despite : Bool) : Filed → Gateway
  | ⟨.inl (.writeBody id _), _⟩ => { g with taken := (.body, id) :: g.taken }
  | ⟨.inl (.enqueue env), (answer : Option Chars)⟩ =>
    { g with
      taken := (.envelope, env.uuid) :: g.taken
      ready := if answer.isNone || despite then env :: g.ready else g.ready }
  | ⟨.inr env, (answer : Option Chars)⟩ =>
    { g with
      taken := (.envelope, env.uuid) :: g.taken
      shelved := if answer.isNone || despite then env.uuid :: g.shelved else g.shelved }
  | _ => g

def Happening.removes (despite : Bool) : Happening → Bool
  | ⟨.reschedule _ _ _, (answer : Option Chars)⟩ | ⟨.complete _ _, (answer : Option Chars)⟩
  | ⟨.bury _ _, (answer : Option Chars)⟩ => answer.isNone || despite
  | _ => false

section Moves
variable [Text.LowerCase] [AuthTexts] [CaseFolding]

def obey (b : Backend) (s : Session) : Command → Option Session
  | .auth user mech => some (s.authenticate user mech)
  | .regreet hostname => some (s.regreet hostname)
  | .reset => some s.resetTxn
  | .mail w fromAddr opts => some (s.mail b w fromAddr opts).1
  | .rcpt w toAddr opts => some (s.rcpt w toAddr opts).1
  | .data _ _ _ => none

namespace Gateway

/-- The outcome of an attempt is published before the file in inflight/ is removed. -/
def publish (g : Gateway) (i : Nat) (w : Worker) : Effect → Option Gateway
  | .reschedule _ e due => some { g with
      ready := e.dueAt (Instant.ofNanos due) :: g.ready, workers := g.workers.set i { w with saved := true } }
  | .bury _ e => some { g with shelved := e.uuid :: g.shelved, workers := g.workers.set i { w with saved := true } }
  | _ => none

/-- A file is recovered under a name that its time and uuid make, over any other that has it. -/
def restore (g : Gateway) (e : Envelope) (committed : List Name) : Gateway :=
  if e.uuid ∈ committed then g else { g with ready := e :: g.ready.filter fun e' => e'.uuid ≠ e.uuid }

def next (g : Gateway) : Move → Option Gateway
  | .connect root hostname tls conn rules =>
    if '.' ∈ root ∨ root ∈ g.roots then none
    else
      let g := { g with roots := root :: g.roots }
      match newSession root hostname tls conn rules with
      | .error _ => some g
      | .ok session => some { g with talks := { session } :: g.talks }
  | .command i b cmd => do
    let talk ← g.talks[i]?
    if talk.filing.isSome then none
    else
      let session ← obey b talk.session cmd
      some { g with talks := g.talks.set i { session } }
  | .data i b w fault body scan => do
    let talk ← g.talks[i]?
    if talk.filing.isSome then none
    else some { g with talks := g.talks.set i { talk with filing := some (talk.session.data b w fault body scan) } }
  | .file i event despite => do
    let talk ← g.talks[i]?
    let left ← talk.filing.bind fun filing => filing.step event
    some ({ g with talks := g.talks.set i { talk with filing := some left } }.record despite event)
  | .reply i => do
    let talk ← g.talks[i]?
    match talk.filing with
    | some (.done (session, _)) => some { g with talks := g.talks.set i { session := session.resetTxn } }
    | _ => none
  | .hangUp i => do
    let talk ← g.talks[i]?
    if talk.filing.isSome then none else some { g with talks := g.talks.eraseIdx i }
  | .claim i cfg inflight => do
    let e ← g.ready[i]?
    if g.recovering.isSome then none
    else some { g with
      ready := g.ready.eraseIdx i, workers := { file := e, job := some (attempt cfg inflight e) } :: g.workers }
  | .work i event despite => do
    let w ← g.workers[i]?
    let left ← w.job.bind fun job => job.step event
    let w := { w with job := some left, filed := w.filed && !Happening.removes despite event }
    some ({ g with workers := g.workers.set i w }.record despite (Calls.left event))
  | .save i => do
    let w ← g.workers[i]?
    match w.job with
    | some (.call request _) => if w.saved then none else g.publish i w request
    | _ => none
  | .crash => some { g with
      talks := []
      workers := g.workers.map fun w => { w with job := none }
      recovering := some (g.ready.map Envelope.uuid ++ g.shelved) }
  | .recover i => do
    let committed ← g.recovering
    let w ← g.workers[i]?
    if w.filed then some ({ g with workers := g.workers.eraseIdx i }.restore w.file committed) else none
  | .started => if g.recovering.isSome then some { g with recovering := none } else none

def bodies (g : Gateway) : List Name :=
  (g.taken.filter fun entry => entry.1 = .body).map fun entry => entry.2 ++ suffixEml

def uuids (g : Gateway) : List Name := (g.taken.filter fun entry => entry.1 = .envelope).map Prod.snd

end Gateway

end Moves

end Mailgw.Node
