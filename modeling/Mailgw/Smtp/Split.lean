import Mathlib.Data.Char
import Mathlib.Data.List.Lex
import Mathlib.Data.List.Sort
import Mailgw.Lists.Groups
import Mailgw.Smtp.Commands

namespace Mailgw.Smtp

open Queue Rules Lists

structure FailedRcpt where
  addr : Name
  action : Action
  orcpt : Name
  orcptType : Name
  notify : List Name
  rule : Name
  deriving Repr, DecidableEq

structure BucketRcpt where
  addr : Name
  rule : Name
  orcpt : Name
  orcptType : Name
  notify : List Name
  deriving Repr, DecidableEq

structure Destination where
  group : Name
  quarantine : Bool
  headers : List Rules.Header
  deriving Repr, DecidableEq

inductive Fate where
  | failed (f : FailedRcpt)
  | dropped
  | relayed (dest : Destination) (tags : Tags) (rcpt : BucketRcpt)
  deriving Repr, DecidableEq

structure OutEnvelope where
  env : Envelope
  quarantined : Bool
  deriving Repr, DecidableEq

def newFailedRcpt (rs : RcptState) (action : Action) (rule : Name) : FailedRcpt :=
  { addr := rs.addr, action, orcpt := rs.orcpt, orcptType := rs.orcptType, notify := rs.notify, rule }

def newBucketRcpt (rs : RcptState) (rule : Name) : BucketRcpt :=
  { addr := rs.addr, rule, orcpt := rs.orcpt, orcptType := rs.orcptType, notify := rs.notify }

def sanitizeHeaderValue (s : Name) : Name := s.filter fun c => c ≠ '\r' ∧ c ≠ '\n'

def toQueueHeaders (hs : List Rules.Header) : List Queue.Header :=
  hs.map fun h => { name := sanitizeHeaderValue h.name, value := sanitizeHeaderValue h.value }

def nul : Char := Char.ofNat 0

def bucketKey (d : Destination) : Name :=
  d.group ++ nul :: ((if d.quarantine then ['q'] else []) ++
    d.headers.flatMap fun h => nul :: (h.name ++ ':' :: h.value))

section Evaluation
variable [Text.LowerCase]

namespace Session

/-- The data-stage environment of an accepted recipient. The tags it left RCPT with lie over those
    of the session. -/
def dataEnvFor (s : Session) (rs : RcptState) : Env :=
  let renv := s.env.forRcpt { toAddr := rs.addr, index := rs.index, countSoFar := (rs.index : Int) - 1 }
  rs.tags.foldl (fun e tag => e.setTag tag.1 tag.2) { renv with stage := .data }

def dataPolicy (s : Session) (rs : RcptState) (drop : Option Drop) : Env × List Rules.Header × Except Fate (Option Drop) :=
  if s.accepted then (s.dataEnvFor rs, rs.headers, .ok drop)
  else
    let (renv, res) := evalPolicyRcpt s.rules (s.dataEnvFor rs) .data
    (renv, rs.headers ++ res.headers, match res.action with
      | some (.reject code enhanced message) => .error (.failed (newFailedRcpt rs (.reject code enhanced message) res.rule))
      | some (.tempfail code enhanced message) =>
        .error (.failed (newFailedRcpt rs (.tempfail code enhanced message) res.rule))
      | some .discard => .error .dropped
      | some .quarantine => .ok (some .quarantine)
      | _ => .ok drop)

def dataRoute (s : Session) (rs : RcptState) (renv : Env) : Env × Option Rules.Decision :=
  match rs.decision with
  | some d => (renv, some d)
  | none => route s.rules renv .data

def dispatch (s : Session) (rs : RcptState) (drop : Option Drop) (headers : List Rules.Header) (tags : Tags) :
    Option Rules.Decision → Fate
  | none => .failed (newFailedRcpt rs defaultAction [])
  | some d =>
    match d.action with
    | .relay group =>
      .relayed { group, quarantine := drop = some .quarantine, headers := s.connHeaders ++ s.txnHeaders ++ headers ++ d.headers }
        tags (newBucketRcpt rs d.rule)
    | .discard | .quarantine => .dropped
    | a => .failed (newFailedRcpt rs a d.rule)

def settle (s : Session) (msgDrop : Option Drop) (rs : RcptState) : Fate :=
  let drop := msgDrop.or rs.drop
  if drop = some .discard then .dropped
  else
    match s.dataPolicy rs drop with
    | (_, _, .error fate) => fate
    | (renv, headers, .ok drop) =>
      let (renv, decision) := s.dataRoute rs renv
      s.dispatch rs drop headers renv.tags decision

end Session

end Evaluation

abbrev Buckets := Groups Name (Destination × Tags) BucketRcpt

structure Collected where
  buckets : Buckets := []
  failed : List FailedRcpt := []
  dropped : Nat := 0

def Collected.add (c : Collected) : Fate → Collected
  | .failed f => { c with failed := c.failed ++ [f] }
  | .dropped => { c with dropped := c.dropped + 1 }
  | .relayed dest tags rcpt => { c with buckets := c.buckets.add (bucketKey dest) (dest, tags) rcpt }

structure SplitResult where
  envelopes : List OutEnvelope
  failed : List FailedRcpt
  dropped : Nat
  deriving Repr, DecidableEq

def BucketRcpt.toRecipient (r : BucketRcpt) : Recipient :=
  { addr := r.addr, status := .pending, routeRule := r.rule, origRcpt := r.orcpt, origRcptType := r.orcptType
    notify := r.notify }

namespace Session

def envelopeOf (s : Session) (bodyName : Name) (size : Nat) (now : Instant) (i : Nat) (dest : Destination) (tags : Tags)
    (rcpts : List BucketRcpt) : OutEnvelope where
  quarantined := dest.quarantine
  env := {
    uuid := childID s.txnUUID (i + 1), txnUUID := s.txnUUID, connUUID := s.connUUID, body := bodyName, bodySize := size
    mailFrom := s.mailFrom, rcpts := rcpts.map BucketRcpt.toRecipient, relayGrp := dest.group
    prepend := toQueueHeaders dest.headers, tags, queuedAt := now, nextAt := now, smtpUTF8 := s.smtpUTF8
    body8Bit := s.body8Bit, dsnRet := s.dsnRet, dsnEnvID := s.dsnEnvID }

variable [Text.LowerCase]

def collect (s : Session) (msgDrop : Option Drop) : Collected :=
  s.rcpts.foldl (fun c rs => c.add (s.settle msgDrop rs)) {}

/-- Evaluates each recipient and groups the survivors into envelopes, in the order of their keys. -/
def split (s : Session) (bodyName : Name) (size : Nat) (now : Instant) (msgDrop : Option Drop) : SplitResult :=
  let c := s.collect msgDrop
  { envelopes := (c.buckets.insertionSort fun b b' => b.1 ≤ b'.1).mapIdx fun i b =>
      s.envelopeOf bodyName size now i b.2.1.1 b.2.1.2 b.2.2
    failed := c.failed, dropped := c.dropped }

end Session

end Mailgw.Smtp
