import Mathlib.Data.List.Infix
import Mailgw.Queue.Names

namespace Mailgw.Queue

/-- Simple Unicode case folding, one representative for each orbit. -/
class CaseFolding where
  fold : Char → Char

def equalFold [CaseFolding] (s t : Name) : Bool := s.map CaseFolding.fold == t.map CaseFolding.fold

theorem equalFold_iff [CaseFolding] (s t : Name) : equalFold s t = true ↔ s.map CaseFolding.fold = t.map CaseFolding.fold := by
  simp [equalFold]

@[simp] theorem equalFold_refl [CaseFolding] (s : Name) : equalFold s s = true := by simp [equalFold]

theorem equalFold_comm [CaseFolding] (s t : Name) : equalFold s t = equalFold t s := by
  rw [Bool.eq_iff_iff, equalFold_iff, equalFold_iff, eq_comm]

def envelopeVersion : Int := 1

inductive Status where
  | unset | pending | delivered | permfail | expired
  deriving Repr, DecidableEq

structure Header where
  name : Name
  value : Name
  deriving Repr, DecidableEq

structure Recipient where
  addr : Name
  status : Status := .pending
  routeRule : Name := []
  lastCode : Int := 0
  lastMsg : Name := []
  dsnSent : Bool := false
  origRcpt : Name := []
  origRcptType : Name := []
  notify : List Name := []
  deriving Repr, DecidableEq

def notifyNever : Name := "NEVER".toList
def notifyDelay : Name := "DELAY".toList
def notifyFailure : Name := "FAILURE".toList
def notifySuccess : Name := "SUCCESS".toList

namespace Recipient

def isPending (r : Recipient) : Bool := r.status == .pending || r.status == .unset

section Notify
variable [CaseFolding]

def notifyHas (r : Recipient) (k : Name) : Bool := r.notify.any fun n => equalFold n k

/-- Silence means yes: without a NOTIFY parameter the default is FAILURE. -/
def wantsFailureDSN (r : Recipient) : Bool := r.notify.isEmpty || r.notifyHas notifyFailure

def wantsDelayDSN (r : Recipient) : Bool := r.notify.isEmpty || r.notifyHas notifyDelay

def wantsSuccessDSN (r : Recipient) : Bool := r.notifyHas notifySuccess

end Notify
end Recipient

structure Envelope where
  version : Int := envelopeVersion
  uuid : Name
  txnUUID : Name
  connUUID : Name
  body : Name
  bodySize : Nat := 0
  mailFrom : Name := []
  rcpts : List Recipient
  relayGrp : Name
  prepend : List Header := []
  tags : List (Name × Name) := []
  queuedAt : Instant := .zero
  attempts : Nat := 0
  nextAt : Instant := .zero
  lastErr : Name := []
  isDSN : Bool := false
  smtpUTF8 : Bool := false
  body8Bit : Bool := false
  delayWarned : Bool := false
  dsnRet : Name := []
  dsnEnvID : Name := []
  dsnSeq : Nat := 0
  deriving Repr, DecidableEq

def trimSuffix (suffix s : Name) : Name := if suffix <:+ s then s.take (s.length - suffix.length) else s

def suffixEml : Name := ".eml".toList

/-- Whether an envelope with this uuid may reference this body file. One definition serves
    `validate` and the spool's body collector. -/
def bodyOwnedBy (body uuid : Name) : Bool :=
  let owner := trimSuffix suffixEml body
  uuid == owner || (owner ++ ['.']).isPrefixOf uuid

/-- Hex digits and dashes, then dot-separated decimal components. -/
def validID (id : Name) : Bool :=
  match id.splitOn '.' with
  | [] => false
  | root :: parts =>
    !root.isEmpty && root.all (fun r => r.isDigit || ('a' ≤ r && r ≤ 'f') || ('A' ≤ r && r ≤ 'F') || r == '-') &&
      parts.all fun part => !part.isEmpty && part.all Char.isDigit

inductive Invalid where
  | version (found : Int)
  | identifier (field : String) (id : Name)
  | uuidOutsideTxn | txnOutsideConn
  | missingBody | bodyNotBare | bodyOfAnother
  | noRecipients | noRelayGroup
  deriving Repr, DecidableEq

def require (p : Prop) [Decidable p] (failure : Invalid) : Except Invalid Unit :=
  if p then .ok () else .error failure

@[simp] theorem require_ok (p : Prop) [Decidable p] (failure : Invalid) :
    require p failure = .ok () ↔ p := by
  by_cases holds : p <;> simp [require, holds]

@[simp] theorem require_bind_ok (p : Prop) [Decidable p] (failure : Invalid) (next : Unit → Except Invalid Unit) :
    (require p failure >>= next) = .ok () ↔ p ∧ next () = .ok () := by
  by_cases holds : p <;> simp [require, holds, Bind.bind, Except.bind]

namespace Envelope

def stripCRLF (s : Name) : Name := s.filter fun c => c ≠ '\r' && c ≠ '\n'

def prependBlock (e : Envelope) : Name :=
  e.prepend.flatMap fun h => stripCRLF h.name ++ ": ".toList ++ stripCRLF h.value ++ "\r\n".toList

def pendingRcpts (e : Envelope) : List Recipient := e.rcpts.filter Recipient.isPending

def isDone (e : Envelope) : Bool := e.pendingRcpts.isEmpty

def rcptAddrs (e : Envelope) : List Name := e.rcpts.map Recipient.addr

/-- The first recipient whose address matches takes the outcome. -/
def setStatusIn [CaseFolding] (addr : Name) (status : Status) (code : Int) (msg : Name) :
    List Recipient → List Recipient
  | [] => []
  | r :: rest =>
    if equalFold r.addr addr then { r with status := status, lastCode := code, lastMsg := msg } :: rest
    else r :: setStatusIn addr status code msg rest

def setStatus [CaseFolding] (e : Envelope) (addr : Name) (status : Status) (code : Int) (msg : Name) : Envelope :=
  { e with rcpts := setStatusIn addr status code msg e.rcpts }

def dueAt (e : Envelope) (due : Instant) : Envelope := { e with nextAt := due }

def resetAttempts (e : Envelope) : Envelope := { e with attempts := 0 }

def validate (e : Envelope) : Except Invalid Unit := do
  require (e.version = envelopeVersion) (.version e.version)
  require (validID e.uuid) (.identifier "uuid" e.uuid)
  require (validID e.txnUUID) (.identifier "txn_uuid" e.txnUUID)
  require (validID e.connUUID) (.identifier "conn_uuid" e.connUUID)
  require (e.txnUUID ++ ['.'] <+: e.uuid) .uuidOutsideTxn
  require (e.connUUID ++ ['.'] <+: e.txnUUID) .txnOutsideConn
  require (e.body ≠ []) .missingBody
  require ('/' ∉ e.body ∧ '\\' ∉ e.body ∧ ¬ ['.', '.'] <:+: e.body) .bodyNotBare
  require (bodyOwnedBy e.body e.uuid) .bodyOfAnother
  require (e.rcpts ≠ []) .noRecipients
  require (e.relayGrp ≠ []) .noRelayGroup

/-- What the spool may rely on about an envelope it wrote or read. -/
def Valid (e : Envelope) : Prop := e.validate = .ok ()

instance (e : Envelope) : Decidable e.Valid := inferInstanceAs (Decidable (e.validate = .ok ()))

theorem Valid.checks {e : Envelope} (valid : e.Valid) :
    e.version = envelopeVersion ∧ validID e.uuid ∧ e.body ≠ [] ∧ bodyOwnedBy e.body e.uuid := by
  simp only [Valid, validate, require_bind_ok, require_ok] at valid
  obtain ⟨version, uuid, -, -, -, -, body, -, owned, -, -⟩ := valid
  exact ⟨version, uuid, body, owned⟩

theorem Valid.version {e : Envelope} (valid : e.Valid) : e.version = envelopeVersion := valid.checks.1

theorem Valid.body_owned {e : Envelope} (valid : e.Valid) : bodyOwnedBy e.body e.uuid = true :=
  valid.checks.2.2.2

theorem Valid.uuid_nonempty {e : Envelope} (valid : e.Valid) : e.uuid ≠ [] := by
  intro empty
  have accepted := valid.checks.2.1
  rw [empty] at accepted
  exact absurd accepted (by decide)

theorem Valid.congr {e e' : Envelope} (valid : e.Valid) (version : e'.version = e.version)
    (uuid : e'.uuid = e.uuid) (txn : e'.txnUUID = e.txnUUID) (conn : e'.connUUID = e.connUUID)
    (body : e'.body = e.body) (rcpts : e'.rcpts = [] ↔ e.rcpts = []) (group : e'.relayGrp = e.relayGrp) :
    e'.Valid := by
  simp only [Valid, validate, require_bind_ok, require_ok, ne_eq] at *
  simpa only [version, uuid, txn, conn, body, rcpts, group] using valid

@[simp] theorem dueAt_uuid (e : Envelope) (due : Instant) : (e.dueAt due).uuid = e.uuid := rfl
@[simp] theorem dueAt_body (e : Envelope) (due : Instant) : (e.dueAt due).body = e.body := rfl
@[simp] theorem dueAt_nextAt (e : Envelope) (due : Instant) : (e.dueAt due).nextAt = due := rfl
@[simp] theorem resetAttempts_uuid (e : Envelope) : e.resetAttempts.uuid = e.uuid := rfl
@[simp] theorem resetAttempts_body (e : Envelope) : e.resetAttempts.body = e.body := rfl

theorem Valid.dueAt {e : Envelope} (valid : e.Valid) (due : Instant) : (e.dueAt due).Valid :=
  valid.congr rfl rfl rfl rfl rfl Iff.rfl rfl

theorem Valid.resetAttempts {e : Envelope} (valid : e.Valid) : e.resetAttempts.Valid :=
  valid.congr rfl rfl rfl rfl rfl Iff.rfl rfl

end Envelope

end Mailgw.Queue
