import Mailgw.Smtp.State

namespace Mailgw.Smtp

open Queue Rules

inductive Dimension where
  | msgPerSender | msgPerUser | rcptPerDomain
  deriving Repr, DecidableEq

inductive Verdict where
  | allow | block
  deriving Repr, DecidableEq

structure Walked where
  partCount : Int := 0
  parts : List Attachment := []
  err : Option Name := none
  deriving Repr, DecidableEq

inductive BodyFault where
  | tooLarge | tooLongLine | tooManyHeaderLines | spool
  deriving Repr, DecidableEq

structure Scan where
  size : Nat
  lines : Int
  headers : List (Name × List Name)
  rawHeaders : Name
  deriving Repr, DecidableEq

/-- What the world outside answers while a command runs: the limiter, the clock, DNS and the
    attachment scanner. -/
structure World where
  limiter : Option (Dimension → Name → Bool) := none
  now : Instant := .zero
  checkSPF : Addr → Name → Name → SPFResult := fun _ _ _ => {}
  walk : Bool → Walked := fun _ => {}
  scan : List Attachment → Except Name Verdict := fun _ => .ok .allow
  verifyDKIM : Int → Option DKIMResult := fun _ => none
  evaluateDMARC : Name → SPFResult → DKIMResult → DMARCResult := fun _ _ _ => {}

structure MailOptions where
  utf8 : Bool := false
  body : Name := []
  size : Int := 0
  requireTLS : Bool := false
  ret : Name := []
  envelopeID : Name := []
  deriving Repr, DecidableEq

structure RcptOptions where
  originalRecipient : Name := []
  originalRecipientType : Name := []
  notify : List Name := []
  deriving Repr, DecidableEq

def needMail : Reply := ⟨503, (5, 5, 1), "Error: need MAIL command".toList⟩

def rateRefusal (what : Name) : Reply :=
  ⟨450, (4, 7, 1), "Rate limit exceeded for ".toList ++ what ++ ", try again later".toList⟩

section Commands
variable [Text.LowerCase]

/-- The sender's limit is asked before the login's. A null sender has none. -/
def World.checkMailRate (w : World) (fromAddr authUser : Name) : Option Reply :=
  match w.limiter with
  | none => none
  | some allow =>
    let sender := Text.toLower (Text.trimSpace fromAddr)
    let user := Text.toLower authUser
    if sender ≠ [] ∧ allow .msgPerSender sender = false then some (rateRefusal "this sender".toList)
    else if user ≠ [] ∧ allow .msgPerUser user = false then some (rateRefusal "this user".toList)
    else none

def World.checkRcptRate (w : World) (toAddr : Name) : Option Reply :=
  match w.limiter with
  | none => none
  | some allow =>
    let dom := Text.toLower (domain toAddr)
    if dom ≠ [] ∧ allow .rcptPerDomain dom = false then some (rateRefusal "this recipient domain".toList) else none

def Backend.wantSPF (b : Backend) (rs : Option Ruleset) : Bool :=
  b.msgAuth.elim false fun m => m.spf || m.dmarc || rs.elim false Ruleset.needsSPF

def Backend.wantDKIM (b : Backend) (rs : Option Ruleset) : Bool :=
  b.msgAuth.elim false fun m => m.dkim || m.dmarc || rs.elim false Ruleset.needsDKIM

def Backend.wantDMARC (b : Backend) (rs : Option Ruleset) : Bool :=
  b.msgAuth.elim false fun m => m.dmarc || rs.elim false Ruleset.needsDMARC

namespace Session

def remoteIP (s : Session) : Addr := s.env.conn.elim .invalid ConnEnv.remoteIP

def beginMail (s : Session) (fromAddr : Name) (opts : Option MailOptions) : Session :=
  let s := s.resetTxn
  let mail : MailEnv := match opts with
    | none => { fromAddr }
    | some o => { fromAddr, sizeDeclared := o.size, body := o.body, smtpUTF8 := o.utf8, requireTLS := o.requireTLS }
  { s with
    txnSeq := s.txnSeq + 1, txnUUID := childID s.connUUID (s.txnSeq + 1), mailFrom := fromAddr, haveMail := true
    smtpUTF8 := opts.elim false MailOptions.utf8
    body8Bit := opts.elim false fun o => o.body = "8BITMIME".toList || o.body = "BINARYMIME".toList
    dsnRet := opts.elim [] MailOptions.ret, dsnEnvID := opts.elim [] MailOptions.envelopeID
    env := { s.env with helo := some s.heloEnv, mail := some mail, stage := .mail } }

def checkSPF (s : Session) (b : Backend) (w : World) (fromAddr : Name) : Session :=
  if b.wantSPF s.rules then
    let spf := w.checkSPF s.remoteIP s.hostname fromAddr
    { s with
      spf
      env := { s.env with mail := s.env.mail.map fun m => { m with spfResult := spf.value, spfDomain := spf.domain } } }
  else s

def mail (b : Backend) (w : World) (fromAddr : Name) (opts : Option MailOptions) (s : Session) :
    Session × Option Reply :=
  let s := s.beginMail fromAddr opts
  match w.checkMailRate fromAddr s.authUser with
  | some reply => (s, some reply)
  | none =>
    let s := s.checkSPF b w fromAddr
    if s.accepted then (s, none)
    else
      let (s, res) := s.policyPass .mail
      Session.applyTerminal { s with txnHeaders := s.txnHeaders ++ res.headers } .mail res.action

end Session

def rcptTerminal : Action → Except Reply (Option Drop)
  | .reject code enhanced message => .error (smtpError (.reject code enhanced message))
  | .tempfail code enhanced message => .error (smtpError (.tempfail code enhanced message))
  | .discard => .ok (some .discard)
  | .quarantine => .ok (some .quarantine)
  | _ => .ok none

namespace Session

def namedRcpt (s : Session) (toAddr : Name) (opts : Option RcptOptions) : RcptState where
  addr := toAddr
  index := s.rcpts.length + 1
  orcpt := opts.elim [] RcptOptions.originalRecipient
  orcptType := opts.elim [] RcptOptions.originalRecipientType
  notify := opts.elim [] fun o => o.notify.map Text.upper

def rcptEnv (s : Session) (toAddr : Name) : Env :=
  { s.env.forRcpt { toAddr, index := (s.rcpts.length + 1 : Nat), countSoFar := s.rcptAccept } with stage := .rcpt }

def rcptPolicy (s : Session) (renv : Env) (st : RcptState) : Env × Except Reply RcptState :=
  if s.accepted then (renv, .ok st)
  else
    let (renv, res) := evalPolicyRcpt s.rules renv .rcpt
    let st := { st with headers := st.headers ++ res.headers }
    match res.action with
    | none => (renv, .ok st)
    | some a => (renv, (rcptTerminal a).map fun drop => { st with drop })

/-- The route of a recipient, bound at RCPT when the walk can decide without the message. -/
def bindRoute (s : Session) (renv : Env) (st : RcptState) : Except Reply RcptState :=
  match route s.rules renv .rcpt with
  | (renv, none) => .ok { st with tags := renv.tags }
  | (renv, some d) =>
    if st.drop.isNone then
      (rcptTerminal d.action).map fun drop => { st with drop, decision := some d, tags := renv.tags }
    else .ok { st with decision := some d, tags := renv.tags }

def rcpt (w : World) (toAddr : Name) (opts : Option RcptOptions) (s : Session) : Session × Option Reply :=
  if !s.haveMail then (s, some needMail)
  else
    match w.checkRcptRate toAddr with
    | some reply => (s, some reply)
    | none =>
      match s.rcptPolicy (s.rcptEnv toAddr) (s.namedRcpt toAddr opts) with
      | (_, .error reply) => (s, some reply)
      | (renv, .ok st) =>
        match s.bindRoute renv st with
        | .error reply => (s, some reply)
        | .ok st => ({ s with rcpts := s.rcpts ++ [st], rcptAccept := s.rcptAccept + 1 }, none)

def authenticate (user mech : Name) (s : Session) : Session :=
  { s with
    authUser := user, authMech := mech
    env := { s.env with helo := s.env.helo.map fun h => { h with authUser := user, authMechanism := mech } } }

/-- A repeated greeting resets the transaction and changes the name the client goes by. -/
def regreet (hostname : Name) (s : Session) : Session := { s.resetTxn with hostname }

end Session

end Commands

end Mailgw.Smtp
