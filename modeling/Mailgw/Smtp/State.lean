import Mailgw.Queue.Bounce
import Mailgw.Rules.Compile

namespace Mailgw.Smtp

open Queue Rules

structure Reply where
  code : Int
  enhanced : Int × Int × Int
  message : Name
  deriving Repr, DecidableEq

/-- A policy action that keeps mail accepted but stops it being relayed. -/
inductive Drop where
  | discard | quarantine
  deriving Repr, DecidableEq

structure SPFResult where
  value : Name := []
  domain : Name := []
  mailFrom : Name := []
  helo : Name := []
  reason : Name := []
  deriving Repr, DecidableEq

structure DKIMResult where
  value : Name := []
  domains : List Name := []
  reason : Name := []
  deriving Repr, DecidableEq

structure DMARCResult where
  value : Name := []
  policy : Name := []
  fromDomain : Name := []
  reason : Name := []
  deriving Repr, DecidableEq

def resultPass : Name := "pass".toList
def resultFail : Name := "fail".toList

def SPFResult.checked (r : SPFResult) : Bool := r.value ≠ []

structure RcptState where
  addr : Name
  index : Nat
  orcpt : Name := []
  orcptType : Name := []
  notify : List Name := []
  decision : Option Rules.Decision := none
  drop : Option Drop := none
  headers : List Rules.Header := []
  tags : Tags := []
  deriving Repr, DecidableEq

structure TLSState where
  version : Name
  cipher : Name
  deriving Repr, DecidableEq

structure Session where
  connUUID : Name
  hostname : Name
  tls : Option TLSState := none
  authUser : Name := []
  authMech : Name := []
  txnSeq : Nat := 0
  rules : Option Ruleset
  env : Env
  connHeaders : List Rules.Header := []
  txnHeaders : List Rules.Header := []
  txnUUID : Name := []
  mailFrom : Name := []
  haveMail : Bool := false
  rcpts : List RcptState := []
  smtpUTF8 : Bool := false
  body8Bit : Bool := false
  dsnRet : Name := []
  dsnEnvID : Name := []
  spf : SPFResult := {}
  dkim : DKIMResult := {}
  dmarc : DMARCResult := {}
  connAccept : Bool := false
  txnAccept : Bool := false
  msgDrop : Option Drop := none
  rcptAccept : Nat := 0

structure AttachConfig where
  failMode : Name := []
  onBlock : Name := []
  includeInline : Bool := false
  deriving Repr, DecidableEq

/-- The message-authentication checker. Its switches are what the configuration asked for. -/
structure MsgAuth where
  authservID : Name := []
  spf : Bool := false
  dkim : Bool := false
  dmarc : Bool := false
  maxDKIMSignatures : Int := 0
  deriving Repr, DecidableEq

structure Backend where
  hostname : Name
  maxBytes : Int := 0
  maxLineLength : Int := 0
  maxHeaderLines : Int := 0
  maxReceivedHeaders : Int := 0
  attach : AttachConfig := {}
  scanning : Bool := false
  msgAuth : Option MsgAuth := none
  bouncer : Option Bouncer := none
  deriving Repr, DecidableEq

namespace Session

def accepted (s : Session) : Bool := s.connAccept || s.txnAccept

def heloEnv (s : Session) : HeloEnv where
  name := s.hostname
  tls := s.tls.isSome
  tlsVersion := s.tls.elim [] TLSState.version
  tlsCipher := s.tls.elim [] TLSState.cipher
  authUser := s.authUser
  authMechanism := s.authMech

def resetTxn (s : Session) : Session :=
  { s with
    txnUUID := [], mailFrom := [], haveMail := false, rcpts := [], smtpUTF8 := false, body8Bit := false
    dsnRet := [], dsnEnvID := [], spf := {}, dkim := {}, dmarc := {}, rcptAccept := 0, txnHeaders := []
    txnAccept := false, msgDrop := none
    env := { s.env with mail := none, rcpt := none, msg := none, stage := .helo } }

end Session

def smtpError (a : Action) : Reply :=
  let render (code : Int) (enhanced message : Name) : Reply :=
    match parseEnhanced enhanced with
    | some (x, y, z) => ⟨code, (x, y, z), message⟩
    | none => ⟨code, (code.tdiv 100, 0, 0), message⟩
  match a with
  | .reject code enhanced message | .tempfail code enhanced message => render code enhanced message
  | _ => render 0 [] []

def Session.applyTerminal (s : Session) (stage : Stage) : Option Action → Session × Option Reply
  | some .accept => if stage ≤ .helo then ({ s with connAccept := true }, none) else ({ s with txnAccept := true }, none)
  | some (.reject code enhanced message) => (s, some (smtpError (.reject code enhanced message)))
  | some (.tempfail code enhanced message) => (s, some (smtpError (.tempfail code enhanced message)))
  | some .discard => ({ s with msgDrop := some .discard }, none)
  | some .quarantine => ({ s with msgDrop := some .quarantine }, none)
  | _ => (s, none)

section Greeting
variable [Text.LowerCase]

def Session.policyPass (s : Session) (stage : Stage) : Session × PolicyResult :=
  let (env, res) := evalPolicy s.rules { s.env with stage } stage
  ({ s with env }, res)

def Session.greetPolicy (s : Session) : List Stage → Except Reply Session
  | [] => .ok s
  | stage :: rest =>
    if s.connAccept then .ok s
    else
      let (s, res) := s.policyPass stage
      match Session.applyTerminal { s with connHeaders := s.connHeaders ++ res.headers } stage res.action with
      | (_, some reply) => .error reply
      | (s, none) => s.greetPolicy rest

def Session.initial (connUUID hostname : Name) (tls : Option TLSState) (conn : ConnEnv) (rules : Option Ruleset) :
    Session :=
  let s : Session := { connUUID, hostname, tls, rules, env := { stage := .connect, conn := some conn } }
  { s with env := { s.env with helo := some s.heloEnv } }

def newSession (connUUID hostname : Name) (tls : Option TLSState) (conn : ConnEnv) (rules : Option Ruleset) :
    Except Reply Session :=
  (Session.initial connUUID hostname tls conn rules).greetPolicy [.connect, .helo]

end Greeting

end Mailgw.Smtp
