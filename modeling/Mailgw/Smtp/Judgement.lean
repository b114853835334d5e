import Mailgw.Calls.Stages
import Mailgw.Smtp.Split

namespace Mailgw.Smtp

open Calls Deliver Queue Rules

/-- What renders the results of message authentication, and reads the From header. -/
class AuthTexts where
  formatAuthResults : Name → SPFResult → DKIMResult → DMARCResult → Name
  formatReceivedSPF : SPFResult → Addr → Name → Name
  fromDomainOf : Name → Name

def tagAttachScan : Name := "attach_scan".toList
def tagMsgAuth : Name := "msgauth".toList

/-- What the inspection of a body learned. Nothing when the blocklist was not consulted. -/
inductive AttachOutcome where
  | unasked
  | failed (err : Name)
  | judged (verdict : Verdict)
  deriving Repr, DecidableEq

def Verdict.text : Verdict → Name
  | .allow => "allow".toList
  | .block => "block".toList

section Configuration
variable [CaseFolding]

def AttachConfig.failClosed (c : AttachConfig) : Bool := !equalFold c.failMode "open".toList

def AttachConfig.blockAction (c : AttachConfig) : Name :=
  let v := Text.lower (Text.trimSpace c.onBlock)
  if v ≠ [] then v else "reject".toList

def AttachConfig.attachAction (c : AttachConfig) : AttachOutcome → Option Action
  | .failed _ =>
    if c.failClosed then some (.tempfail 451 "4.7.1".toList "Attachment scan unavailable, try again later".toList)
    else none
  | .judged .block =>
    let blocked := "Blocked: attachment scan".toList
    if c.blockAction = "tempfail".toList then some (.tempfail 451 "4.7.1".toList blocked)
    else if c.blockAction = "quarantine".toList then some .quarantine
    else if c.blockAction = "discard".toList then some .discard
    else some (.reject 550 "5.7.1".toList blocked)
  | _ => none

end Configuration

inductive Judged where
  | refused (reply : Reply)
  | sorted (result : SplitResult)
  deriving Repr, DecidableEq

section Judging
variable [Text.LowerCase]

namespace Session

/-- The distinct domains of the recipients, in the order they were first seen. -/
def rcptDomains (s : Session) : List Name :=
  s.rcpts.foldl (fun seen rs =>
    let d := Text.toLower (domain rs.addr)
    if d = [] ∨ d ∈ seen then seen else seen ++ [d]) []

def arrive (s : Session) (scan : Scan) : Session :=
  { s with
    env := { s.env with
      stage := .data
      msg := some { size := scan.size, lineCount := scan.lines
                    receivedCount := ((scan.headers.lookup "received".toList).getD []).length
                    headers := scan.headers, rcptCount := s.rcpts.length, rcptDomains := s.rcptDomains } } }

def updateMsg (s : Session) (f : MsgEnv → MsgEnv) : Session := { s with env := { s.env with msg := s.env.msg.map f } }

def setTag (s : Session) (key value : Name) : Session := { s with env := s.env.setTag key value }

def inspectBody (b : Backend) (w : World) (s : Session) : Session × AttachOutcome :=
  if !b.scanning && !s.rules.elim false Ruleset.needsMIME then (s, .unasked)
  else
    let walked := w.walk b.attach.includeInline
    let s := s.updateMsg fun m => { m with mimePartCount := walked.partCount, attachments := walked.parts }
    if !b.scanning then (s, .unasked)
    else
      match walked.err with
      | some err => (s.setTag tagAttachScan "error".toList, .failed err)
      | none =>
        match w.scan walked.parts with
        | .error err => (s.setTag tagAttachScan "error".toList, .failed err)
        | .ok verdict => (s.setTag tagAttachScan verdict.text, .judged verdict)

/-- The strongest thing that can be said about the message. -/
def msgAuthVerdict (s : Session) : Name :=
  if s.dmarc.value = resultPass then "dmarc_pass".toList
  else if s.dkim.value = resultPass then "dkim_pass".toList
  else if s.spf.value = resultPass then "spf_pass".toList
  else if s.dmarc.value = resultFail ∨ s.dkim.value = resultFail ∨ s.spf.value = resultFail then "fail".toList
  else "none".toList

def wantsMsgAuth (b : Backend) (s : Session) : Bool := b.wantSPF s.rules || b.wantDKIM s.rules || b.wantDMARC s.rules

def verifyDKIM (b : Backend) (w : World) (s : Session) : Session :=
  match w.verifyDKIM (b.msgAuth.elim 0 MsgAuth.maxDKIMSignatures) with
  | none => s
  | some dkim =>
    { s with dkim }.updateMsg fun m => { m with dkimResult := dkim.value, dkimDomains := dkim.domains }

variable [AuthTexts]

def evaluateDMARC (w : World) (s : Session) : Session :=
  let fromHeader := ((s.env.msg.elim [] MsgEnv.headers).lookup "from".toList).getD []
  let dmarc := w.evaluateDMARC ((fromHeader.head?).elim [] AuthTexts.fromDomainOf) s.spf s.dkim
  { s with dmarc }.updateMsg fun m => { m with dmarcResult := dmarc.value, dmarcPolicy := dmarc.policy }

def authservID (b : Backend) : Name :=
  let named := b.msgAuth.elim [] MsgAuth.authservID
  if named ≠ [] then named else b.hostname

def authHeaders (b : Backend) (s : Session) : List Rules.Header :=
  let ar := AuthTexts.formatAuthResults (authservID b) s.spf s.dkim s.dmarc
  if ar = [] then []
  else
    ⟨"Authentication-Results".toList, ar⟩ ::
      if s.spf.checked then
        [⟨"Received-SPF".toList, AuthTexts.formatReceivedSPF s.spf s.remoteIP (authservID b)⟩]
      else []

def inspectMsgAuth (b : Backend) (w : World) (s : Session) : Session :=
  if !s.wantsMsgAuth b then s
  else
    let s := if b.wantDKIM s.rules then s.verifyDKIM b w else s
    let s := if b.wantDMARC s.rules then s.evaluateDMARC w else s
    let s := s.setTag tagMsgAuth s.msgAuthVerdict
    { s with txnHeaders := s.txnHeaders ++ s.authHeaders b }

def inspect (b : Backend) (w : World) (scan : Scan) (s : Session) : Session × AttachOutcome :=
  let (s, inspected) := (s.arrive scan).inspectBody b w
  (s.inspectMsgAuth b w, inspected)

def dataVerdict (s : Session) : Session × Except Action (Option Drop) :=
  if s.accepted then (s, .ok s.msgDrop)
  else
    let (s, res) := s.policyPass .data
    let s := { s with txnHeaders := s.txnHeaders ++ res.headers }
    (s, match res.action with
      | some (.reject code enhanced message) => .error (.reject code enhanced message)
      | some (.tempfail code enhanced message) => .error (.tempfail code enhanced message)
      | some .discard => .ok (some .discard)
      | some .quarantine => .ok (some .quarantine)
      | _ => .ok s.msgDrop)

variable [CaseFolding]

/-- The blocklist's verdict, when no rule has reached one of its own. -/
def attachVerdict (b : Backend) (s : Session) (inspected : AttachOutcome) (msgDrop : Option Drop) :
    Except Action (Option Drop) :=
  if s.accepted || msgDrop.isSome then .ok msgDrop
  else
    match b.attach.attachAction inspected with
    | some (.reject code enhanced message) => .error (.reject code enhanced message)
    | some (.tempfail code enhanced message) => .error (.tempfail code enhanced message)
    | some .discard => .ok (some .discard)
    | some .quarantine => .ok (some .quarantine)
    | _ => .ok msgDrop

def routingLoop : Action :=
  .reject 554 "5.4.6".toList "Error: routing loop detected (too many Received headers)".toList

def looped (b : Backend) (s : Session) : Bool :=
  0 < b.maxReceivedHeaders ∧ b.maxReceivedHeaders < s.env.msg.elim 0 MsgEnv.receivedCount

def judge (b : Backend) (w : World) (bodyName : Name) (scan : Scan) (s : Session) : Session × Judged :=
  let s := s.arrive scan
  if s.looped b then (s, .refused (smtpError routingLoop))
  else
    let (s, inspected) := s.inspectBody b w
    let s := s.inspectMsgAuth b w
    match s.dataVerdict with
    | (s, .error a) => (s, .refused (smtpError a))
    | (s, .ok msgDrop) =>
      match s.attachVerdict b inspected msgDrop with
      | .error a => (s, .refused (smtpError a))
      | .ok msgDrop => (s, .sorted (s.split bodyName scan.size w.now msgDrop))

end Session

end Judging

/-- What DATA asks of the spool, and of the surroundings of the bouncer. A call of the second kind
    files an envelope in quarantine/. -/
abbrev Filing := Prog (Effect ⊕ Envelope) (Sum.elim Effect.Answer fun _ => Option Chars)

abbrev Filed := Σ call : Effect ⊕ Envelope, Sum.elim Effect.Answer (fun _ => Option Chars) call

def spool (request : Effect) : Filing request.Answer := (perform request).inl

def quarantine (env : Envelope) : Filing (Option Chars) := .call (.inr env) .done

def noRecipients : Reply := ⟨554, (5, 5, 1), "Error: no valid recipients".toList⟩

def cannotQueue : Reply := ⟨451, (4, 3, 0), "Error: cannot queue message".toList⟩

def Backend.spoolRefusal (b : Backend) : BodyFault → Reply
  | .tooLarge => smtpError (.reject 552 "5.3.4".toList
      ("Error: message exceeds the ".toList ++ intText b.maxBytes ++ " byte limit (max.bytes)".toList))
  | .tooLongLine => smtpError (.reject 500 "5.5.2".toList
      ("Error: line longer than ".toList ++ intText b.maxLineLength ++ " bytes (max.line_length)".toList))
  | .tooManyHeaderLines => smtpError (.reject 552 "5.3.4".toList
      ("Error: message header exceeds ".toList ++ intText b.maxHeaderLines ++ " lines (max.header_lines)".toList))
  | .spool => cannotQueue

def Session.queuedReply (s : Session) : Reply := ⟨250, (2, 0, 0), "Message queued (".toList ++ s.txnUUID ++ [')']⟩

def refusal : Action → Int × Name × Name
  | .reject code enhanced message | .tempfail code enhanced message => (code, enhanced, message)
  | _ => (0, [], [])

def enhancedOf (a : Action) : Name :=
  let (code, enhanced, _) := refusal a
  if enhanced ≠ [] then enhanced
  else if 500 ≤ code then "5.7.1".toList
  else "4.7.1".toList

def refusalText (f : FailedRcpt) : Name :=
  let (code, _, message) := refusal f.action
  let msg := if message = [] then "refused by policy".toList else message
  let msg := if f.rule ≠ [] then msg ++ " (rule ".toList ++ f.rule ++ [')'] else msg
  if 0 < code then intText code ++ ' ' :: msg else msg

def FailedRcpt.permanent (f : FailedRcpt) : Bool :=
  match f.action with
  | .reject _ _ _ => true
  | _ => false

def FailedRcpt.describe (f : FailedRcpt) : Dsn.Rcpt where
  addr := f.addr
  origAddr := f.orcpt
  origType := f.orcptType
  status := enhancedOf f.action
  diagnostic := refusalText f

/-- The envelope a notification about refused recipients hangs off. It is never queued. -/
def Session.refusedEnvelope (s : Session) (w : World) (size : Nat) : Envelope where
  uuid := childID s.txnUUID (s.rcpts.length + 1)
  txnUUID := s.txnUUID
  connUUID := s.connUUID
  body := []
  bodySize := size
  mailFrom := s.mailFrom
  rcpts := []
  relayGrp := []
  queuedAt := w.now
  dsnRet := "HDRS".toList
  dsnEnvID := s.dsnEnvID

def fileOne (e : OutEnvelope) : Filing (Option Chars) :=
  if e.quarantined then quarantine e.env else spool (.enqueue e.env)

def fileAll : List OutEnvelope → Filing Bool
  | [] => return true
  | e :: rest => do
    match ← fileOne e with
    | some _ => return false
    | none => fileAll rest

section Recipients
variable [CaseFolding]

def FailedRcpt.wantsFailureDSN (f : FailedRcpt) : Bool :=
  ({ addr := [], notify := f.notify } : Recipient).wantsFailureDSN

/-- Tells the sender about recipients that were refused after the message had been accepted. -/
def Session.bounceRefused (b : Backend) (w : World) (headers : Name) (size : Nat) (failed : List FailedRcpt)
    (s : Session) : Filing Unit :=
  let permanent := failed.filter FailedRcpt.permanent
  if permanent = [] then return ()
  else
    match b.bouncer with
    | none => return ()
    | some bouncer =>
      let rcpts := (permanent.filter FailedRcpt.wantsFailureDSN).map FailedRcpt.describe
      if rcpts = [] then return ()
      else do
        let _ ← (bouncer.bounce (s.refusedEnvelope w size)
          { rcpts, kind := .failed, original := some (Reader.ofBytes (encode headers)) }).inl
        return ()

variable [Text.LowerCase] [AuthTexts]

/-- DATA, once go-smtp has a message for it: the session afterwards, and the reply. `fault` tells
    the errors of a body that was not spooled apart. -/
def Session.data (b : Backend) (w : World) (fault : Chars → BodyFault) (body : Reader) (scan : Scan) (s : Session) :
    Filing (Session × Reply) :=
  if !s.haveMail then return (s, needMail)
  else if s.rcpts = [] then return (s, noRecipients)
  else do
    match ← spool (.writeBody s.txnUUID (.message body)) with
    | .error err => return (s, b.spoolRefusal (fault err))
    | .ok (name, size) =>
      match s.judge b w name { scan with size } with
      | (s, .refused reply) =>
        let _ ← spool (.removeBody name)
        return (s, reply)
      | (s, .sorted split) =>
        if split.envelopes = [] then
          let _ ← spool (.removeBody name)
          match split.failed with
          | f :: _ => return (s, smtpError f.action)
          | [] => return (s, s.queuedReply)
        else
          s.bounceRefused b w scan.rawHeaders size split.failed
          let all ← fileAll split.envelopes
          return (s, if all then s.queuedReply else cannotQueue)

end Recipients

end Mailgw.Smtp
