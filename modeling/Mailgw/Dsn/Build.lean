import Mailgw.Dsn.Report
import Mailgw.Text.Letters
import Mailgw.Text.Dates

namespace Mailgw.Dsn

open Deliver Text

def Kind.action : Kind → Chars
  | .failed => "failed".toList
  | .delayed => "delayed".toList
  | .relayed => "relayed".toList

def Kind.subject : Kind → Chars
  | .failed => "Delivery Status Notification (Failure)".toList
  | .delayed => "Delivery Status Notification (Delay)".toList
  | .relayed => "Delivery Status Notification (Relayed)".toList

def boundary : Chars := "=_mailgw_dsn_boundary_ac2f19d0_=".toList

def crlf : Chars := "\r\n".toList

def clean (s : Chars) : Chars := s.map fun c => if c = '\r' ∨ c = '\n' then ' ' else c

def foldedLines : Chars → List Chars
  | [] => [[]]
  | '\r' :: '\n' :: '\t' :: rest => [] :: foldedLines rest
  | c :: rest => consFirst c (foldedLines rest)

def header (name value : Chars) : Chars :=
  clean name ++ ": ".toList ++ "\r\n\t".toList.intercalate ((foldedLines value).map clean) ++ crlf

def part (contentType : Chars) : Chars :=
  "--".toList ++ boundary ++ crlf ++ header "Content-Type".toList contentType ++ crlf

def hexDigit (n : Nat) : Char := if n < 10 then Char.ofNat (48 + n) else Char.ofNat (55 + n)

def xtext (s : Chars) : Chars :=
  (encode s).flatMap fun b =>
    let c := Char.ofNat b.toNat
    if c < '!' ∨ '~' < c ∨ c = '+' ∨ c = '=' then ['+', hexDigit (b.toNat / 16), hexDigit (b.toNat % 16)] else [c]

def Kind.class : Kind → Char
  | .failed => '5'
  | .delayed => '4'
  | .relayed => '2'

/-- A status, with the class of the report where it is of another. -/
def status (s : Chars) (k : Kind) : Chars :=
  match clean (trimSpace s) with
  | [] => k.class :: ".0.0".toList
  | c :: rest => if c ≠ k.class ∧ (c = '2' ∨ c = '4' ∨ c = '5') then k.class :: rest else c :: rest

def diagnostic (s : Chars) : Chars :=
  let s := clean (trimSpace s)
  if 3 ≤ s.length ∧ (s.take 3).all Char.isDigit then "smtp; ".toList ++ s else "X-Local; ".toList ++ s

section Writers
variable [Zone]

def topFields (r : Report) : Chars :=
  header "Received".toList ("by ".toList ++ r.reportingMTA ++ " (mailgw-go) id ".toList ++ r.originalID ++ "; ".toList ++
    rfc1123Z r.now) ++
  header "X-NGM-Gateway".toList "go".toList ++
  header "Date".toList (rfc1123Z r.now) ++
  header "From".toList ("Mail Delivery System <".toList ++ r.fromAddr ++ ">".toList) ++
  header "To".toList ("<".toList ++ r.toAddr ++ ">".toList) ++
  header "Subject".toList r.kind.subject ++
  (if r.messageID ≠ [] then header "Message-ID".toList ("<".toList ++ r.messageID ++ ">".toList) else []) ++
  (if r.originalID ≠ [] then
    header "References".toList ("<".toList ++ r.originalID ++ "@".toList ++ r.reportingMTA ++ ">".toList) else []) ++
  header "Auto-Submitted".toList "auto-replied".toList ++
  header "MIME-Version".toList "1.0".toList ++
  header "Content-Type".toList ("multipart/report; report-type=delivery-status;\r\n\tboundary=\"".toList ++ boundary ++
    "\"".toList)

def writeTop (r : Report) : Chars :=
  topFields r ++ crlf ++ "This is a MIME-encapsulated message.".toList ++ crlf ++ crlf

def explanation (r : Report) : Chars :=
  match r.kind with
  | .delayed =>
    "Your message has not yet been delivered. The mail system will keep".toList ++ crlf ++
    ("trying. You do not need to resend it.".toList ++ crlf) ++
    (match r.retryUntil with
      | none => []
      | some until_ => crlf ++ ("Delivery will be attempted until ".toList ++ rfc1123Z until_ ++ ".".toList ++ crlf))
  | .relayed =>
    "Your message has been relayed to the next mail system, as you".toList ++ crlf ++
    ("requested with NOTIFY=SUCCESS. This is not confirmation that it".toList ++ crlf) ++
    ("reached the recipient's mailbox, and no further notification will".toList ++ crlf) ++
    ("be sent for these recipients.".toList ++ crlf)
  | .failed =>
    "Your message could not be delivered to one or more recipients.".toList ++ crlf ++
    ("No further attempts will be made.".toList ++ crlf)

def outcome (rc : Rcpt) : Chars :=
  "  <".toList ++ clean rc.addr ++ ">".toList ++ crlf ++
  (if rc.diagnostic ≠ [] then "    ".toList ++ clean rc.diagnostic ++ crlf else [])

def humanText (r : Report) : Chars :=
  "This is the mail system at ".toList ++ r.reportingMTA ++ ".".toList ++ crlf ++
    (crlf ++ explanation r ++ crlf ++ r.rcpts.flatMap outcome)

def writeHuman (r : Report) : Chars := part "text/plain; charset=utf-8".toList ++ humanText r ++ crlf

def messageFields (r : Report) : Chars :=
  header "Reporting-MTA".toList ("dns; ".toList ++ clean r.reportingMTA) ++
  (if r.envelopeID ≠ [] then header "Original-Envelope-Id".toList (xtext r.envelopeID) else []) ++
  (if r.originalID ≠ [] then header "X-NGM-Original-Envelope".toList (clean r.originalID) else []) ++
  (if r.arrivalDate ≠ zeroTime then header "Arrival-Date".toList (rfc1123Z r.arrivalDate) else [])

variable [LowerCase]

def rcptFields (r : Report) (rc : Rcpt) : Chars :=
  (if rc.origAddr ≠ [] then
    let t := toLower rc.origType
    let t := if t = [] then "rfc822".toList else t
    header "Original-Recipient".toList (clean t ++ "; ".toList ++ xtext rc.origAddr) else []) ++
  header "Final-Recipient".toList ("rfc822; ".toList ++ clean rc.addr) ++
  header "Action".toList r.kind.action ++
  header "Status".toList (status rc.status r.kind) ++
  (if rc.remoteMTA ≠ [] then header "Remote-MTA".toList ("dns; ".toList ++ clean rc.remoteMTA) else []) ++
  (if rc.diagnostic ≠ [] then header "Diagnostic-Code".toList (diagnostic rc.diagnostic) else []) ++
  header "Last-Attempt-Date".toList (rfc1123Z (rc.lastAttempt.getD r.now))

def statusText (r : Report) : Chars := messageFields r ++ r.rcpts.flatMap fun rc => crlf ++ rcptFields r rc

def writeStatus (r : Report) : Chars := part "message/delivery-status".toList ++ statusText r ++ crlf

def originalType (r : Report) : Chars :=
  if r.full then "message/rfc822".toList else "text/rfc822-headers".toList

/-- The original is quoted as it is, and the boundary after it begins a line of its own. -/
def writeOriginal (r : Report) : Bytes :=
  match r.original with
  | none => []
  | some original =>
    let buf := original.readable
    encode (part (originalType r)) ++ buf ++ (if buf ≠ [] ∧ ¬ [LF] <:+ buf then CRLF else []) ++ CRLF

def text (r : Report) : Bytes :=
  encode (writeTop r ++ writeHuman r ++ writeStatus r) ++ writeOriginal r ++
    encode ("--".toList ++ boundary ++ "--".toList ++ crlf)

def render (r : Report) : Except Chars Bytes := (build r).map text

end Writers

end Mailgw.Dsn
