import Mathlib.Order.Basic
import Mailgw.Queue.Envelope
import Mailgw.Text.Letters

namespace Mailgw.Rules

open Queue

/-- The point in the SMTP conversation at which a field becomes known. -/
inductive Stage where
  | connect | helo | mail | rcpt | data
  deriving Repr, DecidableEq

namespace Stage

def rank : Stage → Nat
  | .connect => 0
  | .helo => 1
  | .mail => 2
  | .rcpt => 3
  | .data => 4

theorem rank_injective : Function.Injective rank := by
  intro a b same
  cases a <;> cases b <;> first | rfl | cases same

instance : LinearOrder Stage := LinearOrder.lift' rank rank_injective

theorem le_iff (a b : Stage) : a ≤ b ↔ a.rank ≤ b.rank := Iff.rfl

theorem le_data (a : Stage) : a ≤ .data := by
  rw [le_iff]
  cases a <;> decide

def parse (s : Name) : Option Stage :=
  let s := Text.lower (Text.trimSpace s)
  if s = "connect".toList then some .connect
  else if s = "helo".toList ∨ s = "ehlo".toList then some .helo
  else if s = "mail".toList ∨ s = "mail_from".toList then some .mail
  else if s = "rcpt".toList ∨ s = "rcpt_to".toList then some .rcpt
  else if s = "data".toList ∨ s = "data_post".toList ∨ s = "eod".toList then some .data
  else none

end Stage

inductive Kind where
  | string | int | bool | ip
  deriving Repr, DecidableEq

/-- A field a rule can match on. The last three are families with a suffix of the author's. -/
inductive Field where
  | connRemoteIP | connRemotePort | connLocalIP | connLocalPort | connIsPrivate | connIsLoopback
  | heloName | connTLS | connTLSVersion | connTLSCipher
  | authAuthenticated | authUser | authMechanism
  | mailFrom | mailFromLocal | mailFromDomain | mailIsNullSender | mailIsDSN | mailSizeDeclared
  | mailBody | mailSMTPUTF8 | mailRequireTLS | spfResult | spfDomain
  | rcptTo | rcptLocal | rcptDomain | rcptIndex | txnRcptCountSoFar
  | msgSize | msgLineCount | msgReceivedCount | msgMimePartCount | msgHasAttachment | txnRcptCount
  | txnRcptDomains | attachmentFilename | attachmentContentType | attachmentMD5 | attachmentSize
  | attachmentDisposition | dkimResult | dkimDomains | dmarcResult | dmarcPolicy
  | header (name : Name) | headerCount (name : Name) | tag (key : Name)
  deriving Repr, DecidableEq

structure FieldDef where
  name : Name
  stage : Stage
  kind : Kind
  list : Bool := false
  ci : Bool := false
  dotGlob : Bool := false
  deriving Repr, DecidableEq

namespace Field

def headerPrefix : Name := "header.".toList
def headerCountPrefix : Name := "header_count.".toList
def tagPrefix : Name := "tag.".toList

def info : Field → FieldDef
  | connRemoteIP => { name := "conn.remote_ip".toList, stage := .connect, kind := .ip }
  | connRemotePort => { name := "conn.remote_port".toList, stage := .connect, kind := .int }
  | connLocalIP => { name := "conn.local_ip".toList, stage := .connect, kind := .ip }
  | connLocalPort => { name := "conn.local_port".toList, stage := .connect, kind := .int }
  | connIsPrivate => { name := "conn.is_private".toList, stage := .connect, kind := .bool }
  | connIsLoopback => { name := "conn.is_loopback".toList, stage := .connect, kind := .bool }
  | heloName => { name := "helo.name".toList, stage := .helo, kind := .string, ci := true, dotGlob := true }
  | connTLS => { name := "conn.tls".toList, stage := .helo, kind := .bool }
  | connTLSVersion => { name := "conn.tls_version".toList, stage := .helo, kind := .string, ci := true }
  | connTLSCipher => { name := "conn.tls_cipher".toList, stage := .helo, kind := .string, ci := true }
  | authAuthenticated => { name := "auth.authenticated".toList, stage := .mail, kind := .bool }
  | authUser => { name := "auth.user".toList, stage := .mail, kind := .string, ci := true }
  | authMechanism => { name := "auth.mechanism".toList, stage := .mail, kind := .string, ci := true }
  | mailFrom => { name := "mail.from".toList, stage := .mail, kind := .string, ci := true }
  | mailFromLocal => { name := "mail.from_local".toList, stage := .mail, kind := .string, ci := true }
  | mailFromDomain =>
    { name := "mail.from_domain".toList, stage := .mail, kind := .string, ci := true, dotGlob := true }
  | mailIsNullSender => { name := "mail.is_null_sender".toList, stage := .mail, kind := .bool }
  | mailIsDSN => { name := "mail.is_dsn".toList, stage := .mail, kind := .bool }
  | mailSizeDeclared => { name := "mail.size_declared".toList, stage := .mail, kind := .int }
  | mailBody => { name := "mail.body".toList, stage := .mail, kind := .string, ci := true }
  | mailSMTPUTF8 => { name := "mail.smtputf8".toList, stage := .mail, kind := .bool }
  | mailRequireTLS => { name := "mail.requiretls".toList, stage := .mail, kind := .bool }
  | spfResult => { name := "spf.result".toList, stage := .mail, kind := .string, ci := true }
  | spfDomain => { name := "spf.domain".toList, stage := .mail, kind := .string, ci := true, dotGlob := true }
  | rcptTo => { name := "rcpt.to".toList, stage := .rcpt, kind := .string, ci := true }
  | rcptLocal => { name := "rcpt.local".toList, stage := .rcpt, kind := .string, ci := true }
  | rcptDomain => { name := "rcpt.domain".toList, stage := .rcpt, kind := .string, ci := true, dotGlob := true }
  | rcptIndex => { name := "rcpt.index".toList, stage := .rcpt, kind := .int }
  | txnRcptCountSoFar => { name := "txn.rcpt_count_so_far".toList, stage := .rcpt, kind := .int }
  | msgSize => { name := "msg.size".toList, stage := .data, kind := .int }
  | msgLineCount => { name := "msg.line_count".toList, stage := .data, kind := .int }
  | msgReceivedCount => { name := "msg.received_count".toList, stage := .data, kind := .int }
  | msgMimePartCount => { name := "msg.mime_part_count".toList, stage := .data, kind := .int }
  | msgHasAttachment => { name := "msg.has_attachment".toList, stage := .data, kind := .bool }
  | txnRcptCount => { name := "txn.rcpt_count".toList, stage := .data, kind := .int }
  | txnRcptDomains =>
    { name := "txn.rcpt_domains".toList, stage := .data, kind := .string, list := true, ci := true, dotGlob := true }
  | attachmentFilename =>
    { name := "attachment.filename".toList, stage := .data, kind := .string, list := true, ci := true }
  | attachmentContentType =>
    { name := "attachment.content_type".toList, stage := .data, kind := .string, list := true, ci := true }
  | attachmentMD5 => { name := "attachment.md5".toList, stage := .data, kind := .string, list := true, ci := true }
  | attachmentSize => { name := "attachment.size".toList, stage := .data, kind := .int, list := true }
  | attachmentDisposition =>
    { name := "attachment.disposition".toList, stage := .data, kind := .string, list := true, ci := true }
  | dkimResult => { name := "dkim.result".toList, stage := .data, kind := .string, ci := true }
  | dkimDomains =>
    { name := "dkim.domains".toList, stage := .data, kind := .string, list := true, ci := true, dotGlob := true }
  | dmarcResult => { name := "dmarc.result".toList, stage := .data, kind := .string, ci := true }
  | dmarcPolicy => { name := "dmarc.policy".toList, stage := .data, kind := .string, ci := true }
  | header name => { name := headerPrefix ++ name, stage := .data, kind := .string, list := true, ci := true }
  | headerCount name => { name := headerCountPrefix ++ name, stage := .data, kind := .int }
  | tag key => { name := tagPrefix ++ key, stage := .connect, kind := .string, ci := true }

def name (f : Field) : Name := f.info.name

def stage (f : Field) : Stage := f.info.stage

def statics : List Field :=
  [connRemoteIP, connRemotePort, connLocalIP, connLocalPort, connIsPrivate, connIsLoopback,
    heloName, connTLS, connTLSVersion, connTLSCipher,
    authAuthenticated, authUser, authMechanism,
    mailFrom, mailFromLocal, mailFromDomain, mailIsNullSender, mailIsDSN, mailSizeDeclared,
    mailBody, mailSMTPUTF8, mailRequireTLS, spfResult, spfDomain,
    rcptTo, rcptLocal, rcptDomain, rcptIndex, txnRcptCountSoFar,
    msgSize, msgLineCount, msgReceivedCount, msgMimePartCount, msgHasAttachment, txnRcptCount,
    txnRcptDomains, attachmentFilename, attachmentContentType, attachmentMD5, attachmentSize,
    attachmentDisposition, dkimResult, dkimDomains, dmarcResult, dmarcPolicy]

def cutPrefix (lead s : Name) : Option Name :=
  if lead <+: s ∧ s ≠ lead then some (s.drop lead.length) else none

def lookup (name : Name) : Option Field :=
  match statics.find? fun f => f.name = name with
  | some f => some f
  | none =>
    match cutPrefix headerPrefix name, cutPrefix headerCountPrefix name, cutPrefix tagPrefix name with
    | some suffix, _, _ => some (header suffix)
    | none, some suffix, _ => some (headerCount suffix)
    | none, none, some suffix => some (tag suffix)
    | none, none, none => none

def needsMIME (f : Field) : Bool :=
  f.name = "msg.has_attachment".toList || f.name = "msg.mime_part_count".toList ||
    "attachment.".toList.isPrefixOf f.name

def needsSPF (f : Field) : Bool := "spf.".toList.isPrefixOf f.name

def needsDKIM (f : Field) : Bool := "dkim.".toList.isPrefixOf f.name

def needsDMARC (f : Field) : Bool := "dmarc.".toList.isPrefixOf f.name

end Field

end Mailgw.Rules
