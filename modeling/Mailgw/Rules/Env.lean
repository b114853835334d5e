import Mailgw.Rules.Schema
import Mailgw.Text.Letters

namespace Mailgw.Rules

open Queue

inductive Addr where
  | invalid
  | v4 (bits : BitVec 32)
  | v6 (bits : BitVec 128) (zone : Name)
  deriving Repr, DecidableEq

namespace Addr

def unmap : Addr → Addr
  | .v6 bits zone => if bits >>> 32 = 0xffff#128 then .v4 (bits.setWidth 32) else .v6 bits zone
  | a => a

def isPrivate (a : Addr) : Bool :=
  match a.unmap with
  | .v4 bits => bits >>> 24 = 10#32 || bits >>> 20 = 0xac1#32 || bits >>> 16 = 0xc0a8#32
  | .v6 bits _ => bits >>> 121 = 0x7e#128
  | .invalid => false

def isLoopback (a : Addr) : Bool :=
  match a.unmap with
  | .v4 bits => bits >>> 24 = 127#32
  | .v6 bits _ => bits = 1#128
  | .invalid => false

end Addr

inductive Scalar where
  | str (s : Name)
  | int (i : Int)
  | bool (b : Bool)
  | ip (a : Addr)
  deriving Repr, DecidableEq

inductive Value where
  | missing
  | one (v : Scalar)
  | many (elems : List Scalar)
  deriving Repr, DecidableEq

def Scalar.nonEmpty : Scalar → Bool
  | .str s => s ≠ []
  | .ip a => a ≠ .invalid
  | .int _ | .bool _ => true

def Value.ofAddr (a : Addr) : Value := if a = .invalid then .missing else .one (.ip a)

def Value.ofStrings (ss : List Name) : Value := .many (ss.map .str)

def Value.ofInts (is : List Int) : Value := .many (is.map .int)

abbrev Tags := List (Name × Name)

def Tags.set (key value : Name) : Tags → Tags
  | [] => [(key, value)]
  | (k, v) :: rest => if k = key then (k, value) :: rest else (k, v) :: Tags.set key value rest

def Tags.get (tags : Tags) (key : Name) : Option Name := tags.lookup key

structure ConnEnv where
  remoteIP : Addr := .invalid
  remotePort : Int := 0
  localIP : Addr := .invalid
  localPort : Int := 0
  deriving Repr, DecidableEq

structure HeloEnv where
  name : Name := []
  tls : Bool := false
  tlsVersion : Name := []
  tlsCipher : Name := []
  authUser : Name := []
  authMechanism : Name := []
  deriving Repr, DecidableEq

structure MailEnv where
  fromAddr : Name
  sizeDeclared : Int := 0
  body : Name := []
  smtpUTF8 : Bool := false
  requireTLS : Bool := false
  isDSN : Bool := false
  spfResult : Name := []
  spfDomain : Name := []
  deriving Repr, DecidableEq

structure RcptEnv where
  toAddr : Name
  index : Int
  countSoFar : Int
  deriving Repr, DecidableEq

structure Attachment where
  filename : Name
  contentType : Name
  md5 : Name
  disposition : Name
  size : Int
  deriving Repr, DecidableEq

structure MsgEnv where
  size : Int := 0
  lineCount : Int := 0
  receivedCount : Int := 0
  mimePartCount : Int := 0
  headers : List (Name × List Name) := []
  attachments : List Attachment := []
  rcptCount : Int := 0
  rcptDomains : List Name := []
  dkimResult : Name := []
  dkimDomains : List Name := []
  dmarcResult : Name := []
  dmarcPolicy : Name := []
  deriving Repr, DecidableEq

/-- What a rule matches against. The parts are absent until their stage is reached. -/
structure Env where
  stage : Stage
  conn : Option ConnEnv := none
  helo : Option HeloEnv := none
  mail : Option MailEnv := none
  rcpt : Option RcptEnv := none
  msg : Option MsgEnv := none
  tags : Tags := []
  deriving Repr, DecidableEq

def domain (addr : Name) : Name :=
  if '@' ∈ addr then (addr.reverse.takeWhile (· ≠ '@')).reverse else []

def localPart (addr : Name) : Name :=
  if '@' ∈ addr then ((addr.reverse.dropWhile (· ≠ '@')).drop 1).reverse else addr

namespace Env

def forRcpt (e : Env) (r : RcptEnv) : Env := { e with rcpt := some r }

def setTag (e : Env) (key value : Name) : Env := { e with tags := e.tags.set key value }

def ofConn (e : Env) (get : ConnEnv → Value) : Value := e.conn.elim .missing get
def ofHelo (e : Env) (get : HeloEnv → Value) : Value := e.helo.elim .missing get
def ofMail (e : Env) (get : MailEnv → Value) : Value := e.mail.elim .missing get
def ofRcpt (e : Env) (get : RcptEnv → Value) : Value := e.rcpt.elim .missing get
def ofMsg (e : Env) (get : MsgEnv → Value) : Value := e.msg.elim .missing get

def checked (result : Name) (v : Value) : Value := if result = [] then .missing else v

def attachStrings (e : Env) (get : Attachment → Name) : Value :=
  e.ofMsg fun m => .ofStrings (m.attachments.map get)

variable [Text.LowerCase]

def lookup (e : Env) : Field → Value
  | .tag key =>
    match e.tags.get key with
    | some v => .one (.str v)
    | none => .missing
  | .header name => e.ofMsg fun m =>
    match m.headers.lookup (Text.toLower name) with
    | some values => .ofStrings values
    | none => .missing
  | .headerCount name => e.ofMsg fun m =>
    .one (.int (((m.headers.lookup (Text.toLower name)).getD []).length : Nat))
  | .connRemoteIP => e.ofConn fun c => .ofAddr c.remoteIP
  | .connRemotePort => e.ofConn fun c => .one (.int c.remotePort)
  | .connLocalIP => e.ofConn fun c => .ofAddr c.localIP
  | .connLocalPort => e.ofConn fun c => .one (.int c.localPort)
  | .connIsPrivate => e.ofConn fun c => .one (.bool c.remoteIP.isPrivate)
  | .connIsLoopback => e.ofConn fun c => .one (.bool c.remoteIP.isLoopback)
  | .heloName => e.ofHelo fun h => .one (.str h.name)
  | .connTLS => e.ofHelo fun h => .one (.bool h.tls)
  | .connTLSVersion => e.ofHelo fun h => .one (.str h.tlsVersion)
  | .connTLSCipher => e.ofHelo fun h => .one (.str h.tlsCipher)
  | .authUser => e.ofHelo fun h => .one (.str h.authUser)
  | .authMechanism => e.ofHelo fun h => .one (.str h.authMechanism)
  | .authAuthenticated => e.ofHelo fun h => .one (.bool (h.authUser ≠ []))
  | .mailFrom => e.ofMail fun m => .one (.str m.fromAddr)
  | .mailFromLocal => e.ofMail fun m => .one (.str (localPart m.fromAddr))
  | .mailFromDomain => e.ofMail fun m => .one (.str (domain m.fromAddr))
  | .mailIsNullSender => e.ofMail fun m => .one (.bool (m.fromAddr = []))
  | .mailIsDSN => e.ofMail fun m => .one (.bool (m.isDSN || m.fromAddr = []))
  | .mailSizeDeclared => e.ofMail fun m => .one (.int m.sizeDeclared)
  | .mailBody => e.ofMail fun m => .one (.str m.body)
  | .mailSMTPUTF8 => e.ofMail fun m => .one (.bool m.smtpUTF8)
  | .mailRequireTLS => e.ofMail fun m => .one (.bool m.requireTLS)
  | .spfResult => e.ofMail fun m => checked m.spfResult (.one (.str m.spfResult))
  | .spfDomain => e.ofMail fun m => checked m.spfResult (.one (.str m.spfDomain))
  | .rcptTo => e.ofRcpt fun r => .one (.str r.toAddr)
  | .rcptLocal => e.ofRcpt fun r => .one (.str (localPart r.toAddr))
  | .rcptDomain => e.ofRcpt fun r => .one (.str (domain r.toAddr))
  | .rcptIndex => e.ofRcpt fun r => .one (.int r.index)
  | .txnRcptCountSoFar => e.ofRcpt fun r => .one (.int r.countSoFar)
  | .msgSize => e.ofMsg fun m => .one (.int m.size)
  | .msgLineCount => e.ofMsg fun m => .one (.int m.lineCount)
  | .msgReceivedCount => e.ofMsg fun m => .one (.int m.receivedCount)
  | .msgMimePartCount => e.ofMsg fun m => .one (.int m.mimePartCount)
  | .msgHasAttachment => e.ofMsg fun m => .one (.bool (0 < m.attachments.length))
  | .txnRcptCount => e.ofMsg fun m => .one (.int m.rcptCount)
  | .txnRcptDomains => e.ofMsg fun m => .ofStrings m.rcptDomains
  | .dkimResult => e.ofMsg fun m => checked m.dkimResult (.one (.str m.dkimResult))
  | .dkimDomains => e.ofMsg fun m => checked m.dkimResult (.ofStrings m.dkimDomains)
  | .dmarcResult => e.ofMsg fun m => checked m.dmarcResult (.one (.str m.dmarcResult))
  | .dmarcPolicy => e.ofMsg fun m => checked m.dmarcResult (.one (.str m.dmarcPolicy))
  | .attachmentFilename => e.attachStrings Attachment.filename
  | .attachmentContentType => e.attachStrings Attachment.contentType
  | .attachmentMD5 => e.attachStrings Attachment.md5
  | .attachmentDisposition => e.attachStrings Attachment.disposition
  | .attachmentSize => e.ofMsg fun m => .ofInts (m.attachments.map Attachment.size)

example (e : Env) (before : e.mail = none) : e.lookup .mailSizeDeclared = .missing := by simp [lookup, ofMail, before]

end Env

end Mailgw.Rules
