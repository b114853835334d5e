import Mailgw.Deliver.Reader
import Mailgw.Text.Letters

namespace Mailgw.Deliver

open Calls

inductive TLSPolicy where
  | none | opportunistic | required
  deriving Repr, DecidableEq

def TLSPolicy.text : TLSPolicy → Chars
  | .none => "none".toList
  | .opportunistic => "opportunistic".toList
  | .required => "required".toList

structure Relay where
  name : Chars
  exchange : Chars
  port : Nat
  authUser : Chars := []
  authPass : Chars := []
  tls : Chars := []
  allowInsecureAuth : Bool := false
  deriving Repr, DecidableEq

namespace Relay

def addr (r : Relay) : Chars := r.exchange ++ ':' :: Nat.toDigits 10 r.port

def tlsPolicy (r : Relay) : TLSPolicy :=
  if Text.lower r.tls = TLSPolicy.none.text then .none
  else if Text.lower r.tls = TLSPolicy.required.text then .required
  else .opportunistic

end Relay

structure SMTPError where
  code : Int
  enhanced : Int × Int × Int
  message : Chars
  deriving Repr, DecidableEq

structure Failure where
  text : Chars
  smtp : Option SMTPError := none
  deriving Repr, DecidableEq

inductive Outcome where
  | delivered | deferred | rejected
  deriving Repr, DecidableEq

structure RcptResult where
  addr : Chars
  outcome : Outcome
  code : Int
  enhanced : Chars := []
  message : Chars
  deriving Repr, DecidableEq

def intText (i : Int) : Chars := if i < 0 then '-' :: Nat.toDigits 10 i.natAbs else Nat.toDigits 10 i.natAbs

/-- A 4xx is retryable and a 5xx is not; anything that is no SMTP reply is treated as retryable. -/
def classify (addr : Chars) (err : Failure) : RcptResult :=
  match err.smtp with
  | some se => {
      addr
      outcome := if 500 ≤ se.code then .rejected else .deferred
      code := se.code
      enhanced := intText se.enhanced.1 ++ '.' :: intText se.enhanced.2.1 ++ '.' :: intText se.enhanced.2.2
      message := Text.trimSpace se.message }
  | none => { addr, outcome := .deferred, code := 451, message := err.text }

/-- The outcome of one attempt against one relay. With `err` set the whole attempt failed, else
    every recipient has an outcome of its own. -/
structure Result where
  relay : Relay
  host : Chars
  ip : Chars := []
  port : Chars
  tls : Bool := false
  tlsForced : Bool
  auth : Bool := false
  tlsDowngraded : Bool := false
  tlsDowngradeReason : Chars := []
  response : Chars := []
  reused : Bool := false
  poolFull : Bool := false
  rcpts : List RcptResult := []
  err : Option Chars := none
  poolable : Bool := false
  messages : Int := 0
  deriving Repr, DecidableEq

structure Message where
  mailFrom : Chars
  rcpts : List Chars
  body : Reader
  smtpUTF8 : Bool := false
  body8Bit : Bool := false
  deriving Repr, DecidableEq

structure TLSConfig where
  serverName : Chars
  insecureSkipVerify : Bool := false
  minVersion : Nat := 0
  deriving Repr, DecidableEq

structure Pool where
  maxPerRelay : Int
  maxTotal : Int
  maxMessages : Int
  idleTimeout : Int
  deriving Repr, DecidableEq

structure Options where
  localName : Chars
  tlsConfig : Option TLSConfig := none
  pool : Option Pool := none
  deriving Repr, DecidableEq

def Options.withDefaults (opts : Options) : Options :=
  if opts.localName = [] then { opts with localName := "localhost".toList } else opts

structure Socket where
  id : Nat
  peer : Option Chars
  deriving Repr, DecidableEq

structure Pooled where
  socket : Socket
  messages : Int
  usedAt : Int
  deriving Repr, DecidableEq

structure Admission where
  beyond : Bool
  full : Bool
  deriving Repr, DecidableEq

structure MailOptions where
  utf8 : Bool
  body8Bit : Bool
  deriving Repr, DecidableEq

structure Written where
  taken : Nat
  err : Option Chars
  deriving Repr, DecidableEq

/-- What a delivery asks of the SMTP client library, of the clock and of the locked sections of
    the pool. -/
inductive Net where
  | take (key : Chars)
  | shelve (key : Chars) (socket : Socket) (messages : Int)
  | expired
  | drain
  | clock
  | dial (addr : Chars)
  | startTLS (socket : Socket) (config : TLSConfig)
  | hello (socket : Socket) (localName : Chars)
  | extension (socket : Socket) (name : Chars)
  | auth (socket : Socket) (user pass : Chars)
  | mail (socket : Socket) (sender : Chars) (opts : MailOptions)
  | rcpt (socket : Socket) (addr : Chars)
  | data (socket : Socket)
  | write (socket : Socket) (chunk : Bytes)
  | close (socket : Socket)
  | closeWithResponse (socket : Socket)
  | reset (socket : Socket)
  | quit (socket : Socket)
  | hangUp (socket : Socket)
  deriving Repr, DecidableEq

abbrev Net.Answer : Net → Type
  | .take _ => Option Pooled
  | .shelve _ _ _ => Admission
  | .expired | .drain => List Pooled
  | .clock => Int
  | .dial _ => Except Chars Socket
  | .startTLS _ _ | .hello _ _ | .auth _ _ _ | .close _ | .reset _ | .quit _ => Option Chars
  | .extension _ _ => Bool
  | .mail _ _ _ | .rcpt _ _ | .data _ => Option Failure
  | .write _ _ => Written
  | .closeWithResponse _ => Except Failure Chars
  | .hangUp _ => Unit

abbrev Client := Prog Net Net.Answer

abbrev ask (request : Net) : Client request.Answer := Prog.ask request

def quietQuit (socket : Socket) : Client Unit := do
  match ← ask (.quit socket) with
  | some _ => ask (.hangUp socket)
  | none => return ()

def poolKey (relay : Relay) (opts : Options) : Chars :=
  relay.addr ++ '\x00' :: relay.authUser ++ '\x00' :: relay.tlsPolicy.text ++ '\x00' :: opts.localName

namespace Pool

inductive Got where
  | nothing
  | again
  | found (conn : Pooled)

/-- One round of the search for a usable connection: a stale or dead one is closed and the
    search goes on. -/
def get (pool : Pool) (relay : Relay) (opts : Options) : Client Got := do
  match ← ask (.take (poolKey relay opts)) with
  | none => return .nothing
  | some conn =>
    let now ← ask .clock
    if 0 < pool.idleTimeout ∧ pool.idleTimeout < now - conn.usedAt then
      quietQuit conn.socket
      return .again
    else
      match ← ask (.reset conn.socket) with
      | some _ =>
        ask (.hangUp conn.socket)
        return .again
      | none => return .found conn

/-- Reports whether the global limit turned the connection away. -/
def put (pool : Pool) (relay : Relay) (opts : Options) (socket : Socket) (messages : Int) : Client Bool := do
  if 0 < pool.maxMessages ∧ pool.maxMessages ≤ messages then
    quietQuit socket
    return false
  else
    let verdict ← ask (.shelve (poolKey relay opts) socket messages)
    if verdict.beyond then
      quietQuit socket
      return verdict.full
    else return verdict.full

def discard (socket : Socket) : Client Unit := quietQuit socket

def closeAll : List Pooled → Client Unit
  | [] => return ()
  | conn :: rest => do
    quietQuit conn.socket
    closeAll rest

def reap : Client Unit := do
  let out ← ask .expired
  closeAll out

def close : Client Unit := do
  let all ← ask .drain
  closeAll all

end Pool

def recordPeer (socket : Socket) (res : Result) : Result :=
  match socket.peer with
  | some ip => { res with ip }
  | none => res

inductive Acquired where
  | nothing
  | again
  | borrowed (socket : Socket) (res : Result)

/-- A reused connection carries no fresh handshake: the result is filled in from what the relay
    configuration states. -/
def acquire (relay : Relay) (opts : Options) (res : Result) : Client Acquired := do
  match opts.pool with
  | none => return .nothing
  | some pool =>
    match ← pool.get relay opts with
    | .nothing => return .nothing
    | .again => return .again
    | .found conn => return .borrowed conn.socket (recordPeer conn.socket { res with
        host := relay.exchange
        port := Nat.toDigits 10 relay.port
        tls := relay.tlsPolicy ≠ .none
        auth := relay.authUser ≠ []
        messages := conn.messages })

def versionTLS12 : Nat := 0x0303

/-- Opportunistic encryption does not verify; required encryption verifies and never falls back. -/
def tlsConfigFor (relay : Relay) (opts : Options) : TLSConfig :=
  let cfg := match opts.tlsConfig with
    | none => { serverName := relay.exchange }
    | some base => { base with serverName := if base.serverName = [] then relay.exchange else base.serverName }
  let cfg := if relay.tlsPolicy = .opportunistic then { cfg with insecureSkipVerify := true } else cfg
  if cfg.minVersion = 0 then { cfg with minVersion := versionTLS12 } else cfg

def dialFailed (relay : Relay) (err : Chars) : Chars :=
  "dial ".toList ++ relay.addr ++ ": ".toList ++ err

def connectPlain (relay : Relay) (opts : Options) (res : Result) : Client (Result × Except Chars Socket) := do
  match ← ask (.dial relay.addr) with
  | .error err => return (res, .error (dialFailed relay err))
  | .ok socket =>
    let res := recordPeer socket res
    match ← ask (.hello socket opts.localName) with
    | some err =>
      ask (.hangUp socket)
      return (res, .error ("EHLO: ".toList ++ err))
    | none => return (res, .ok socket)

/-- Dials the relay, applies its TLS policy and says hello. A failed STARTTLS costs the
    connection; only the opportunistic policy dials again, in the clear. -/
def connect (relay : Relay) (opts : Options) (res : Result) : Client (Result × Except Chars Socket) := do
  if relay.tlsPolicy = .none then connectPlain relay opts res
  else
    match ← ask (.dial relay.addr) with
    | .error err => return (res, .error (dialFailed relay err))
    | .ok socket =>
      let res := recordPeer socket res
      match ← ask (.startTLS socket (tlsConfigFor relay opts)) with
      | none =>
        match ← ask (.hello socket opts.localName) with
        | some err =>
          ask (.hangUp socket)
          return (res, .error ("EHLO after STARTTLS: ".toList ++ err))
        | none => return ({ res with tls := true }, .ok socket)
      | some err =>
        if relay.tlsPolicy = .required then
          return (res, .error
            ("relay ".toList ++ relay.name ++ " requires TLS but STARTTLS failed: ".toList ++ err))
        else connectPlain relay opts { res with tls := false, tlsDowngraded := true, tlsDowngradeReason := err }

def authenticate (relay : Relay) (socket : Socket) (res : Result) : Client (Result × Option Chars) := do
  if relay.authUser = [] then return (res, none)
  else if !res.tls && !relay.allowInsecureAuth then
    return (res, some ("relay ".toList ++ relay.name ++
      ": refusing to AUTH over an unencrypted connection (set allow_insecure_auth to override)".toList))
  else
    let offered ← ask (.extension socket "AUTH".toList)
    if !offered then
      return (res, some ("relay ".toList ++ relay.name ++ ": credentials configured but AUTH is not offered".toList))
    else
      match ← ask (.auth socket relay.authUser relay.authPass) with
      | some err => return (res, some ("AUTH with ".toList ++ relay.name ++ ": ".toList ++ err))
      | none => return ({ res with auth := true }, none)

def Written.failure (answer : Written) (chunk : Bytes) : Option Chars :=
  if chunk.length < answer.taken then some (answer.err.getD "invalid write result".toList)
  else match answer.err with
    | some err => some err
    | none => if answer.taken ≠ chunk.length then some "short write".toList else none

def copy (socket : Socket) (broken : Option Break) : List Bytes → Client (Option Chars)
  | [] => return broken.map Break.err
  | chunk :: rest =>
    if chunk = [] then copy socket broken rest
    else do
      let answer ← ask (.write socket chunk)
      match answer.failure chunk with
      | some err => return some err
      | none => copy socket broken rest

/-- Probes an extension only for a message that needs it. -/
def probe (needed : Bool) (socket : Socket) (name : Chars) : Client Bool :=
  if needed then ask (.extension socket name) else return false

/-- Offers the recipients one by one: one bad address does not sink the others. -/
def offer (socket : Socket) : List Chars → Result → Client (List Chars × Result)
  | [], res => return ([], res)
  | addr :: rest, res => do
    match ← ask (.rcpt socket addr) with
    | some err => offer socket rest { res with rcpts := res.rcpts ++ [classify addr err] }
    | none =>
      let (accepted, res) ← offer socket rest res
      return (addr :: accepted, res)

namespace Result

def refused (res : Result) (accepted : List Chars) (err : Failure) : Result :=
  { res with rcpts := res.rcpts ++ accepted.map fun addr => classify addr err }

def completed (res : Result) : Result := { res with messages := res.messages + 1, poolable := true }

def delivered (res : Result) (accepted : List Chars) (status : Chars) : Result :=
  let response := if Text.trimSpace status = [] then "250 OK".toList else Text.trimSpace status
  completed { res with
    response
    rcpts := res.rcpts ++ accepted.map fun addr =>
      { addr, outcome := .delivered, code := 250, message := response } }

end Result

/-- The DATA phase. Closing the writer is what ends the message at the relay. -/
def sendBody (socket : Socket) (body : Reader) (accepted : List Chars) (res : Result) : Client Result := do
  match ← ask (.data socket) with
  | some err => return res.refused accepted err
  | none =>
    match ← copy socket body.broken body.chunks with
    | some err =>
      let _ ← ask (.close socket)
      return { res with err := some ("write body: ".toList ++ err) }
    | none =>
      match ← ask (.closeWithResponse socket) with
      | .error err => return res.refused accepted err
      | .ok status => return res.delivered accepted status

def transaction (socket : Socket) (msg : Message) (res : Result) : Client Result := do
  let utf8 ← probe msg.smtpUTF8 socket "SMTPUTF8".toList
  let body8Bit ← probe msg.body8Bit socket "8BITMIME".toList
  match ← ask (.mail socket msg.mailFrom { utf8, body8Bit }) with
  | some err => return { res with err := some ("MAIL FROM: ".toList ++ err.text) }
  | none =>
    let (accepted, res) ← offer socket msg.rcpts res
    if accepted = [] then return res.completed
    else sendBody socket msg.body accepted res

def release (relay : Relay) (opts : Options) (socket : Socket) (res : Result) : Client Result := do
  match opts.pool with
  | none =>
    quietQuit socket
    return res
  | some pool =>
    if res.err = none ∧ res.poolable then
      let poolFull ← pool.put relay opts socket res.messages
      return { res with poolFull }
    else
      Pool.discard socket
      return res

def Result.start (relay : Relay) : Result where
  relay
  host := relay.exchange
  port := Nat.toDigits 10 relay.port
  tlsForced := relay.tlsPolicy = .required

/-- One attempt against one relay. Nothing is returned while the search of the pool goes on. -/
def deliver (relay : Relay) (msg : Message) (opts : Options) : Client (Option Result) := do
  let opts := opts.withDefaults
  let res := Result.start relay
  match ← acquire relay opts res with
  | .again => return none
  | .borrowed socket res =>
    let res ← transaction socket msg { res with reused := true }
    some <$> release relay opts socket res
  | .nothing =>
    match ← connect relay opts res with
    | (res, .error err) => return some { res with err := some err }
    | (res, .ok socket) =>
      match ← authenticate relay socket res with
      | (res, some err) =>
        ask (.hangUp socket)
        return some { res with err := some err }
      | (res, none) =>
        let res ← transaction socket msg res
        some <$> release relay opts socket res

end Mailgw.Deliver
