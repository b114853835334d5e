import Mailgw.Proxyproto.Netip
import Mailgw.Rules.Operators
import Mailgw.Text.Buffered

namespace Mailgw.Proxyproto

open Bits Text
open Deliver (Bytes)
open Rules (Addr Prefix)

inductive Malformed where
  | overflows
  | unterminated
  | tooLong (n : Nat)
  | noCRLF
  | protocol (name : Bytes)
  | fields (proto : Bytes) (n : Nat)
  | source (text : Bytes)
  | destination (text : Bytes)
  | family (proto : Bytes)
  | sourcePort (text : Bytes)
  | destinationPort (text : Bytes)
  | truncated
  | version (v : UInt8)
  | command (cmd : UInt8)
  | transport (fam proto : UInt8)
  | block (wants length : Nat)
  | blockTruncated
  | trailing
  deriving Repr, DecidableEq

inductive ConnErr where
  | eof
  | other (text : Deliver.Chars)
  deriving Repr, DecidableEq

inductive ProxyErr where
  | untrusted
  | noHeader
  | malformed (what : Malformed)
  | conn (err : ConnErr)
  deriving Repr, DecidableEq

def v2Sig : Bytes := [0x0d, 0x0a, 0x0d, 0x0a, 0x00, 0x0d, 0x0a, 0x51, 0x55, 0x49, 0x54, 0x0a]

def v1Prefix : Bytes := ascii "PROXY ".toList

def v1MaxLen : Nat := 107

def cmdLocal : UInt8 := 0
def cmdProxy : UInt8 := 1
def famUnspec : UInt8 := 0
def famINET : UInt8 := 1
def famINET6 : UInt8 := 2
def protoStream : UInt8 := 1

structure AddrPort where
  addr : Addr := .invalid
  port : UInt16 := 0
  deriving Repr, DecidableEq

/-- What one header claims. Without addresses the real peer stands. -/
structure Header where
  src : AddrPort := {}
  dst : AddrPort := {}
  deriving Repr, DecidableEq

def Header.proxied (h : Header) : Bool := h.src.addr ≠ .invalid

structure Parsed where
  header : Header := {}
  err : Option ProxyErr := none
  deriving Repr, DecidableEq

def malformed (what : Malformed) : Parsed := { err := some (.malformed what) }

def fieldsOf : Bytes → List Bytes
  | [] => [[]]
  | c :: rest =>
    if c = SP then [] :: fieldsOf rest
    else
      match fieldsOf rest with
      | [] => [[c]]
      | first :: more => (c :: first) :: more

def digitsValue (s : Bytes) : Nat := s.foldl (fun n c => n * 10 + (c.toNat - 48)) 0

/-- An unsigned decimal number of at most sixteen bits. Leading zeros do not matter. -/
def parsePort (s : Bytes) : Option UInt16 :=
  if s = [] ∨ ¬ s.all isDigit then none
  else if 65535 < digitsValue s then none else some (UInt16.ofNat (digitsValue s))

def is4 : Addr → Bool
  | .v4 _ => true
  | _ => false

def parseLine (line : Bytes) : Parsed :=
  match fieldsOf line with
  | proxy :: proto :: rest =>
    if proxy ≠ ascii "PROXY".toList then { err := some .noHeader }
    else if proto = ascii "UNKNOWN".toList then {}
    else if proto ≠ ascii "TCP4".toList ∧ proto ≠ ascii "TCP6".toList then malformed (.protocol proto)
    else
      match rest with
      | [srcText, dstText, sportText, dportText] =>
        match parseAddr srcText with
        | none => malformed (.source srcText)
        | some src =>
          match parseAddr dstText with
          | none => malformed (.destination dstText)
          | some dst =>
            if decide (proto = ascii "TCP4".toList) ≠ (is4 src && is4 dst) then malformed (.family proto)
            else
              match parsePort sportText with
              | none => malformed (.sourcePort sportText)
              | some sport =>
                match parsePort dportText with
                | none => malformed (.destinationPort dportText)
                | some dport => { header := ⟨⟨src, sport⟩, ⟨dst, dport⟩⟩ }
      | _ => malformed (.fields proto (2 + rest.length))
  | _ => { err := some .noHeader }

abbrev Conn := Wire ConnErr

def parseV1 (br : Buffered ConnErr) : Parsed × Buffered ConnErr :=
  let got := br.readSlice LF
  match got.1 with
  | .error .bufferFull => (malformed .overflows, got.2)
  | .error (.ended .eof) => (malformed .unterminated, got.2)
  | .error (.ended err) => ({ err := some (.conn err) }, got.2)
  | .ok line =>
    if v1MaxLen < line.length then (malformed (.tooLong line.length), got.2)
    else if ¬ CRLF <:+ line then (malformed .noCRLF, got.2)
    else (parseLine (line.take (line.length - 2)), got.2)

def decodeV2 (fam : UInt8) (b : Bytes) : Header :=
  if fam = famINET then
    ⟨⟨addrFrom4 (b.take 4), UInt16.ofNat (ofBE ((b.drop 8).take 2))⟩,
      ⟨addrFrom4 ((b.drop 4).take 4), UInt16.ofNat (ofBE ((b.drop 10).take 2))⟩⟩
  else
    ⟨⟨addrFrom16 (b.take 16), UInt16.ofNat (ofBE ((b.drop 32).take 2))⟩,
      ⟨addrFrom16 ((b.drop 16).take 16), UInt16.ofNat (ofBE ((b.drop 34).take 2))⟩⟩

/-- How much of the address block is wanted. Everything else is skipped. -/
def wanted (cmd fam proto : UInt8) : Except Malformed Nat :=
  if cmd = cmdLocal then .ok 0
  else if cmd ≠ cmdProxy then .error (.command cmd)
  else if fam = famINET ∧ proto = protoStream then .ok 12
  else if fam = famINET6 ∧ proto = protoStream then .ok 36
  else if fam = famINET ∨ fam = famINET6 then .error (.transport fam proto)
  else .ok 0

def parseV2 (br : Buffered ConnErr) : Parsed × Buffered ConnErr :=
  let hdr := br.readFull 16
  if hdr.err.isSome then (malformed .truncated, hdr.left)
  else
    let verCmd := hdr.bytes.getD 12 0
    let famProto := hdr.bytes.getD 13 0
    let n := ofBE ((hdr.bytes.drop 14).take 2)
    let fam := famProto >>> 4
    if verCmd >>> 4 ≠ 2 then (malformed (.version (verCmd >>> 4)), hdr.left)
    else
      match wanted (verCmd &&& 0x0f) fam (famProto &&& 0x0f) with
      | .error what => (malformed what, hdr.left)
      | .ok take =>
        if n < take then (malformed (.block take n), hdr.left)
        else
          let block := if 0 < take then hdr.left.readFull take else ⟨[], none, hdr.left⟩
          if block.err.isSome then (malformed .blockTruncated, block.left)
          else
            let h := if 0 < take then decodeV2 fam block.bytes else {}
            let rest := if 0 < n - take then block.left.discard (n - take) else ⟨[], none, block.left⟩
            if rest.err.isSome then (malformed .trailing, rest.left) else ({ header := h }, rest.left)

def parse (br : Buffered ConnErr) : Parsed × Buffered ConnErr :=
  let sig := br.peek v2Sig.length
  match sig.err with
  | some .eof => ({ err := some .noHeader }, sig.left)
  | some err => ({ err := some (.conn err) }, sig.left)
  | none =>
    if sig.bytes = v2Sig then parseV2 sig.left
    else if ¬ v1Prefix <+: sig.bytes then ({ err := some .noHeader }, sig.left)
    else parseV1 sig.left

/-- Room for the longest line of the text form and whatever the peer sends along with it. -/
def hdrBufSize : Nat := 256

structure Socket where
  remote : AddrPort
  localAddr : AddrPort
  wire : Conn
  deriving Repr, DecidableEq

structure Wrapped where
  remote : AddrPort
  localAddr : AddrPort
  rest : Bytes
  raw : Conn
  deriving Repr, DecidableEq

def trusts (prefixes : List Prefix) (a : Addr) : Bool :=
  if a = .invalid then false else prefixes.any fun p => p.contains a.unmap

def wrap (trusted : List Prefix) (raw : Socket) : Except ProxyErr Wrapped :=
  if !trusts trusted raw.remote.addr.unmap then .error .untrusted
  else
    let got := parse { size := hdrBufSize, rd := raw.wire }
    match got.1.err with
    | some err => .error err
    | none =>
      let h := got.1.header
      let c : Wrapped := ⟨raw.remote, raw.localAddr, got.2.buf, got.2.rd⟩
      if h.proxied then
        .ok { c with remote := h.src, localAddr := if h.dst.addr ≠ .invalid then h.dst else raw.localAddr }
      else .ok c

/-- Serves what was read past the header before the socket. -/
def Wrapped.read (c : Wrapped) (ask : Ask) : Got ConnErr Wrapped :=
  if c.rest ≠ [] then ⟨c.rest.take ask.size, none, { c with rest := c.rest.drop ask.size }⟩
  else
    let got := c.raw.read ask
    ⟨got.bytes, got.err, { c with raw := got.left }⟩

end Mailgw.Proxyproto
