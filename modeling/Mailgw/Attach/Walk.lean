import Mailgw.Deliver.Reader
import Mailgw.Queue.Envelope
import Mailgw.Text.Letters

namespace Mailgw.Attach

open Deliver Text
open Queue (CaseFolding equalFold)

abbrev Header := List (Chars × Chars)

abbrev Params := List (Chars × Chars)

def get (fields : List (Chars × Chars)) (name : Chars) : Chars :=
  ((fields.find? fun field => field.1 = name).map Prod.snd).getD []

structure Body where
  bytes : Bytes
  err : Option Chars := none
  deriving Repr, DecidableEq

structure RawPart where
  header : Header
  body : Body
  deriving Repr, DecidableEq

structure Head where
  header : Header
  err : Option Chars := none
  rest : Body
  deriving Repr, DecidableEq

/-- What the walk takes from the standard library: header blocks and media types, the parts of a multipart
    body with the error after them unless it comes to its end, encoded words, transfer encodings and digests. -/
class Mime where
  readMIMEHeader : Body → Head
  rawParts : Chars → Body → List RawPart × Option Chars
  parseMediaType : Chars → Option (Chars × Params)
  decodeHeader : Chars → Option Chars
  base64 : Body → Except Chars Bytes
  quotedPrintable : Body → Except Chars Bytes
  md5 : Bytes → Chars

def maxParts : Nat := 500
def maxDepth : Nat := 20

inductive WalkErr where
  | truncated
  | headers (err : Chars)
  | noBoundary (mediaType : Chars)
  | multipart (mediaType err : Chars)
  | decode (err : Chars)
  | drain (err : Chars)
  deriving Repr, DecidableEq

structure Options where
  includeInline : Bool
  deriving Repr, DecidableEq

structure Part where
  filename : Chars
  contentType : Chars
  md5 : Chars
  disposition : Chars
  size : Nat
  deriving Repr, DecidableEq

structure Result where
  partCount : Nat := 0
  parts : List Part := []
  deriving Repr, DecidableEq

def firstNonEmpty : List Chars → Chars
  | [] => []
  | v :: rest => if v ≠ [] then v else firstNonEmpty rest

def stripSpace (r : Body) : Body :=
  { r with bytes := r.bytes.filter fun b => b ≠ SP ∧ b ≠ HTAB ∧ b ≠ CR ∧ b ≠ LF }

def Body.readAll (r : Body) : Except Chars Bytes :=
  match r.err with
  | none => .ok r.bytes
  | some err => .error err

section Walk
variable [LowerCase] [CaseFolding] [Mime]

/-- A media type and its parameters. What is not understood of a type stands as it is, up to its parameters. -/
def parseMedia (v fallback : Chars) : Chars × Params :=
  if trimSpace v = [] then (fallback, [])
  else
    match Mime.parseMediaType v with
    | some (mt, params) => (mt, params)
    | none => (toLower (trimSpace (v.takeWhile (· ≠ ';'))), [])

def decodeWord (s : Chars) : Chars :=
  if s = [] ∨ ¬ "=?".toList <:+: s then s else (Mime.decodeHeader s).getD s

def isBodyPart (mediaType : Chars) : Bool :=
  toLower mediaType = "text/plain".toList || toLower mediaType = "text/html".toList

def isAttachment (mediaType disposition filename : Chars) (opts : Options) : Bool :=
  if equalFold disposition "attachment".toList then true
  else if filename ≠ [] then true
  else if !opts.includeInline then false
  else !isBodyPart mediaType

def decoded (r : Body) (encoding : Chars) : Except Chars Bytes :=
  let encoding := toLower (trimSpace encoding)
  if encoding = "base64".toList then Mime.base64 (stripSpace r)
  else if encoding = "quoted-printable".toList then Mime.quotedPrintable r
  else r.readAll

def hashDecoded (r : Body) (encoding : Chars) : Except WalkErr (Chars × Nat) :=
  match decoded r encoding with
  | .error err => .error (.decode err)
  | .ok content => .ok (Mime.md5 content, content.length)

def leaf (res : Result) (hdr : Header) (r : Body) (mediaType : Chars) (ctParams : Params) (opts : Options) :
    Result × Option WalkErr :=
  let disposition := parseMedia (get hdr "Content-Disposition".toList) []
  let filename := decodeWord (firstNonEmpty [get disposition.2 "filename".toList, get ctParams "name".toList])
  if !isAttachment mediaType disposition.1 filename opts then (res, r.err.map .drain)
  else
    match hashDecoded r (get hdr "Content-Transfer-Encoding".toList) with
    | .error err => (res, some err)
    | .ok (sum, n) => ({ res with parts := res.parts ++ [⟨filename, mediaType, sum, disposition.1, n⟩] }, none)

def walkParts (step : Result → RawPart → Result × Option WalkErr) (mediaType : Chars) (ending : Option Chars) :
    Result → List RawPart → Result × Option WalkErr
  | res, [] => (res, ending.map (.multipart mediaType))
  | res, p :: rest =>
    let got := step res p
    if got.2.isSome then got
    else if maxParts ≤ got.1.partCount then (got.1, some .truncated)
    else walkParts step mediaType ending got.1 rest

def walkPart (opts : Options) : Nat → Result → Header → Body → Result × Option WalkErr
  | 0, res, _, _ => (res, some .truncated)
  | room + 1, res, hdr, r =>
    if maxParts ≤ res.partCount then (res, some .truncated)
    else
      let res := { res with partCount := res.partCount + 1 }
      let media := parseMedia (get hdr "Content-Type".toList) "text/plain".toList
      if "multipart/".toList <+: media.1 then
        let boundary := get media.2 "boundary".toList
        if boundary = [] then (res, some (.noBoundary media.1))
        else
          let split := Mime.rawParts boundary r
          walkParts (fun res p => walkPart opts room res p.header p.body) media.1 split.2 res split.1
      else leaf res hdr r media.1 media.2 opts

/-- The attachments of a message. What was found before an error is there too. -/
def walk (opts : Options) (message : Body) : Result × Option WalkErr :=
  let head := Mime.readMIMEHeader message
  match head.err with
  | some err =>
    if head.header = [] then ({}, some (.headers err))
    else walkPart opts (maxDepth + 1) {} head.header head.rest
  | none => walkPart opts (maxDepth + 1) {} head.header head.rest

end Walk

end Mailgw.Attach
