import Mailgw.Deliver.Reader
import Mailgw.Queue.Envelope
import Mailgw.Text.Letters
import Mailgw.Text.Lines
import Mailgw.Text.Utf8

namespace Mailgw.Msgauth

open Deliver (Bytes Chars)
open Queue (CaseFolding equalFold trimSuffix)
open Text

def headerAuthResults : Chars := "Authentication-Results".toList

def firstToken (value : Chars) : Chars :=
  let head := trimSpace (value.takeWhile (· ≠ ';'))
  head.takeWhile fun c => c ∉ [' ', '\t', '\r', '\n']

/-- Whether a complete header field records results under this id. -/
def ours [CaseFolding] (field : Bytes) (id : Chars) : Bool :=
  let name := field.takeWhile (· ≠ COLON)
  let value := (field.dropWhile (· ≠ COLON)).tail
  if COLON ∉ field ∨ !equalFold (trimSpace (runes name)) headerAuthResults then false
  else equalFold (trimSuffix ['.'] (firstToken (runes value))) (trimSuffix ['.'] id)

variable {ε : Type}

/-- Removes the fields of this id from a message that streams past. The flag `body` says that the
    header block has ended. -/
structure StripReader (ε : Type) where
  br : Source ε
  id : Chars
  out : Bytes := []
  body : Bool := false
  err : Option ε := none
  deriving Repr, DecidableEq

/-- The continuations of a field. Each takes a byte at least, so as many rounds as bytes are enough. -/
def continuations : Nat → Source ε → Got ε (Source ε)
  | 0, br => ⟨[], none, br⟩
  | n + 1, br =>
    match br.peek with
    | none => ⟨[], none, br⟩
    | some b =>
      if b ≠ SP ∧ b ≠ HTAB then ⟨[], none, br⟩
      else
        let cont := br.readBytes LF
        if cont.err.isSome then cont
        else
          let more := continuations n cont.left
          { more with bytes := cont.bytes ++ more.bytes }

namespace StripReader

variable [CaseFolding]

def fill (s : StripReader ε) : StripReader ε :=
  let line := s.br.readBytes LF
  if line.bytes = [] then { s with br := line.left, err := line.err }
  else if line.bytes.all (fun b => b = CR ∨ b = LF) then
    { s with br := line.left, out := s.out ++ line.bytes, body := true }
  else
    let more := if line.err.isSome then ⟨[], line.err, line.left⟩ else continuations line.left.rest.length line.left
    let field := line.bytes ++ more.bytes
    let s := { s with br := more.left, err := if more.err.isSome then more.err else s.err }
    if ours field s.id then s else { s with out := s.out ++ field }

def fillUp : Nat → StripReader ε → StripReader ε
  | 0, s => s
  | n + 1, s => if s.out = [] ∧ s.body = false ∧ s.err = none then fillUp n s.fill else s

def read (s : StripReader ε) (ask : Ask) : Got ε (StripReader ε) :=
  let s := s.fillUp (s.br.rest.length + 1)
  if s.out ≠ [] then ⟨s.out.take ask.size, none, { s with out := s.out.drop ask.size }⟩
  else
    match s.err with
    | some err => ⟨[], some err, s⟩
    | none =>
      -- past the header block the filter is out of the way
      let got := s.br.read ask
      ⟨got.bytes, got.err, { s with br := got.left }⟩

end StripReader

inductive Stripped (ε : Type) where
  | through (br : Source ε)
  | filtered (s : StripReader ε)
  deriving Repr, DecidableEq

def stripAuthResults [LowerCase] (r : Source ε) (authservID : Chars) : Stripped ε :=
  let id := toLower (trimSpace authservID)
  if id = [] then .through r else .filtered { br := r, id }

def Stripped.read [CaseFolding] : Stripped ε → Ask → Got ε (Stripped ε)
  | .through br, ask =>
    let got := br.read ask
    ⟨got.bytes, got.err, .through got.left⟩
  | .filtered s, ask =>
    let got := s.read ask
    ⟨got.bytes, got.err, .filtered got.left⟩

namespace Ascii

scoped instance caseFolding : CaseFolding := ⟨Char.toLower⟩

end Ascii

end Mailgw.Msgauth

namespace Mailgw.Msgauth

open Deliver (Bytes Chars)
open Queue (CaseFolding equalFold trimSuffix)
open Text

def isWhite (c : Char) : Bool := c ∈ [' ', '\t', '\r', '\n']

/-- Takes white space and comments off, which nest. There is no end to a comment that is not closed. -/
def skipCFWS : Nat → Chars → Option Chars
  | 0, [] => some []
  | 0, c :: rest => if isWhite c then skipCFWS 0 rest else if c = '(' then skipCFWS 1 rest else some (c :: rest)
  | _ + 1, [] => none
  | depth + 1, '\\' :: rest =>
    match rest with
    | [] => none
    | _ :: rest => skipCFWS (depth + 1) rest
  | depth + 1, c :: rest =>
    if c = '(' then skipCFWS (depth + 2) rest else if c = ')' then skipCFWS depth rest else skipCFWS (depth + 1) rest

def isTokenChar (c : Char) : Bool :=
  0x21 ≤ c.toNat && c.toNat ≤ 0x7e && c ∉ "()<>@,;:\\\"/[]?=".toList

def quoted : Chars → Option (Chars × Chars)
  | [] => none
  | '\\' :: rest =>
    match rest with
    | [] => none
    | c :: rest => (quoted rest).map fun read => (c :: read.1, read.2)
  | c :: rest =>
    if c = '"' then some ([], rest)
    else if c = '\r' ∨ c = '\n' then quoted rest
    else (quoted rest).map fun read => (c :: read.1, read.2)

def readValue (s : Chars) : Option (Chars × Chars) :=
  match s with
  | '"' :: rest => quoted rest
  | _ => if s.takeWhile isTokenChar = [] then none else some (s.takeWhile isTokenChar, s.dropWhile isTokenChar)

def resultsFollow (s : Chars) : Bool := s.head?.all (· = ';')

def endsID (after : Chars) : Bool :=
  match skipCFWS 0 after with
  | none => false
  | some next =>
    resultsFollow next ||
      (next ≠ after && next.head?.any Char.isDigit && (skipCFWS 0 (next.dropWhile Char.isDigit)).any resultsFollow)

/-- The authserv-id as the grammar of RFC 8601 reads it. -/
def readID (value : Chars) : Option Chars :=
  match skipCFWS 0 value with
  | none => none
  | some start =>
    match readValue start with
    | none => none
    | some (id, after) => if endsID after then some id else none

example : ["gw.example; dkim=pass", " (x) GW.example 1; none", "\"gw.example\"(ok;)\r\n ; spf=pass"].map
    (fun value => readID value.toList) = [some "gw.example".toList, some "GW.example".toList, some "gw.example".toList] := by
  decide

example : ["", "gw/example; none", "(gw.example; none", "gw.example x; none"].map (fun value => readID value.toList) =
    [none, none, none, none] := by decide

def Attributed [CaseFolding] (id : Chars) (field : Bytes) : Prop :=
  ∃ name value read, field = name ++ COLON :: value ∧ COLON ∉ name ∧
    equalFold (trimSpace (runes name)) headerAuthResults = true ∧ readID (runes value) = some read ∧
    id ≠ [] ∧ equalFold (trimSuffix ['.'] read) (trimSuffix ['.'] id) = true

theorem Attributed.named [CaseFolding] {id : Chars} {field : Bytes} (read : Attributed id field) : id ≠ [] := by
  obtain ⟨_, _, _, _, _, _, _, named, _⟩ := read
  exact named

/-- The identifier is a token, with no comment before it or right after it. -/
def Plain (value : Chars) : Prop :=
  let start := value.dropWhile isWhite
  start.head? ≠ some '(' ∧ start.head? ≠ some '"' ∧ (start.dropWhile isTokenChar).head? ≠ some '('

instance (value : Chars) : Decidable (Plain value) := inferInstanceAs (Decidable (_ ∧ _ ∧ _))

/-- The id itself begins, up to its case, with what begins a comment or a quoted string. -/
def MarkFirst [CaseFolding] (id : Chars) : Prop :=
  ∃ c rest, id = c :: rest ∧ (CaseFolding.fold c = CaseFolding.fold '(' ∨ CaseFolding.fold c = CaseFolding.fold '"')

end Mailgw.Msgauth
