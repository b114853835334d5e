import Mailgw.GoJson.Decode
import Mailgw.Json.Reading

namespace GoJson

open Json Numbers Text

abbrev Bytes := List UInt8

def byteChar (b : UInt8) : Char := Char.ofNat b.toNat

def ascii (s : String) : Bytes := s.toList.map fun c => UInt8.ofNat c.toNat

def quoteByte : UInt8 := 0x22

def backslash : UInt8 := 0x5c

def isHex (b : UInt8) : Bool := (hexDigit (byteChar b)).isSome

def isBody : Bytes → Bool
  | [] => true
  | b :: rest =>
    if b = backslash then
      match rest with
      | 0x75 :: h :: i :: j :: k :: rest => isHex h && isHex i && isHex j && isHex k && isBody rest
      | e :: rest => (escaped (byteChar e)).isSome && isBody rest
      | [] => false
    else b ≠ quoteByte && 0x20 ≤ b && isBody rest

abbrev Literal := {body : Bytes // isBody body = true}

abbrev NumberText := {text : Bytes // (Decimal.read (text.map byteChar)).isSome = true}

inductive Raw where
  | null
  | bool (b : Bool)
  | num (text : NumberText)
  | str (s : Literal)
  | arr (elements : List Raw)
  | obj (members : List (Literal × Raw))

abbrev Members := List (Literal × Raw)

section Meaning

def Literal.units (s : Literal) : Units := ((readString (runes s.val ++ ['"'])).map Prod.fst).getD []

def Literal.key (s : Literal) : Chars := chars s.units

mutual
def Raw.tree : Raw → Tree
  | .null => .null
  | .bool b => .bool b
  | .num text => .num ⟨text.val.map byteChar, text.property⟩
  | .str s => .str s.units
  | .arr elements => .arr (treeElements elements)
  | .obj members => .obj (treeMembers members)

def treeElements : List Raw → List Tree
  | [] => []
  | v :: rest => v.tree :: treeElements rest

def treeMembers : Members → List (Units × Tree)
  | [] => []
  | (key, v) :: rest => (key.units, v.tree) :: treeMembers rest
end

mutual
def Raw.depth : Raw → Nat
  | .arr elements => deepestElement elements + 1
  | .obj members => deepestMember members + 1
  | _ => 0

def deepestElement : List Raw → Nat
  | [] => 0
  | v :: rest => max v.depth (deepestElement rest)

def deepestMember : Members → Nat
  | [] => 0
  | (_, v) :: rest => max v.depth (deepestMember rest)
end

end Meaning

section Writing

def wrapped (s : Bytes) : Bytes := quoteByte :: (s ++ [quoteByte])

mutual
def compact : Raw → Bytes
  | .null => ascii "null"
  | .bool b => if b then ascii "true" else ascii "false"
  | .num text => text.val
  | .str s => wrapped s.val
  | .arr elements => 0x5b :: compactElements elements
  | .obj members => 0x7b :: compactMembers members

def compactElements : List Raw → Bytes
  | [] => [0x5d]
  | v :: rest => compact v ++ compactMoreElements rest

def compactMoreElements : List Raw → Bytes
  | [] => [0x5d]
  | v :: rest => 0x2c :: (compact v ++ compactMoreElements rest)

def compactMembers : Members → Bytes
  | [] => [0x7d]
  | (key, v) :: rest => wrapped key.val ++ 0x3a :: (compact v ++ compactMoreMembers rest)

def compactMoreMembers : Members → Bytes
  | [] => [0x7d]
  | (key, v) :: rest => 0x2c :: (wrapped key.val ++ 0x3a :: (compact v ++ compactMoreMembers rest))
end

/-- Escapes what a page could take for markup, and the two line separators. -/
def escapeHTML : Bytes → Bytes
  | [] => []
  | 0xe2 :: 0x80 :: b :: rest =>
    if b = 0xa8 then ascii "\\u2028" ++ escapeHTML rest
    else if b = 0xa9 then ascii "\\u2029" ++ escapeHTML rest
    else 0xe2 :: 0x80 :: escapeHTML (b :: rest)
  | b :: rest =>
    (if b = 0x3c then ascii "\\u003c" else if b = 0x3e then ascii "\\u003e" else if b = 0x26 then ascii "\\u0026" else [b]) ++
      escapeHTML rest

def newline (indent : Nat) : Bytes := 0x0a :: List.replicate (2 * indent) 0x20

def block (openByte closeByte : UInt8) (indent : Nat) : List Bytes → Bytes
  | [] => [openByte, closeByte]
  | items => openByte :: (newline (indent + 1) ++ (0x2c :: newline (indent + 1)).intercalate items ++ newline indent ++ [closeByte])

mutual
def indented (indent : Nat) : Raw → Bytes
  | .null => ascii "null"
  | .bool b => if b then ascii "true" else ascii "false"
  | .num text => text.val
  | .str s => wrapped (escapeHTML s.val)
  | .arr elements => block 0x5b 0x5d indent (indentedElements (indent + 1) elements)
  | .obj members => block 0x7b 0x7d indent (indentedMembers (indent + 1) members)

def indentedElements (indent : Nat) : List Raw → List Bytes
  | [] => []
  | v :: rest => indented indent v :: indentedElements indent rest

def indentedMembers (indent : Nat) : Members → List Bytes
  | [] => []
  | (key, v) :: rest => (wrapped (escapeHTML key.val) ++ 0x3a :: 0x20 :: indented indent v) :: indentedMembers indent rest
end

end Writing

section Reading

def isBlank (b : UInt8) : Bool := b = 0x20 || b = 0x09 || b = 0x0a || b = 0x0d

def skipBlank (text : Bytes) : Bytes := text.dropWhile isBlank

def splitQuote : Bytes → Option (Bytes × Bytes)
  | [] => none
  | b :: rest =>
    if b = quoteByte then some ([], rest)
    else if b = backslash then
      match rest with
      | [] => none
      | e :: rest => (splitQuote rest).map fun (body, left) => (b :: e :: body, left)
    else (splitQuote rest).map fun (body, left) => (b :: body, left)

def readLiteral (text : Bytes) : Option (Literal × Bytes) :=
  (splitQuote text).bind fun (body, left) => if valid : isBody body = true then some (⟨body, valid⟩, left) else none

def isNumberByte (b : UInt8) : Bool := isNumeric (byteChar b)

def readNumberText (text : Bytes) : Option (Raw × Bytes) :=
  if valid : (Decimal.read ((text.takeWhile isNumberByte).map byteChar)).isSome = true then
    some (.num ⟨text.takeWhile isNumberByte, valid⟩, text.dropWhile isNumberByte)
  else none

def readKeyword (word : String) (v : Raw) (text : Bytes) : Option (Raw × Bytes) :=
  if (ascii word).isPrefixOf text then some (v, text.drop (ascii word).length) else none

mutual
def readRaw : Nat → Bytes → Option (Raw × Bytes)
  | 0, _ => none
  | fuel + 1, text =>
    match text with
    | [] => none
    | b :: rest =>
      if b = quoteByte then (readLiteral rest).map fun (s, left) => (.str s, left)
      else if b = 0x5b then
        match skipBlank rest with
        | 0x5d :: left => some (.arr [], left)
        | inside => (readRaws fuel inside).map fun (vs, left) => (.arr vs, left)
      else if b = 0x7b then
        match skipBlank rest with
        | 0x7d :: left => some (.obj [], left)
        | inside => (readRawMembers fuel inside).map fun (ms, left) => (.obj ms, left)
      else if b = 0x74 then readKeyword "true" (.bool true) text
      else if b = 0x66 then readKeyword "false" (.bool false) text
      else if b = 0x6e then readKeyword "null" .null text
      else readNumberText text

def readRaws : Nat → Bytes → Option (List Raw × Bytes)
  | 0, _ => none
  | fuel + 1, text =>
    (readRaw fuel text).bind fun (v, behind) =>
      match skipBlank behind with
      | 0x2c :: more => (readRaws fuel (skipBlank more)).map fun (vs, left) => (v :: vs, left)
      | 0x5d :: left => some ([v], left)
      | _ => none

def readRawMembers : Nat → Bytes → Option (Members × Bytes)
  | 0, _ => none
  | fuel + 1, text =>
    match text with
    | 0x22 :: rest =>
      (readLiteral rest).bind fun (key, behind) =>
        match skipBlank behind with
        | 0x3a :: inside =>
          (readRaw fuel (skipBlank inside)).bind fun (v, behind) =>
            match skipBlank behind with
            | 0x2c :: more => (readRawMembers fuel (skipBlank more)).map fun (ms, left) => ((key, v) :: ms, left)
            | 0x7d :: left => some ([(key, v)], left)
            | _ => none
        | _ => none
    | _ => none
end

/-- A valid text that is not nested too deep. A value in brackets takes two steps of its own. -/
def readDocument (text : Bytes) : Option Raw :=
  (readRaw (2 * text.length + 2) (skipBlank text)).bind fun (v, left) =>
    if skipBlank left = [] ∧ v.depth ≤ maxNestingDepth then some v else none

end Reading

end GoJson
