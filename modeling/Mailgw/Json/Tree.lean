import Mailgw.Json.Strings
import Mailgw.Numbers.Notation

namespace Json

open Numbers

def isHigh (u : UInt16) : Bool := 0xd800 ≤ u.toNat && u.toNat < 0xdc00

def isLow (u : UInt16) : Bool := 0xdc00 ≤ u.toNat && u.toNat < 0xe000

def pairChar (high low : UInt16) : Char := Char.ofNat (0x10000 + ((high.toNat - 0xd800) * 0x400 + (low.toNat - 0xdc00)))

abbrev Token := {text : Chars // (Decimal.read text).isSome = true}

/-- A JSON text, parsed. The members of an object are in their order, and a key can have several. -/
inductive Tree where
  | null
  | bool (b : Bool)
  | num (token : Token)
  | str (s : Units)
  | arr (elements : List Tree)
  | obj (members : List (Units × Tree))

section Printing

def unicodeEscape (u : UInt16) : Chars :=
  let digit (n : Nat) := Nat.digitChar (n % 16)
  ['\\', 'u', digit (u.toNat / 4096), digit (u.toNat / 256), digit (u.toNat / 16), digit u.toNat]

def unitText (u : UInt16) : Chars := if isHigh u || isLow u then unicodeEscape u else escape (Char.ofNat u.toNat)

/-- The characters of a string, and the quotation mark that ends it. Only surrogates without a partner are escaped. -/
def quotedUnits : Units → Chars
  | [] => ['"']
  | [u] => unitText u ++ ['"']
  | high :: low :: rest =>
    if isHigh high && isLow low then pairChar high low :: quotedUnits rest else unitText high ++ quotedUnits (low :: rest)

def quote (s : Units) : Chars := '"' :: quotedUnits s

mutual
def print : Tree → Chars
  | .null => "null".toList
  | .bool b => if b then "true".toList else "false".toList
  | .num token => token.val
  | .str s => quote s
  | .arr elements => '[' :: printElements elements
  | .obj members => '{' :: printMembers members

def printElements : List Tree → Chars
  | [] => [']']
  | v :: rest => print v ++ printMoreElements rest

def printMoreElements : List Tree → Chars
  | [] => [']']
  | v :: rest => ',' :: (print v ++ printMoreElements rest)

def printMembers : List (Units × Tree) → Chars
  | [] => ['}']
  | (key, v) :: rest => quote key ++ ':' :: (print v ++ printMoreMembers rest)

def printMoreMembers : List (Units × Tree) → Chars
  | [] => ['}']
  | (key, v) :: rest => ',' :: (quote key ++ ':' :: (print v ++ printMoreMembers rest))
end

end Printing

section Parsing

def isSpace (c : Char) : Bool := c = ' ' || c = '\t' || c = '\n' || c = '\r'

def skipSpace (text : Chars) : Chars := text.dropWhile isSpace

def hexDigit (c : Char) : Option Nat :=
  if '0' ≤ c ∧ c ≤ '9' then some (c.toNat - '0'.toNat)
  else if 'a' ≤ c ∧ c ≤ 'f' then some (c.toNat - 'a'.toNat + 10)
  else if 'A' ≤ c ∧ c ≤ 'F' then some (c.toNat - 'A'.toNat + 10)
  else none

def hexUnit (a b c d : Char) : Option UInt16 := do
  let a ← hexDigit a
  let b ← hexDigit b
  let c ← hexDigit c
  let d ← hexDigit d
  pure (UInt16.ofNat (((a * 16 + b) * 16 + c) * 16 + d))

def escaped : Char → Option UInt16
  | '"' => some 34
  | '\\' => some 92
  | '/' => some 47
  | 'b' => some 8
  | 'f' => some 12
  | 'n' => some 10
  | 'r' => some 13
  | 't' => some 9
  | _ => none

def readString : Chars → Option (Units × Chars)
  | [] => none
  | c :: rest =>
    if c = '"' then some ([], rest)
    else if c = '\\' then
      match rest with
      | 'u' :: h :: i :: j :: k :: rest =>
        (hexUnit h i j k).bind fun u => (readString rest).map fun (s, left) => (u :: s, left)
      | e :: rest => (escaped e).bind fun u => (readString rest).map fun (s, left) => (u :: s, left)
      | [] => none
    else if c.toNat < 32 then none
    else (readString rest).map fun (s, left) => (charUnits c ++ s, left)

def readNumber (text : Chars) : Option (Tree × Chars) :=
  if valid : (Decimal.read (text.takeWhile isNumeric)).isSome = true then
    some (.num ⟨text.takeWhile isNumeric, valid⟩, text.dropWhile isNumeric)
  else none

def readWord (word : String) (v : Tree) (text : Chars) : Option (Tree × Chars) :=
  if word.toList.isPrefixOf text then some (v, text.drop word.length) else none

mutual
def readValue : Nat → Chars → Option (Tree × Chars)
  | 0, _ => none
  | fuel + 1, text =>
    match text with
    | [] => none
    | c :: rest =>
      if c = '"' then (readString rest).map fun (s, left) => (.str s, left)
      else if c = '[' then
        match skipSpace rest with
        | ']' :: left => some (.arr [], left)
        | inside => (readElements fuel inside).map fun (vs, left) => (.arr vs, left)
      else if c = '{' then
        match skipSpace rest with
        | '}' :: left => some (.obj [], left)
        | inside => (readMembers fuel inside).map fun (ms, left) => (.obj ms, left)
      else if c = 't' then readWord "true" (.bool true) text
      else if c = 'f' then readWord "false" (.bool false) text
      else if c = 'n' then readWord "null" .null text
      else readNumber text

def readElements : Nat → Chars → Option (List Tree × Chars)
  | 0, _ => none
  | fuel + 1, text =>
    (readValue fuel text).bind fun (v, behind) =>
      match skipSpace behind with
      | ',' :: more => (readElements fuel (skipSpace more)).map fun (vs, left) => (v :: vs, left)
      | ']' :: left => some ([v], left)
      | _ => none

def readMembers : Nat → Chars → Option (List (Units × Tree) × Chars)
  | 0, _ => none
  | fuel + 1, text =>
    match text with
    | '"' :: rest =>
      (readString rest).bind fun (key, behind) =>
        match skipSpace behind with
        | ':' :: inside =>
          (readValue fuel (skipSpace inside)).bind fun (v, behind) =>
            match skipSpace behind with
            | ',' :: more => (readMembers fuel (skipSpace more)).map fun (ms, left) => ((key, v) :: ms, left)
            | '}' :: left => some ([(key, v)], left)
            | _ => none
        | _ => none
    | _ => none
end

/-- A JSON text. A value in brackets takes two steps of its own. -/
def parse (text : Chars) : Option Tree :=
  (readValue (2 * text.length + 2) (skipSpace text)).bind fun (v, left) => if skipSpace left = [] then some v else none

end Parsing

end Json
