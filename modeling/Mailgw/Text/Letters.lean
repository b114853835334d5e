import Mathlib.Data.List.Basic

namespace Text

/-- The lower case of each character, a table of the standard library. -/
class LowerCase where
  lowerChar : Char → Char

def toLower [LowerCase] (s : List Char) : List Char := s.map LowerCase.lowerChar

namespace Ascii

scoped instance lowerCase : LowerCase := ⟨Char.toLower⟩

end Ascii

def isSpace (c : Char) : Bool :=
  c.toNat ∈ [0x09, 0x0a, 0x0b, 0x0c, 0x0d, 0x20, 0x85, 0xa0, 0x1680, 0x2028, 0x2029, 0x202f, 0x205f, 0x3000] ||
    (0x2000 ≤ c.toNat && c.toNat ≤ 0x200a)

def trimSpace (s : List Char) : List Char := ((s.dropWhile isSpace).reverse.dropWhile isSpace).reverse

/-- Lower case as a comparison with ASCII text sees it: the dotted capital I and the Kelvin sign
    are the only characters outside ASCII whose lower case lies in it. -/
def lower (s : List Char) : List Char :=
  s.map fun c => if c.toNat = 0x130 then 'i' else if c.toNat = 0x212a then 'k' else c.toLower

/-- Upper case as a comparison with ASCII text sees it: the dotless i and the long s are the only
    characters outside ASCII whose upper case lies in it. -/
def upper (s : List Char) : List Char :=
  s.map fun c => if c.toNat = 0x131 then 'I' else if c.toNat = 0x17f then 'S' else c.toUpper

def CR : UInt8 := 13
def LF : UInt8 := 10
def SP : UInt8 := 32
def HTAB : UInt8 := 9
def DOT : UInt8 := 46
def COLON : UInt8 := 58
def PERCENT : UInt8 := 37

def CRLF : List UInt8 := [CR, LF]

def ascii (s : List Char) : List UInt8 := s.map fun c => UInt8.ofNat c.toNat

end Text
