import Mailgw.Json.Tree
import Mailgw.Text.Utf8

namespace GoJson

open Json Numbers Text

def maxNestingDepth : Nat := 10000

mutual
def depth : Tree → Nat
  | .arr elements => depthElements elements + 1
  | .obj members => depthMembers members + 1
  | _ => 0

def depthElements : List Tree → Nat
  | [] => 0
  | v :: rest => max (depth v) (depthElements rest)

def depthMembers : List (Units × Tree) → Nat
  | [] => 0
  | (_, v) :: rest => max (depth v) (depthMembers rest)
end

/-- The tree of a valid text. Bytes that are not UTF-8 count as replaced. -/
def readTree (raw : List UInt8) : Option Tree := (parse (runes raw)).filter fun t => depth t ≤ maxNestingDepth

section Strings

def unitChar (u : UInt16) : Char := if isHigh u || isLow u then replacement else Char.ofNat u.toNat

/-- The characters of a string. A surrogate without a partner is replaced. -/
def chars : Units → Chars
  | [] => []
  | [u] => [unitChar u]
  | high :: low :: rest =>
    if isHigh high && isLow low then pairChar high low :: chars rest else unitChar high :: chars (low :: rest)

/-- What the names of fields are compared by. Of the characters outside ASCII, the long s and the Kelvin sign fold into it. -/
def foldChar (c : Char) : Char := if c.toNat = 0x17f then 'S' else if c.toNat = 0x212a then 'K' else c.toUpper

def foldName (s : Chars) : Chars := s.map foldChar

end Strings

section Values

inductive Any where
  | nil
  | bool (b : Bool)
  | float (x : Double)
  | string (s : Chars)
  | slice (elements : List Any)
  | object

def decodeNumber (token : Token) : Option Double :=
  (Decimal.read token.val).bind fun d =>
    match d.toNumber with
    | .finite x => some x
    | _ => none

mutual
/-- Decodes a value into an interface. A number that no double holds is an error. -/
def decodeAny : Tree → Option Any
  | .null => some .nil
  | .bool b => some (.bool b)
  | .num token => (decodeNumber token).map .float
  | .str s => some (.string (chars s))
  | .arr elements => (decodeAnys elements).map .slice
  | .obj members => (decodeEach members).map fun _ => .object

def decodeAnys : List Tree → Option (List Any)
  | [] => some []
  | v :: rest => (decodeAny v).bind fun x => (decodeAnys rest).map fun xs => x :: xs

def decodeEach : List (Units × Tree) → Option Unit
  | [] => some ()
  | (_, v) :: rest => (decodeAny v).bind fun _ => decodeEach rest
end

end Values

section Structs
variable {α : Type}

/-- Decodes into what is there already. A value of another type is an error. -/
abbrev Decoder (α : Type) := Tree → α → Option α

def anyInto : Decoder Any := fun t _ => decodeAny t

def stringInto : Decoder Chars
  | .null, s => some s
  | .str u, _ => some (chars u)
  | _, _ => none

/-- A slice with what stands behind its end, which is there again when the slice grows. -/
structure Slice (α : Type) where
  backing : List α
  length : Nat
  fits : length ≤ backing.length

namespace Slice

def empty : Slice α := ⟨[], 0, Nat.le_refl 0⟩

def elements (s : Slice α) : List α := s.backing.take s.length

end Slice

def decodeElements (element : Decoder α) (zero : α) : List Tree → List α → Option (List α)
  | [], old => some old
  | t :: ts, old =>
    (element t (old.head?.getD zero)).bind fun x => (decodeElements element zero ts old.tail).map fun xs => x :: xs

theorem length_decodeElements {element : Decoder α} {zero : α} {ts : List Tree} {old new : List α}
    (decoded : decodeElements element zero ts old = some new) : ts.length ≤ new.length := by
  induction ts generalizing old new with
  | nil => exact Nat.zero_le _
  | cons t ts ih =>
    obtain ⟨x, -, rest⟩ := Option.bind_eq_some_iff.mp decoded
    obtain ⟨xs, below, rfl⟩ := Option.map_eq_some_iff.mp rest
    exact Nat.succ_le_succ (ih below)

def sliceInto (element : Decoder α) (zero : α) : Decoder (Slice α)
  | .null, _ => some .empty
  | .arr [], _ => some .empty
  | .arr (t :: ts), s =>
    match decoded : decodeElements element zero (t :: ts) s.backing with
    | none => none
    | some new => some ⟨new, (t :: ts).length, length_decodeElements decoded⟩
  | _, _ => none

structure StructField (α : Type) where
  name : Chars
  decode : Decoder α

def fieldOf (fields : List (StructField α)) (key : Units) : Option (StructField α) :=
  fields.find? fun f => foldName f.name = foldName (chars key)

theorem fieldOf_of_name {fields : List (StructField α)} {key : Units} {i : Nat}
    (found : (fields.map StructField.name).findIdx? (fun name => foldName name = foldName (chars key)) = some i) :
    fieldOf fields key = fields[i]? := by
  rw [List.findIdx?_map] at found
  rw [fieldOf, List.find?_eq_bind_findIdx?_getElem?]
  exact congrArg (fun found => Option.bind found (fields[·]?)) found

/-- Members without a field are skipped. Of several for one field each decodes over the one before. -/
def decodeMembers (fields : List (StructField α)) : List (Units × Tree) → α → Option α
  | [], x => some x
  | (key, v) :: rest, x =>
    match fieldOf fields key with
    | none => decodeMembers fields rest x
    | some f => (f.decode v x).bind (decodeMembers fields rest)

def structInto (fields : List (StructField α)) : Decoder α
  | .null, x => some x
  | .obj members, x => decodeMembers fields members x
  | _, _ => none

end Structs

end GoJson
