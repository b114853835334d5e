import Mailgw.Bits.Words
import Mailgw.Rules.Env

namespace Mailgw.Rules

open Bits Queue

inductive Op where
  | eq | ne | contains | hasPrefix | hasSuffix | glob | regex | isIn | inCIDR | lt | le | gt | ge | present | empty
  deriving Repr, DecidableEq

/-- A literal of a rule file. A number that is no whole number is known by how it prints. -/
inductive Literal where
  | str (s : Name)
  | bool (b : Bool)
  | int (i : Int)
  | fraction (shown : Name)
  deriving Repr, DecidableEq

inductive BadOperand where
  | needsString (op : Op) (field : Name) | needsIP (field : Name) | needsInt (op : Op) (field : Name)
  | glob (text : Name) | regex (text : Name) | notCIDR (text : Name) | notIP (text : Name)
  | notWhole (shown : Name) | notNumber (text : Name) | expectedNumber
  | notBool (text : Name) | expectedBool
  | inNotFor (kind : Kind) | unknownOperator (op : Op)
  deriving Repr, DecidableEq

/-- The pattern languages an operand can be written in, and textual addresses. -/
class Patterns where
  compileGlob : Name → Bool → Bool → Option (Name → Bool)
  compileRegex : Name → Option (Name → Bool)
  parsePrefix : Name → Option (Addr → Bool)
  parseAddr : Name → Option Addr

abbrev Comparator := Scalar → Bool

def Scalar.asStr : Scalar → Name
  | .str s => s
  | _ => []

def Scalar.asInt : Scalar → Int
  | .int i => i
  | _ => 0

def Scalar.asBool : Scalar → Bool
  | .bool b => b
  | _ => false

def Scalar.asIP : Scalar → Addr
  | .ip a => a
  | _ => .invalid

def showInt (i : Int) : Name := if i < 0 then '-' :: Nat.toDigits 10 i.natAbs else Nat.toDigits 10 i.natAbs

def Literal.toStr : Literal → Name
  | .str s => s
  | .bool b => if b then "true".toList else "false".toList
  | .int i => showInt i
  | .fraction shown => shown

def Literal.toInt : Literal → Except BadOperand Int
  | .int i => .ok i
  | .fraction shown => .error (.notWhole shown)
  | .bool _ => .error .expectedNumber
  | .str s =>
    match Text.parseInt64 (Text.trimSpace s) with
    | some i => .ok i
    | none => .error (.notNumber s)

def trueWords : List Name := ["1", "t", "T", "TRUE", "true", "True"].map String.toList
def falseWords : List Name := ["0", "f", "F", "FALSE", "false", "False"].map String.toList

def Literal.toBool : Literal → Except BadOperand Bool
  | .bool b => .ok b
  | .str s =>
    if Text.trimSpace s ∈ trueWords then .ok true
    else if Text.trimSpace s ∈ falseWords then .ok false
    else .error (.notBool s)
  | _ => .error .expectedBool

section Compilation
variable [Text.LowerCase] [CaseFolding] [Patterns]

def Literal.toIP (l : Literal) : Except BadOperand Addr :=
  match Patterns.parseAddr (Text.trimSpace l.toStr) with
  | some a => .ok a.unmap
  | none => .error (.notIP l.toStr)

def caseOf (ci : Bool) (s : Name) : Name := if ci then Text.toLower s else s

def compileEq (raw : Literal) (field : FieldDef) (ci : Bool) : Except BadOperand Comparator :=
  match field.kind with
  | .string => .ok fun v => if ci then equalFold v.asStr raw.toStr else v.asStr == raw.toStr
  | .int => do
    let lit ← raw.toInt
    return fun v => v.asInt == lit
  | .bool => do
    let lit ← raw.toBool
    return fun v => v.asBool == lit
  | .ip => do
    let lit ← raw.toIP
    return fun v => v.asIP.unmap == lit

def compileIn (raws : List Literal) (field : FieldDef) (ci : Bool) : Except BadOperand Comparator :=
  match field.kind with
  | .string =>
    let set := raws.map fun raw => caseOf ci raw.toStr
    .ok fun v => caseOf ci v.asStr ∈ set
  | .int => do
    let set ← raws.mapM Literal.toInt
    return fun v => v.asInt ∈ set
  | .ip => do
    let set ← raws.mapM Literal.toIP
    return fun v => v.asIP.unmap ∈ set
  | .bool => .error (.inNotFor .bool)

def compileText (op : Op) (raw : Literal) (field : FieldDef) (ci : Bool) (holds : Name → Name → Bool) :
    Except BadOperand Comparator :=
  if field.kind ≠ .string then .error (.needsString op field.name)
  else .ok fun v => holds (caseOf ci raw.toStr) (caseOf ci v.asStr)

def compileOrder (op : Op) (raw : Literal) (field : FieldDef) (holds : Int → Int → Bool) :
    Except BadOperand Comparator :=
  if field.kind ≠ .int then .error (.needsInt op field.name)
  else do
    let lit ← raw.toInt
    return fun v => holds v.asInt lit

/-- The comparator of an operator. Every mismatch of types is found here, at load time. -/
def compileOp (op : Op) (raw : Literal) (raws : List Literal) (field : FieldDef) (ci : Bool) :
    Except BadOperand Comparator :=
  match op with
  | .eq => compileEq raw field ci
  | .ne => do
    let eq ← compileEq raw field ci
    return fun v => !eq v
  | .contains => compileText op raw field ci fun lit s => lit <:+: s
  | .hasPrefix => compileText op raw field ci fun lit s => lit.isPrefixOf s
  | .hasSuffix => compileText op raw field ci fun lit s => lit.isSuffixOf s
  | .glob =>
    if field.kind ≠ .string then .error (.needsString op field.name)
    else
      match Patterns.compileGlob raw.toStr field.dotGlob ci with
      | some holds => .ok fun v => holds v.asStr
      | none => .error (.glob raw.toStr)
  | .regex =>
    if field.kind ≠ .string then .error (.needsString op field.name)
    else
      match Patterns.compileRegex (if ci then "(?i)".toList ++ raw.toStr else raw.toStr) with
      | some holds => .ok fun v => holds v.asStr
      | none => .error (.regex raw.toStr)
  | .isIn => compileIn raws field ci
  | .inCIDR => do
    if field.kind ≠ .ip then throw (.needsIP field.name)
    let nets ← raws.mapM fun raw =>
      match Patterns.parsePrefix (Text.trimSpace raw.toStr) with
      | some net => Except.ok net
      | none => .error (.notCIDR raw.toStr)
    return fun v => nets.any fun net => net v.asIP.unmap
  | .lt => compileOrder op raw field fun i lit => i < lit
  | .le => compileOrder op raw field fun i lit => i ≤ lit
  | .gt => compileOrder op raw field fun i lit => i > lit
  | .ge => compileOrder op raw field fun i lit => i ≥ lit
  | .present | .empty => .error (.unknownOperator op)

end Compilation

namespace Ascii

scoped instance lowerCase : Text.LowerCase := ⟨Char.toLower⟩
scoped instance caseFolding : CaseFolding := ⟨Char.toLower⟩
scoped instance patterns : Patterns := ⟨fun _ _ _ => none, fun _ => none, fun _ => none, fun _ => none⟩

end Ascii

inductive Prefix where
  | v4 (bits : BitVec 32) (len : Nat) (fits : len ≤ 32)
  | v6 (bits : BitVec 128) (len : Nat) (fits : len ≤ 128)
  deriving Repr, DecidableEq

namespace Prefix

def masked : Prefix → Prefix
  | .v4 bits len fits => .v4 (cleared bits len) len fits
  | .v6 bits len fits => .v6 (cleared bits len) len fits

/-- An address with a zone is in no block, nor is one of the other family. -/
def contains : Prefix → Addr → Bool
  | .v4 bits len _, .v4 a => covers bits len a
  | .v6 bits len _, .v6 a zone => zone = [] && covers bits len a
  | _, _ => false

def Mapped : Prefix → Prop
  | .v4 _ _ _ => False
  | .v6 bits len _ => 96 ≤ len ∧ bits >>> 32 = 0xffff#128

instance decidableMapped : (p : Prefix) → Decidable p.Mapped
  | .v4 _ _ _ => inferInstanceAs (Decidable False)
  | .v6 bits len _ => inferInstanceAs (Decidable (96 ≤ len ∧ bits >>> 32 = 0xffff#128))

end Prefix

/-- Rewrites a block of mapped addresses into its plain form. -/
def normalizePrefix : Prefix → Prefix
  | .v6 bits len fits =>
    if bits >>> 32 = 0xffff#128 then
      if 96 ≤ len then .v4 (bits.setWidth 32) (len - 96) (Nat.sub_le_sub_right fits 96) else .v6 bits len fits
    else .v6 bits len fits
  | p => p

theorem Addr.unmap_v6 {a : Addr} {bits : BitVec 128} {zone : Name} (still : a.unmap = .v6 bits zone) :
    bits >>> 32 ≠ 0xffff#128 := by
  cases a with
  | invalid => cases still
  | v4 _ => cases still
  | v6 bits' zone' =>
    by_cases mapped : bits' >>> 32 = 0xffff#128
    · rw [unmap, if_pos mapped] at still
      cases still
    · rw [unmap, if_neg mapped] at still
      cases still
      exact mapped

namespace Prefix

theorem cleared_ne_mapped {bits : BitVec 128} {len : Nat} (short : len < 96) : cleared bits len >>> 32 ≠ 0xffff#128 := by
  intro same
  have lead := congrArg (fun x => x.getLsbD 0) same
  simp only [BitVec.getLsbD_ushiftRight, getLsbD_cleared, Nat.add_zero] at lead
  have cut : ¬ 128 - len ≤ 32 := by omega
  simp [cut] at lead

theorem normalizePrefix_masked {p : Prefix} (plain : ¬ p.Mapped) : normalizePrefix p.masked = p.masked := by
  cases p with
  | v4 bits len fits => rfl
  | v6 bits len fits =>
    rw [masked, normalizePrefix]
    by_cases short : len < 96
    · rw [if_neg (cleared_ne_mapped short)]
    · have other : ¬ cleared bits len >>> 32 = 0xffff#128 := by
        rw [cleared_shift bits (by omega)]
        intro lead
        exact plain ⟨by omega, lead⟩
      rw [if_neg other]

/-- No address that has been unmapped is in a block of mapped ones. -/
theorem masked_of_mapped {p : Prefix} (mapped : p.Mapped) (a : Addr) : p.masked.contains a.unmap = false := by
  cases p with
  | v4 bits len fits => cases mapped
  | v6 bits len fits =>
    obtain ⟨long, lead⟩ := mapped
    cases addr : a.unmap with
    | invalid => rfl
    | v4 x => rfl
    | v6 x zone =>
      have other := Addr.unmap_v6 addr
      rw [masked, contains, covers_cleared, Bool.and_eq_false_iff]
      right
      by_contra inside
      have same := shift_eq_of_covers (k := 32) (by simpa using inside) (by omega)
      exact other (same.trans lead)

end Prefix

end Mailgw.Rules
