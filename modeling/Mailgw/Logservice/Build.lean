import Mailgw.GoJson.Decode
import Mailgw.Text.Letters

namespace Mailgw.Logservice

open GoJson Json Numbers Text

def defaultLimit : Int := 100

def maxLimit : Int := 1000

structure Param where
  field : Chars
  operator : Chars
  value : Any

structure SortEntry where
  field : Chars
  direction : Chars

structure Query where
  limit : Any
  offset : Any
  search : Slice Param
  searchLogic : Chars
  sort : Slice SortEntry

def Param.zero : Param := ⟨[], [], .nil⟩

def SortEntry.zero : SortEntry := ⟨[], []⟩

def Query.zero : Query := ⟨.nil, .nil, .empty, [], .empty⟩

def paramFields : List (StructField Param) :=
  [⟨"field".toList, fun t p => (stringInto t p.field).map fun s => { p with field := s }⟩,
    ⟨"operator".toList, fun t p => (stringInto t p.operator).map fun s => { p with operator := s }⟩,
    ⟨"value".toList, fun t p => (anyInto t p.value).map fun v => { p with value := v }⟩]

def sortFields : List (StructField SortEntry) :=
  [⟨"field".toList, fun t p => (stringInto t p.field).map fun s => { p with field := s }⟩,
    ⟨"direction".toList, fun t p => (stringInto t p.direction).map fun s => { p with direction := s }⟩]

def queryFields : List (StructField Query) :=
  [⟨"limit".toList, fun t q => (anyInto t q.limit).map fun v => { q with limit := v }⟩,
    ⟨"offset".toList, fun t q => (anyInto t q.offset).map fun v => { q with offset := v }⟩,
    ⟨"search".toList, fun t q => (sliceInto (structInto paramFields) .zero t q.search).map fun ps => { q with search := ps }⟩,
    ⟨"searchLogic".toList, fun t q => (stringInto t q.searchLogic).map fun s => { q with searchLogic := s }⟩,
    ⟨"sort".toList, fun t q => (sliceInto (structInto sortFields) .zero t q.sort).map fun ss => { q with sort := ss }⟩]

def isMap : Tree → Bool
  | .null => true
  | .obj _ => true
  | _ => false

/-- Decodes the `q` parameter. Whatever cannot be decoded gives the defaults. -/
def parse (raw : List UInt8) : Query :=
  if raw = [] then .zero
  else
    match readTree raw with
    | none => .zero
    | some t => if isMap t then (structInto queryFields t .zero).getD .zero else .zero

section Limits

/-- The integer that a double out of range converts to. It depends on the processor. -/
class Conversion where
  beyond : Double → {n : Int // -2 ^ 63 ≤ n ∧ n < 2 ^ 63}

def truncated (x : Double) : Int := if x.negative then -(x.size / 2 ^ places : Nat) else (x.size / 2 ^ places : Nat)

def toInt [Conversion] (x : Double) : Int :=
  if -2 ^ 63 ≤ truncated x ∧ truncated x < 2 ^ 63 then truncated x else (Conversion.beyond x).val

def coerceInt [Conversion] : Any → Option Int
  | .float x => some (toInt x)
  | .string s => parseInt64 (Text.trimSpace s)
  | _ => none

structure Window where
  limit : Int
  offset : Int
  clamped : Bool

def Query.limitOffset [Conversion] (q : Query) : Window :=
  let (limit, clamped) :=
    match coerceInt q.limit with
    | none => (defaultLimit, false)
    | some limit =>
      if limit < 0 then (defaultLimit, true)
      else if limit > maxLimit then (maxLimit, true)
      else (limit, false)
  let offset :=
    match coerceInt q.offset with
    | none => 0
    | some offset => if offset < 0 then 0 else offset
  ⟨limit, offset, clamped⟩

theorem limitOffset_bounds [Conversion] (q : Query) :
    0 ≤ q.limitOffset.limit ∧ q.limitOffset.limit ≤ maxLimit ∧ 0 ≤ q.limitOffset.offset := by
  have defaults : (0 : Int) ≤ defaultLimit ∧ defaultLimit ≤ maxLimit ∧ (0 : Int) ≤ maxLimit := by decide
  obtain ⟨low, high, nonnegative⟩ := defaults
  have offset : 0 ≤ q.limitOffset.offset := by
    unfold Query.limitOffset
    dsimp only
    cases coerceInt q.offset with
    | none => exact Int.le_refl 0
    | some offset =>
      dsimp only
      split <;> omega
  have limit : 0 ≤ q.limitOffset.limit ∧ q.limitOffset.limit ≤ maxLimit := by
    unfold Query.limitOffset
    dsimp only
    cases coerceInt q.limit with
    | none => exact ⟨low, high⟩
    | some limit =>
      dsimp only
      split
      · exact ⟨low, high⟩
      split
      · exact ⟨nonnegative, Int.le_refl _⟩
      · constructor <;> dsimp only <;> omega
  exact ⟨limit.1, limit.2, offset⟩

end Limits

inductive Arg where
  | string (s : Chars)
  | bool (b : Bool)
  | int (n : Int)
  | float (x : Double)
  deriving DecidableEq

section Values

/-- Empty values are dropped, but not the number zero. -/
def skipValue : Any → Bool
  | .nil => true
  | .string s => s = []
  | .bool b => !b
  | .float _ => false
  | .slice _ => false
  | .object => false

def isIntegral (x : Double) : Bool := x.size % 2 ^ places = 0

/-- A value that can be bound. A small number without places behind the point is bound as an integer. -/
def scalar : Any → Option Arg
  | .string s => some (.string s)
  | .bool b => some (.bool b)
  | .float x => if isIntegral x && x.size < 2 ^ 53 * 2 ^ places then some (.int (truncated x)) else some (.float x)
  | _ => none

def formatFloat (x : Double) : Chars :=
  let y := shortest x.size
  let part := (padDecimal places (y % 10 ^ places)).rdropWhile (· = '0')
  let digits := Nat.toDigits 10 (y / 10 ^ places) ++ if part = [] then [] else '.' :: part
  if x.negative then '-' :: digits else digits

def likeText : Any → Option Chars
  | .string s => some s
  | .bool b => some (if b then "true".toList else "false".toList)
  | .float x => some (formatFloat x)
  | _ => none

end Values

section Where

inductive Comparison where
  | equal
  | like
  | between
  | more
  | atLeast
  | less
  | atMost
  deriving DecidableEq

def Comparison.sql : Comparison → Chars
  | .equal => " = ?".toList
  | .like => " LIKE ?".toList
  | .between => " BETWEEN ? AND ?".toList
  | .more => " > ?".toList
  | .atLeast => " >= ?".toList
  | .less => " < ?".toList
  | .atMost => " <= ?".toList

def Comparison.arity : Comparison → Nat
  | .between => 2
  | _ => 1

abbrev Column (allowed : List Chars) := {field : Chars // field ∈ allowed}

structure Condition (allowed : List Chars) where
  column : Column allowed
  comparison : Comparison
  values : List Arg
  bound : values.length = comparison.arity

def quoteIdent (name : Chars) : Chars := '`' :: (name.flatMap fun c => if c = '`' then ['`', '`'] else [c]) ++ ['`']

def quoteCol (field alias_ : Chars) : Chars :=
  if alias_ = [] then quoteIdent field else quoteIdent alias_ ++ '.' :: quoteIdent field

variable {allowed : List Chars}

def Condition.sql (c : Condition allowed) (alias_ : Chars) : Chars := quoteCol c.column alias_ ++ c.comparison.sql

def single (column : Column allowed) (comparison : Comparison) (one : comparison.arity = 1) (v : Option Arg) :
    Option (Condition allowed) :=
  v.map fun v => ⟨column, comparison, [v], one.symm⟩

def conditionOn (column : Column allowed) (operator : Chars) (value : Any) : Option (Condition allowed) :=
  if operator = "is".toList ∨ operator = "=".toList then single column .equal rfl (scalar value)
  else if operator = "begins".toList then single column .like rfl ((likeText value).map fun s => .string (s ++ ['%']))
  else if operator = "contains".toList then single column .like rfl ((likeText value).map fun s => .string ('%' :: s ++ ['%']))
  else if operator = "ends".toList then single column .like rfl ((likeText value).map fun s => .string ('%' :: s))
  else if operator = "between".toList then
    match value with
    | .slice [low, high] =>
      match scalar low, scalar high with
      | some low, some high => some ⟨column, .between, [low, high], rfl⟩
      | _, _ => none
    | _ => none
  else if operator = ">".toList ∨ operator = "more".toList then single column .more rfl (scalar value)
  else if operator = ">=".toList then single column .atLeast rfl (scalar value)
  else if operator = "<".toList ∨ operator = "less".toList then single column .less rfl (scalar value)
  else if operator = "<=".toList then single column .atMost rfl (scalar value)
  else none

def conditionOf (allowed : List Chars) (p : Param) : Option (Condition allowed) :=
  if skipValue p.value then none
  else if known : p.field ∈ allowed then conditionOn ⟨p.field, known⟩ p.operator p.value
  else none

inductive Joiner where
  | and
  | or
  deriving DecidableEq

def Joiner.sql : Joiner → Chars
  | .and => "AND".toList
  | .or => "OR".toList

def joinerOf (logic : Chars) : Joiner := if upper logic = "OR".toList then .or else .and

structure Where where
  sql : Chars
  values : List Arg

def buildWhere (params : List Param) (logic : Chars) (allowed : List Chars) (alias_ : Chars) : Where :=
  let conds := params.filterMap (conditionOf allowed)
  if conds = [] then ⟨[], []⟩
  else
    ⟨(' ' :: ((joinerOf logic).sql ++ [' '])).intercalate (conds.map fun c => c.sql alias_), conds.flatMap Condition.values⟩

def Query.logic (q : Query) : Chars := if upper q.searchLogic = "OR".toList then "OR".toList else "AND".toList

end Where

section OrderBy

inductive Direction where
  | asc
  | desc
  deriving DecidableEq

def Direction.sql : Direction → Chars
  | .asc => "ASC".toList
  | .desc => "DESC".toList

def directionOf (direction : Chars) : Direction := if lower direction = "asc".toList then .asc else .desc

abbrev Order (allowed : List Chars) := Column allowed × Direction

def orderOf (allowed : List Chars) (s : SortEntry) : Option (Order allowed) :=
  if known : s.field ∈ allowed then some (⟨s.field, known⟩, directionOf s.direction) else none

def Order.sql {allowed : List Chars} (o : Order allowed) (alias_ : Chars) : Chars := quoteCol o.1 alias_ ++ ' ' :: o.2.sql

def buildOrderBy (sorts : List SortEntry) (allowed : List Chars) (fallback alias_ : Chars) : Chars :=
  let parts := sorts.filterMap (orderOf allowed)
  if parts = [] then fallback else ", ".toList.intercalate (parts.map fun o => o.sql alias_)

end OrderBy

end Mailgw.Logservice
