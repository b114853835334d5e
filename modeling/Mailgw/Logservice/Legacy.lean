import Mailgw.Js.Value
import Mailgw.Logservice.Build

namespace Mailgw.Logservice.Legacy

open GoJson Js Json Text

/-- The parameters of a search. Nothing but an object has any, and the logic is one of two. -/
def parseSearchQuery (raw : Chars) : Option (List (Units × Value)) :=
  if raw = [] then some []
  else
    match parseJson raw with
    | some (.object q) =>
      (textOf (member q (unitsOf "searchLogic".toList))).map fun s =>
        assign q (unitsOf "searchLogic".toList)
          (.string (unitsOf (if upper (chars s) = "OR".toList then "OR".toList else "AND".toList)))
    | _ => some []

structure Clause where
  field : Units
  comparison : Comparison
  values : List Value

def inSet (allowed : List Chars) : Value → Option Units
  | .string s => if s ∈ allowed.map unitsOf then some s else none
  | _ => none

def isZero : Value → Bool
  | .number (.finite x) => x.size = 0
  | _ => false

def isOperator (operator : Value) (name : String) : Bool :=
  match operator with
  | .string s => s = unitsOf name.toList
  | _ => false

def pattern (field front : Units) (value : Value) (back : Units) : Option (Option Clause) :=
  (textOf value).map fun s => some ⟨field, .like, [.string (front ++ s ++ back)]⟩

def percent : Units := unitsOf ['%']

def clauseOn (field : Units) (operator value : Value) : Option (Option Clause) :=
  if isOperator operator "is" || isOperator operator "=" then some (some ⟨field, .equal, [value]⟩)
  else if isOperator operator "begins" then pattern field [] value percent
  else if isOperator operator "contains" then pattern field percent value percent
  else if isOperator operator "ends" then pattern field percent value []
  else if isOperator operator "between" then
    match value with
    | .array [low, high] => some (some ⟨field, .between, [low, high]⟩)
    | _ => some none
  else if isOperator operator ">" || isOperator operator "more" then some (some ⟨field, .more, [value]⟩)
  else if isOperator operator ">=" then some (some ⟨field, .atLeast, [value]⟩)
  else if isOperator operator "<" || isOperator operator "less" then some (some ⟨field, .less, [value]⟩)
  else if isOperator operator "<=" then some (some ⟨field, .atMost, [value]⟩)
  else some none

def clause (allowed : List Chars) (item : Value) : Option (Option Clause) := do
  let value ← property item (unitsOf "value".toList)
  if isFalsy value && !isZero value then pure none
  else
    let field ← property item (unitsOf "field".toList)
    match inSet allowed field with
    | none => pure none
    | some field =>
      let operator ← property item (unitsOf "operator".toList)
      clauseOn field operator value

structure Where where
  clauses : List Clause
  joiner : Joiner

def buildWhere (params : List Value) (logic : Value) (allowed : List Chars) : Option Where := do
  let clauses ← params.mapM (clause allowed)
  let logic ← textOf logic
  pure ⟨clauses.reduceOption, if upper (chars logic) = "OR".toList then .or else .and⟩

def searchWhere (allowed : List Chars) (keep : Value → Bool) (raw : Chars) : Option Where := do
  let q ← parseSearchQuery raw
  let search := member q (unitsOf "search".toList)
  let params ← if isNullish search then pure [] else iterate search
  let logic := member q (unitsOf "searchLogic".toList)
  buildWhere (params.filter keep) (if isNullish logic then .string (unitsOf "AND".toList) else logic) allowed

end Mailgw.Logservice.Legacy
