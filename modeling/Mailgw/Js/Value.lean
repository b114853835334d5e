import Mailgw.Json.Reading
import Mathlib.Data.List.Nodup

namespace Js

open Json Numbers

/-- A plain value of the language. The own members of an object are in any order. -/
inductive Value where
  | undefined
  | null
  | boolean (b : Bool)
  | number (x : Number)
  | string (s : Units)
  | array (elements : List Value)
  | object (members : List (Units × Value))

def member (members : List (Units × Value)) (key : Units) : Value :=
  ((members.find? fun m => m.1 = key).map Prod.snd).getD .undefined

def assign (members : List (Units × Value)) (key : Units) (v : Value) : List (Units × Value) :=
  if members.any fun m => m.1 = key then members.map fun m => if m.1 = key then (key, v) else m else members ++ [(key, v)]

def numberOf (token : Token) : Number := ((Decimal.read token.val).get token.property).toNumber

mutual
def ofTree : Tree → Value
  | .null => .null
  | .bool b => .boolean b
  | .num token => .number (numberOf token)
  | .str s => .string s
  | .arr elements => .array (ofTrees elements)
  | .obj members => .object (ofMembers [] members)

def ofTrees : List Tree → List Value
  | [] => []
  | v :: rest => ofTree v :: ofTrees rest

def ofMembers (before : List (Units × Value)) : List (Units × Tree) → List (Units × Value)
  | [] => before
  | (key, v) :: rest => ofMembers (assign before key (ofTree v)) rest
end

/-- What `JSON.parse` returns. On an invalid text it throws. -/
def parseJson (text : Chars) : Option Value := (parse text).map ofTree

section Equality

/-- Equal but for the order of members, and for those that are undefined. -/
inductive Same : Value → Value → Prop
  | undefined : Same .undefined .undefined
  | null : Same .null .null
  | boolean (b : Bool) : Same (.boolean b) (.boolean b)
  | number {x y : Double} (equal : x.Equal y) : Same (.number (.finite x)) (.number (.finite y))
  | string (s : Units) : Same (.string s) (.string s)
  | array {vs ws : List Value} (length : vs.length = ws.length)
      (each : ∀ (i : Nat) v w, vs[i]? = some v → ws[i]? = some w → Same v w) : Same (.array vs) (.array ws)
  | object {ms ns : List (Units × Value)} (each : ∀ key, Same (member ms key) (member ns key)) : Same (.object ms) (.object ns)

mutual
/-- Values that JSON has. Only members of objects may be undefined. -/
def IsJson : Value → Prop
  | .undefined => False
  | .null => True
  | .boolean _ => True
  | .number x => ∃ d, x = .finite d
  | .string _ => True
  | .array elements => AllJson elements
  | .object members => (members.map Prod.fst).Nodup ∧ MembersJson members

def AllJson : List Value → Prop
  | [] => True
  | v :: rest => IsJson v ∧ AllJson rest

def MembersJson : List (Units × Value) → Prop
  | [] => True
  | (_, v) :: rest => (v = .undefined ∨ IsJson v) ∧ MembersJson rest
end

abbrev JsonValue := {v : Value // IsJson v}

end Equality

theorem number_text (x : Double) : ∃ z, numberOf ⟨x.text, isSome_read_text x⟩ = .finite z ∧ z.Equal x := by
  obtain ⟨d, z, read, number, equal⟩ := read_text x
  refine ⟨z, ?_, equal⟩
  rw [numberOf, ← number]
  exact congrArg Decimal.toNumber (Option.get_of_eq_some _ read)

section Structure
variable {vs : List Value} {ms : List (Units × Value)} {v w : Value} {key : Units}

mutual
theorem Value.induct {P : Value → Prop} (undefined : P .undefined) (null : P .null) (boolean : ∀ b, P (.boolean b))
    (number : ∀ x, P (.number x)) (string : ∀ s, P (.string s)) (array : ∀ vs, (∀ v ∈ vs, P v) → P (.array vs))
    (object : ∀ ms : List (Units × Value), (∀ m ∈ ms, P m.2) → P (.object ms)) : ∀ v, P v
  | .undefined => undefined
  | .null => null
  | .boolean b => boolean b
  | .number x => number x
  | .string s => string s
  | .array vs => array vs (Value.induct_elements undefined null boolean number string array object vs)
  | .object ms => object ms (Value.induct_members undefined null boolean number string array object ms)

theorem Value.induct_elements {P : Value → Prop} (undefined : P .undefined) (null : P .null) (boolean : ∀ b, P (.boolean b))
    (number : ∀ x, P (.number x)) (string : ∀ s, P (.string s)) (array : ∀ vs, (∀ v ∈ vs, P v) → P (.array vs))
    (object : ∀ ms : List (Units × Value), (∀ m ∈ ms, P m.2) → P (.object ms)) : ∀ vs : List Value, ∀ v ∈ vs, P v
  | [] => List.forall_mem_nil _
  | v :: rest => List.forall_mem_cons.mpr
      ⟨Value.induct undefined null boolean number string array object v,
        Value.induct_elements undefined null boolean number string array object rest⟩

theorem Value.induct_members {P : Value → Prop} (undefined : P .undefined) (null : P .null) (boolean : ∀ b, P (.boolean b))
    (number : ∀ x, P (.number x)) (string : ∀ s, P (.string s)) (array : ∀ vs, (∀ v ∈ vs, P v) → P (.array vs))
    (object : ∀ ms : List (Units × Value), (∀ m ∈ ms, P m.2) → P (.object ms)) :
    ∀ ms : List (Units × Value), ∀ m ∈ ms, P m.2
  | [] => List.forall_mem_nil _
  | (_, v) :: rest => List.forall_mem_cons.mpr
      ⟨Value.induct undefined null boolean number string array object v,
        Value.induct_members undefined null boolean number string array object rest⟩
end

theorem allJson_iff : AllJson vs ↔ ∀ v ∈ vs, IsJson v := by
  induction vs with
  | nil => simp [AllJson]
  | cons v rest ih => rw [AllJson, ih, List.forall_mem_cons]

theorem membersJson_iff : MembersJson ms ↔ ∀ m ∈ ms, m.2 = .undefined ∨ IsJson m.2 := by
  induction ms with
  | nil => simp [MembersJson]
  | cons m rest ih => rw [MembersJson, ih, List.forall_mem_cons]

theorem member_eq_or (ms : List (Units × Value)) (key : Units) :
    member ms key = .undefined ∨ ∃ m ∈ ms, m.1 = key ∧ m.2 = member ms key := by
  unfold member
  cases found : ms.find? fun m => m.1 = key with
  | none => exact .inl rfl
  | some m => exact .inr ⟨m, List.mem_of_find?_eq_some found, by simpa using List.find?_some found, rfl⟩

theorem member_json (members : MembersJson ms) (key : Units) : member ms key = .undefined ∨ IsJson (member ms key) := by
  rcases member_eq_or ms key with none | ⟨m, there, -, same⟩
  · exact .inl none
  · rw [← same]
    exact membersJson_iff.mp members m there

theorem Same.undefined_left {a b : Value} (same : Same a b) (none : a = .undefined) : b = .undefined := by
  cases same with
  | undefined => rfl
  | _ => cases none

theorem Same.undefined_right {a b : Value} (same : Same a b) (none : b = .undefined) : a = .undefined := by
  cases same with
  | undefined => rfl
  | _ => cases none

theorem ofTrees_eq (ts : List Tree) : ofTrees ts = ts.map ofTree := by
  induction ts with
  | nil => rfl
  | cons t rest ih => rw [ofTrees, ih, List.map_cons]

theorem assign_of_absent {before : List (Units × Value)} (absent : key ∉ before.map Prod.fst) (v : Value) :
    assign before key v = before ++ [(key, v)] := by
  have none : (before.any fun m => m.1 = key) = false := by
    apply List.any_eq_false.mpr
    intro m there named
    exact absent (List.mem_map.mpr ⟨m, there, of_decide_eq_true named⟩)
  rw [assign, none]
  rfl

theorem ofMembers_eq {before : List (Units × Value)} {ts : List (Units × Tree)}
    (distinct : (before.map Prod.fst ++ ts.map Prod.fst).Nodup) :
    ofMembers before ts = before ++ ts.map fun t => (t.1, ofTree t.2) := by
  induction ts generalizing before with
  | nil => rw [ofMembers, List.map_nil, List.append_nil]
  | cons t rest ih =>
    obtain ⟨name, v⟩ := t
    rw [List.map_cons] at distinct
    have absent : name ∉ before.map Prod.fst := fun there => List.disjoint_of_nodup_append distinct there List.mem_cons_self
    have moved : ((before ++ [(name, ofTree v)]).map Prod.fst ++ rest.map Prod.fst).Nodup := by
      rw [List.map_append, List.append_assoc]
      exact distinct
    rw [ofMembers, assign_of_absent absent, ih moved, List.append_assoc]
    rfl

theorem member_assign (ms : List (Units × Value)) (key : Units) (v : Value) (k : Units) :
    member (assign ms key v) k = if key = k then v else member ms k := by
  unfold assign member
  split
  · rename_i there
    have keys : ((fun m => decide (m.1 = k)) ∘ fun m : Units × Value => if m.1 = key then (key, v) else m) = fun m => decide (m.1 = k) := by
      funext m
      by_cases same : m.1 = key
      · simp [same]
      · simp [same]
    rw [List.find?_map, keys]
    cases found : ms.find? fun m => m.1 = k with
    | none =>
      by_cases wanted : key = k
      · subst wanted
        obtain ⟨m, inside, named⟩ := List.any_eq_true.mp there
        exact absurd named (List.find?_eq_none.mp found m inside)
      · rw [if_neg wanted]
        rfl
    | some m =>
      have named : m.1 = k := by simpa using List.find?_some found
      by_cases wanted : key = k
      · simp [wanted, named]
      · have other : m.1 ≠ key := fun same => wanted (same.symm.trans named)
        simp [wanted, other]
  · rename_i absent
    have nobody (wanted : key = k) : (ms.find? fun m => m.1 = k) = none := by
      subst wanted
      apply List.find?_eq_none.mpr
      intro m inside named
      exact absent (List.any_eq_true.mpr ⟨m, inside, named⟩)
    rw [List.find?_append]
    by_cases wanted : key = k
    · rw [nobody wanted]
      simp [wanted]
    · cases ms.find? fun m => m.1 = k <;> simp [wanted]

theorem member_ofMembers (before : List (Units × Value)) (ts : List (Units × Tree)) (key : Units) :
    member (ofMembers before ts) key =
      (((ts.reverse.find? fun t => t.1 = key).map fun t => ofTree t.2).getD (member before key)) := by
  induction ts generalizing before with
  | nil => rfl
  | cons t ts ih =>
    obtain ⟨name, v⟩ := t
    rw [ofMembers, ih, member_assign, List.reverse_cons, List.find?_append]
    cases ts.reverse.find? fun t => t.1 = key with
    | some t => rfl
    | none =>
      by_cases same : name = key
      · simp [same]
      · simp [same]

end Structure

def isNullish : Value → Bool
  | .undefined => true
  | .null => true
  | _ => false

def isFalsy : Value → Bool
  | .undefined => true
  | .null => true
  | .boolean b => !b
  | .number (.finite x) => x.size = 0
  | .number .nan => true
  | .string s => s = []
  | _ => false

def numberText : Number → Chars
  | .finite x => x.text
  | .infinity negative => if negative then "-Infinity".toList else "Infinity".toList
  | .nan => "NaN".toList

mutual
/-- A value as a string. What JSON has is no function, so an object with a `toString` of its own throws. -/
def textOf : Value → Option Units
  | .undefined => some (unitsOf "undefined".toList)
  | .null => some (unitsOf "null".toList)
  | .boolean b => some (unitsOf (if b then "true".toList else "false".toList))
  | .number x => some (unitsOf (numberText x))
  | .string s => some s
  | .array elements => joinTexts elements
  | .object members =>
    if members.any fun m => m.1 = unitsOf "toString".toList then none else some (unitsOf "[object Object]".toList)

def joinTexts : List Value → Option Units
  | [] => some []
  | v :: rest =>
    (if isNullish v then some [] else textOf v).bind fun s =>
      (joinTexts rest).map fun t => if rest.isEmpty then s else s ++ 44 :: t
end

def codePoints : Units → List Units
  | [] => []
  | [u] => [[u]]
  | high :: low :: rest =>
    if isHigh high && isLow low then [high, low] :: codePoints rest else [high] :: codePoints (low :: rest)

/-- What a loop goes through. A value that is no array and no string throws. -/
def iterate : Value → Option (List Value)
  | .array elements => some elements
  | .string s => some ((codePoints s).map .string)
  | _ => none

/-- A property that only objects have. That of nothing throws. -/
def property (v : Value) (key : Units) : Option Value :=
  match v with
  | .undefined => none
  | .null => none
  | .object members => some (member members key)
  | _ => some .undefined

end Js
