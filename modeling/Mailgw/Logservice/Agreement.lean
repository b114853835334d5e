import Mailgw.Logservice.Entries
import Mailgw.Logservice.Legacy
import Mailgw.Logservice.Search
import Mailgw.Numbers.Notation
import Mailgw.Text.Letters

namespace Mailgw.Logservice

open GoJson Js Json Legacy Numbers Text

/-- A value that is bound in both services. A lone surrogate is lost in either. -/
inductive Alike : Arg → Value → Prop
  | string (s : Units) : Alike (.string (chars s)) (.string s)
  | bool (b : Bool) : Alike (.bool b) (.boolean b)
  | int {x : Double} (whole : isIntegral x = true) : Alike (.int (truncated x)) (.number (.finite x))
  | float (x : Double) : Alike (.float x) (.number (.finite x))

structure SameCondition {allowed : List Chars} (c : Condition allowed) (l : Clause) : Prop where
  field : l.field = unitsOf c.column.val
  comparison : l.comparison = c.comparison
  values : List.Forall₂ Alike c.values l.values

def bindable : Value → Bool
  | .boolean _ => true
  | .number _ => true
  | .string _ => true
  | _ => false

/-- A value that is neither an array nor an object, or a range of two values. -/
def usableValue (operator : Value) : Value → Bool
  | .array [low, high] => isOperator operator "between" && bindable low && bindable high
  | .array _ => false
  | .object _ => false
  | _ => true

def usable : Value → Bool
  | .object ms => usableValue (member ms (unitsOf "operator".toList)) (member ms (unitsOf "value".toList))
  | _ => false

def Names (allowed : List Chars) : Prop := ∀ name ∈ allowed, name ≠ [] ∧ ∀ c ∈ name, Simple c

theorem simple_of_all {s : Chars} (all : (s.all fun c => decide (Simple c)) = true) : ∀ c ∈ s, Simple c :=
  fun c member => of_decide_eq_true (List.all_eq_true.mp all c member)

theorem names_of_all {allowed : List Chars}
    (all : (allowed.all fun name => decide (name ≠ []) && name.all fun c => decide (Simple c)) = true) : Names allowed := by
  intro name member
  obtain ⟨some_, simple⟩ := Bool.and_eq_true_iff.mp (List.all_eq_true.mp all name member)
  exact ⟨of_decide_eq_true some_, simple_of_all simple⟩

theorem Search.names (s : Search) : Names s.fields := by
  cases s <;> exact names_of_all (by decide)

section Texts
variable {x : Double} {s : Units} {t : Chars}

theorem simple_of_numeric {c : Char} (numeric : isNumeric c = true) : Simple c := by
  have small : c.toNat < 128 := by
    simp only [isNumeric, Bool.or_eq_true, decide_eq_true_eq, Char.isDigit, Bool.and_eq_true, ge_iff_le] at numeric
    rcases numeric with ((((⟨-, digit⟩ | rfl) | rfl) | rfl) | rfl) | rfl
    · have bound : c.val.toNat ≤ 57 := UInt32.le_iff_toNat_le.mp digit
      exact Nat.lt_of_le_of_lt bound (by decide)
    all_goals decide
  constructor
  · omega
  · rintro rfl
    exact absurd small (by decide)

theorem chars_text (x : Double) : chars (unitsOf x.text) = x.text :=
  (chars_eq_iff fun c member => simple_of_numeric ((Token.numeric ⟨x.text, isSome_read_text x⟩).2 c member)).mpr rfl

theorem chars_append_percent (s : Units) : chars (s ++ percent) = chars s ++ ['%'] := by
  have low : isLow 37 = false := by decide
  have unit : unitChar 37 = '%' := by decide
  change chars (s ++ [37]) = _
  induction s using chars.induct with
  | case1 => simp [chars, unit]
  | case2 u => simp [chars, low, unit]
  | case3 high low' rest pair ih =>
    simp only [List.cons_append]
    rw [chars, if_pos pair, ih, chars, if_pos pair, List.cons_append]
  | case4 high low' rest apart ih =>
    simp only [List.cons_append] at ih ⊢
    rw [chars, if_neg apart, ih, chars, if_neg apart, List.cons_append]

theorem chars_percent_append (s : Units) : chars (percent ++ s) = '%' :: chars s := by
  have unit : unitChar 37 = '%' := by decide
  change chars (37 :: s) = _
  rw [chars_of_alone (by decide), unit]

/-- A number whose text has no power of ten, and that is no negative zero. -/
structure PlainNumber (x : Double) : Prop where
  sign : x.negative = true → x.size ≠ 0
  near : 'e' ∉ x.text

theorem formatFloat_plain (plain : PlainNumber x) : formatFloat x = x.text := by
  have text : formatFloat x = if x.negative then '-' :: plainText (shortest x.size) else plainText (shortest x.size) := rfl
  have near := plain.near
  rw [text]
  unfold Double.text at near ⊢
  by_cases zero : x.size = 0
  · have positive : x.negative = false := by
      cases negative : x.negative with
      | false => rfl
      | true => exact absurd zero (plain.sign negative)
    have none : plainText (shortest 0) = ['0'] := by decide +kernel
    rw [if_pos zero, zero, positive, none]
    rfl
  · have positive := shortest_pos x.exact (Nat.pos_of_ne_zero zero)
    rw [if_neg zero] at near ⊢
    cases negative : x.negative with
    | false =>
      rw [negative, if_neg Bool.false_ne_true] at near
      rw [if_neg Bool.false_ne_true, if_neg Bool.false_ne_true, decimalText_plain positive near]
    | true =>
      rw [negative, if_pos rfl] at near
      have inner : 'e' ∉ decimalText (shortest x.size) := fun member => near (List.mem_cons_of_mem _ member)
      rw [if_pos rfl, if_pos rfl, decimalText_plain positive inner]

end Texts

section Members
variable {t : Tree} {v : Value}

def Shown (t : Tree) (v : Value) : Prop := v = ofTree t ∨ t = .null ∧ v = .undefined

theorem shown_member (ms : List (Units × Tree)) (name : String) :
    Shown (memberOf (.obj ms) name) (member (ofMembers [] ms) (unitsOf name.toList)) := by
  rw [member_ofMembers]
  unfold memberOf valueUnder
  dsimp only
  cases ms.reverse.find? fun m => m.1 = unitsOf name.toList with
  | none => exact .inr ⟨rfl, rfl⟩
  | some m => exact .inl rfl

theorem isOperator_shown {name : String} (shown : Shown t v) (simple : name.toList ≠ [] ∧ ∀ c ∈ name.toList, Simple c) :
    isOperator v name = decide (textIn t = name.toList) := by
  obtain ⟨some_, simple⟩ := simple
  have none : isOperator .undefined name = decide (textIn .null = name.toList) := by simp [isOperator, textIn, Ne.symm some_]
  rcases shown with rfl | ⟨rfl, rfl⟩
  · cases t with
    | str s =>
      exact decide_eq_decide.mpr (chars_eq_iff simple).symm
    | null => simp [ofTree, isOperator, textIn, Ne.symm some_]
    | bool b => simp [ofTree, isOperator, textIn, Ne.symm some_]
    | num token => simp [ofTree, isOperator, textIn, Ne.symm some_]
    | arr vs => simp [ofTree, isOperator, textIn, Ne.symm some_]
    | obj ms => simp [ofTree, isOperator, textIn, Ne.symm some_]
  · exact none

theorem inSet_shown {allowed : List Chars} (names : Names allowed) (shown : Shown t v) :
    inSet allowed v = if textIn t ∈ allowed then some (unitsOf (textIn t)) else none := by
  have empty : [] ∉ allowed := fun member => (names [] member).1 rfl
  rcases shown with rfl | ⟨rfl, rfl⟩
  · cases t with
    | str s =>
      change (if s ∈ allowed.map unitsOf then some s else none) = _
      by_cases known : textIn (.str s) ∈ allowed
      · have units : s = unitsOf (textIn (.str s)) := (chars_eq_iff (names _ known).2).mp rfl
        rw [if_pos known, ← units, if_pos (List.mem_map.mpr ⟨_, known, units.symm⟩)]
      · rw [if_neg known, if_neg]
        intro member
        obtain ⟨name, there, rfl⟩ := List.mem_map.mp member
        have same : textIn (.str (unitsOf name)) = name := (chars_eq_iff (names name there).2).mpr rfl
        exact known (same.symm ▸ there)
    | null => simp [ofTree, inSet, textIn, empty]
    | bool b => simp [ofTree, inSet, textIn, empty]
    | num token => simp [ofTree, inSet, textIn, empty]
    | arr vs => simp [ofTree, inSet, textIn, empty]
    | obj ms => simp [ofTree, inSet, textIn, empty]
  · simp [inSet, textIn, empty]

end Members

section Clauses
variable {t : Tree} {o v : Value} {a : Any} {arg : Arg} {allowed : List Chars} {column : Column allowed} {field : Units}

def operators : List String := ["is", "=", "begins", "contains", "ends", "between", ">", "more", ">=", "<", "less", "<="]

theorem operators_simple {name : String} (member : name ∈ operators) : name.toList ≠ [] ∧ ∀ c ∈ name.toList, Simple c := by
  have names : Names (operators.map String.toList) := names_of_all (by decide)
  exact names _ (List.mem_map_of_mem member)

def patternOperators : List Chars := ["begins".toList, "contains".toList, "ends".toList]

theorem clauseOn_shown (shown : Shown t o) : clauseOn field o v =
    if textIn t = "is".toList ∨ textIn t = "=".toList then some (some ⟨field, .equal, [v]⟩)
    else if textIn t = "begins".toList then pattern field [] v percent
    else if textIn t = "contains".toList then pattern field percent v percent
    else if textIn t = "ends".toList then pattern field percent v []
    else if textIn t = "between".toList then
      match v with
      | .array [low, high] => some (some ⟨field, .between, [low, high]⟩)
      | _ => some none
    else if textIn t = ">".toList ∨ textIn t = "more".toList then some (some ⟨field, .more, [v]⟩)
    else if textIn t = ">=".toList then some (some ⟨field, .atLeast, [v]⟩)
    else if textIn t = "<".toList ∨ textIn t = "less".toList then some (some ⟨field, .less, [v]⟩)
    else if textIn t = "<=".toList then some (some ⟨field, .atMost, [v]⟩)
    else some none := by
  have is (name : String) (member : name ∈ operators) : isOperator o name = decide (textIn t = name.toList) :=
    isOperator_shown shown (operators_simple member)
  unfold clauseOn
  rw [is "is" (by simp [operators]), is "=" (by simp [operators]), is "begins" (by simp [operators]),
    is "contains" (by simp [operators]), is "ends" (by simp [operators]), is "between" (by simp [operators]), is ">" (by simp [operators]), is "more" (by simp [operators]),
    is ">=" (by simp [operators]), is "<" (by simp [operators]), is "less" (by simp [operators]), is "<=" (by simp [operators])]
  have either (x y : Prop) [Decidable x] [Decidable y] : ((decide x || decide y) = true) = (x ∨ y) := by
    rw [Bool.or_eq_true, decide_eq_true_eq, decide_eq_true_eq]
  have one (x : Prop) [Decidable x] : (decide x = true) = x := by rw [decide_eq_true_eq]
  refine ite_congr (either _ _) (fun _ => rfl) fun _ => ?_
  refine ite_congr (one _) (fun _ => rfl) fun _ => ?_
  refine ite_congr (one _) (fun _ => rfl) fun _ => ?_
  refine ite_congr (one _) (fun _ => rfl) fun _ => ?_
  refine ite_congr (one _) (fun _ => rfl) fun _ => ?_
  refine ite_congr (either _ _) (fun _ => rfl) fun _ => ?_
  refine ite_congr (one _) (fun _ => rfl) fun _ => ?_
  refine ite_congr (either _ _) (fun _ => rfl) fun _ => ?_
  exact ite_congr (one _) (fun _ => rfl) fun _ => rfl

def Agree (c : Option (Condition allowed)) (l : Option (Option Clause)) : Prop := ∃ l', l = some l' ∧ Option.Rel SameCondition c l'

theorem agree_single {comparison : Comparison} (one : comparison.arity = 1) (bound : scalar a = some arg) (alike : Alike arg v) :
    Agree (single column comparison one (scalar a)) (some (some ⟨unitsOf column.val, comparison, [v]⟩)) := by
  rw [bound]
  exact ⟨_, rfl, .some ⟨rfl, rfl, .cons alike .nil⟩⟩

theorem agree_pattern {front back : Units} {around : Chars → Chars} (text : ∃ s, textOf v = some s ∧ likeText a = some (chars s))
    (same : ∀ s, chars (front ++ s ++ back) = around (chars s)) :
    Agree (single column .like rfl ((likeText a).map fun s => .string (around s))) (pattern (unitsOf column.val) front v back) := by
  obtain ⟨s, shown, like⟩ := text
  rw [pattern, shown, like, Option.map_some, Option.map_some, ← same s]
  exact ⟨_, rfl, .some ⟨rfl, rfl, .cons (.string _) .nil⟩⟩

theorem agree_scalar (shown : Shown t o) (bound : scalar a = some arg) (alike : Alike arg v) (slice : ∀ vs, a ≠ .slice vs)
    (array : ∀ vs, v ≠ .array vs)
    (text : textIn t ∈ patternOperators → ∃ s, textOf v = some s ∧ likeText a = some (chars s)) :
    Agree (conditionOn column (textIn t) a) (clauseOn (unitsOf column.val) o v) := by
  rw [clauseOn_shown shown]
  unfold conditionOn
  by_cases is : textIn t = "is".toList ∨ textIn t = "=".toList
  · rw [if_pos is, if_pos is]
    exact agree_single rfl bound alike
  rw [if_neg is, if_neg is]
  by_cases begins : textIn t = "begins".toList
  · rw [if_pos begins, if_pos begins]
    exact agree_pattern (text (by simp [patternOperators, begins])) fun s => by rw [List.nil_append, chars_append_percent]
  rw [if_neg begins, if_neg begins]
  by_cases contains : textIn t = "contains".toList
  · rw [if_pos contains, if_pos contains]
    exact agree_pattern (text (by simp [patternOperators, contains])) fun s => by
      rw [chars_append_percent, chars_percent_append]
  rw [if_neg contains, if_neg contains]
  by_cases ends : textIn t = "ends".toList
  · rw [if_pos ends, if_pos ends]
    exact agree_pattern (text (by simp [patternOperators, ends])) fun s => by rw [List.append_nil, chars_percent_append]
  rw [if_neg ends, if_neg ends]
  by_cases between : textIn t = "between".toList
  · rw [if_pos between, if_pos between]
    refine ⟨none, ?_, ?_⟩
    · cases v with
      | array vs => exact absurd rfl (array vs)
      | _ => rfl
    · cases a with
      | slice vs => exact absurd rfl (slice vs)
      | _ => exact .none
  rw [if_neg between, if_neg between]
  by_cases more : textIn t = ">".toList ∨ textIn t = "more".toList
  · rw [if_pos more, if_pos more]
    exact agree_single rfl bound alike
  rw [if_neg more, if_neg more]
  by_cases atLeast : textIn t = ">=".toList
  · rw [if_pos atLeast, if_pos atLeast]
    exact agree_single rfl bound alike
  rw [if_neg atLeast, if_neg atLeast]
  by_cases less : textIn t = "<".toList ∨ textIn t = "less".toList
  · rw [if_pos less, if_pos less]
    exact agree_single rfl bound alike
  rw [if_neg less, if_neg less]
  by_cases atMost : textIn t = "<=".toList
  · rw [if_pos atMost, if_pos atMost]
    exact agree_single rfl bound alike
  rw [if_neg atMost, if_neg atMost]
  exact ⟨none, rfl, .none⟩

theorem numberOf_of_decoded {token : Token} {x : Double} (read : decodeNumber token = some x) : numberOf token = .finite x := by
  obtain ⟨d, here, finite⟩ := Option.bind_eq_some_iff.mp read
  have same : (Decimal.read token.val).get token.property = d := Option.get_of_eq_some _ here
  rw [numberOf, same]
  split at finite
  · rename_i y is
    rw [is, Option.some.inj finite]
  · cases finite

theorem none_of_ite {α : Type} {p : Prop} [Decidable p] {x y : Option α} (first : p → x = none) (second : y = none) :
    (if p then x else y) = none := by
  split
  · rename_i holds
    exact first holds
  · exact second

theorem conditionOn_none {op : Chars} (unbound : scalar a = none) (text : likeText a = none)
    (range : ∀ low high, a = .slice [low, high] → op = "between".toList → scalar low = none ∨ scalar high = none) :
    conditionOn column op a = none := by
  unfold conditionOn
  rw [unbound, text]
  apply none_of_ite fun _ => rfl
  apply none_of_ite fun _ => rfl
  apply none_of_ite fun _ => rfl
  apply none_of_ite fun _ => rfl
  apply none_of_ite
  · intro between
    split
    · rename_i low high
      rcases range low high rfl between with gone | gone
      · rw [gone]
      · rw [gone]
        cases scalar low <;> rfl
    · rfl
  apply none_of_ite fun _ => rfl
  apply none_of_ite fun _ => rfl
  apply none_of_ite fun _ => rfl
  exact none_of_ite (fun _ => rfl) rfl

theorem scalar_of_decoded {tv : Tree} (decoded : decodeAny tv = some a) :
    (bindable (ofTree tv) = true → ∃ arg, scalar a = some arg ∧ Alike arg (ofTree tv)) ∧
      (bindable (ofTree tv) = false → scalar a = none) := by
  cases tv with
  | null =>
    obtain rfl := Option.some.inj decoded
    exact ⟨fun takes => absurd takes Bool.false_ne_true, fun _ => rfl⟩
  | bool b =>
    obtain rfl := Option.some.inj decoded
    exact ⟨fun _ => ⟨.bool b, rfl, .bool b⟩, fun other => absurd other.symm Bool.false_ne_true⟩
  | str u =>
    obtain rfl := Option.some.inj decoded
    exact ⟨fun _ => ⟨.string (chars u), rfl, .string u⟩, fun other => absurd other.symm Bool.false_ne_true⟩
  | num token =>
    rw [decodeAny] at decoded
    obtain ⟨x, read, rfl⟩ := Option.map_eq_some_iff.mp decoded
    rw [ofTree, numberOf_of_decoded read]
    refine ⟨fun _ => ?_, fun other => absurd other.symm Bool.false_ne_true⟩
    rw [scalar]
    split
    · rename_i whole
      exact ⟨_, rfl, .int (Bool.and_eq_true_iff.mp whole).1⟩
    · exact ⟨_, rfl, .float x⟩
  | arr ts =>
    obtain ⟨as, -, rfl⟩ := Option.map_eq_some_iff.mp decoded
    exact ⟨fun takes => absurd takes Bool.false_ne_true, fun _ => rfl⟩
  | obj ms =>
    obtain ⟨u, -, rfl⟩ := Option.map_eq_some_iff.mp decoded
    exact ⟨fun takes => absurd takes Bool.false_ne_true, fun _ => rfl⟩

theorem text_of_decoded {tv : Tree} (decoded : decodeAny tv = some a) (takes : bindable (ofTree tv) = true)
    (plain : ∀ x, a = .float x → PlainNumber x) : ∃ s, textOf (ofTree tv) = some s ∧ likeText a = some (chars s) := by
  cases tv with
  | null => exact absurd takes Bool.false_ne_true
  | bool b =>
    obtain rfl := Option.some.inj decoded
    cases b
    · exact ⟨_, rfl, congrArg some ((chars_eq_iff (simple_of_all (by decide))).mpr rfl).symm⟩
    · exact ⟨_, rfl, congrArg some ((chars_eq_iff (simple_of_all (by decide))).mpr rfl).symm⟩
  | str u =>
    obtain rfl := Option.some.inj decoded
    exact ⟨u, rfl, rfl⟩
  | num token =>
    rw [decodeAny] at decoded
    obtain ⟨x, read, rfl⟩ := Option.map_eq_some_iff.mp decoded
    refine ⟨unitsOf x.text, by rw [ofTree, numberOf_of_decoded read]; rfl, ?_⟩
    rw [likeText, formatFloat_plain (plain x rfl), chars_text]
  | arr ts => exact absurd takes Bool.false_ne_true
  | obj ms => exact absurd takes Bool.false_ne_true

theorem decodeAnys_forall₂ {ts : List Tree} {as : List Any} (decoded : decodeAnys ts = some as) :
    List.Forall₂ (fun t a => decodeAny t = some a) ts as := by
  induction ts generalizing as with
  | nil =>
    obtain rfl := Option.some.inj decoded
    exact .nil
  | cons t ts ih =>
    rw [decodeAnys] at decoded
    obtain ⟨x, here, rest⟩ := Option.bind_eq_some_iff.mp decoded
    obtain ⟨xs, below, rfl⟩ := Option.map_eq_some_iff.mp rest
    exact .cons here (ih below)

theorem agree_range {low high : Any} {low' high' : Value} {l h : Arg} (shown : Shown t o) (between : textIn t = "between".toList)
    (boundLow : scalar low = some l) (boundHigh : scalar high = some h) (alikeLow : Alike l low') (alikeHigh : Alike h high') :
    Agree (conditionOn column (textIn t) (.slice [low, high])) (clauseOn (unitsOf column.val) o (.array [low', high'])) := by
  rw [clauseOn_shown shown, between]
  unfold conditionOn
  have apart : ("between".toList ≠ "is".toList ∧ "between".toList ≠ "=".toList) ∧ "between".toList ≠ "begins".toList ∧
      "between".toList ≠ "contains".toList ∧ "between".toList ≠ "ends".toList := by
    decide
  obtain ⟨⟨is, equal⟩, begins, contains, ends⟩ := apart
  have neither : ¬("between".toList = "is".toList ∨ "between".toList = "=".toList) := not_or.mpr ⟨is, equal⟩
  rw [if_neg neither, if_neg begins, if_neg contains, if_neg ends, if_pos rfl, if_neg neither, if_neg begins, if_neg contains,
    if_neg ends, if_pos rfl]
  dsimp only
  rw [boundLow, boundHigh]
  exact ⟨_, rfl, .some ⟨rfl, rfl, .cons alikeLow (.cons alikeHigh .nil)⟩⟩

theorem skips_of_decoded {tv : Tree} (decoded : decodeAny tv = some a) (shown : Shown tv v) :
    (isFalsy v && !isZero v) = skipValue a := by
  rcases shown with rfl | ⟨rfl, rfl⟩
  · cases tv with
    | null =>
      obtain rfl := Option.some.inj decoded
      rfl
    | bool b =>
      obtain rfl := Option.some.inj decoded
      exact Bool.and_true _
    | str s =>
      obtain rfl := Option.some.inj decoded
      have empty : s = [] ↔ chars s = [] := ((chars_eq_iff (List.forall_mem_nil _)).trans Iff.rfl).symm
      exact (Bool.and_true _).trans (decide_eq_decide.mpr empty)
    | num token =>
      rw [decodeAny] at decoded
      obtain ⟨x, read, rfl⟩ := Option.map_eq_some_iff.mp decoded
      rw [ofTree, numberOf_of_decoded read]
      exact Bool.and_not_self _
    | arr ts =>
      rw [decodeAny] at decoded
      obtain ⟨as, -, rfl⟩ := Option.map_eq_some_iff.mp decoded
      rfl
    | obj ms =>
      rw [decodeAny] at decoded
      obtain ⟨u, -, rfl⟩ := Option.map_eq_some_iff.mp decoded
      rfl
  · obtain rfl := Option.some.inj decoded
    rfl

section Values
variable {tv : Tree} (decoded : decodeAny tv = some a) (shown : Shown t o)
include decoded shown

theorem agree_value (shownValue : Shown tv v) (kept : skipValue a = false) (fits : usableValue o v = true)
    (plain : textIn t ∈ patternOperators → ∀ x, a = .float x → PlainNumber x) :
    Agree (conditionOn column (textIn t) a) (clauseOn (unitsOf column.val) o v) := by
  rcases shownValue with rfl | ⟨rfl, rfl⟩
  · cases takes : bindable (ofTree tv) with
    | true =>
      obtain ⟨arg, bound, alike⟩ := (scalar_of_decoded decoded).1 takes
      refine agree_scalar shown bound alike (fun vs slice => ?_) (fun vs array => ?_) fun matches_ => ?_
      · rw [slice] at bound
        cases bound
      · rw [array] at takes
        cases takes
      · exact text_of_decoded decoded takes (plain matches_)
    | false =>
      cases tv with
      | null =>
        obtain rfl := Option.some.inj decoded
        cases kept
      | arr ts =>
        rw [decodeAny] at decoded
        obtain ⟨as, read, rfl⟩ := Option.map_eq_some_iff.mp decoded
        rcases decodeAnys_forall₂ read with _ | ⟨low, _ | ⟨high, _ | ⟨-, -⟩⟩⟩
        · cases fits
        · cases fits
        · have both : (isOperator o "between" && bindable (ofTree _) && bindable (ofTree _)) = true := fits
          rw [isOperator_shown shown (operators_simple (by simp [operators]))] at both
          obtain ⟨rest, takesHigh⟩ := Bool.and_eq_true_iff.mp both
          obtain ⟨between, takesLow⟩ := Bool.and_eq_true_iff.mp rest
          obtain ⟨l, boundLow, alikeLow⟩ := (scalar_of_decoded low).1 takesLow
          obtain ⟨h, boundHigh, alikeHigh⟩ := (scalar_of_decoded high).1 takesHigh
          exact agree_range shown (of_decide_eq_true between) boundLow boundHigh alikeLow alikeHigh
        · cases fits
      | obj ms => cases fits
      | bool b => cases takes
      | num token => cases takes
      | str s => cases takes
  · obtain rfl := Option.some.inj decoded
    cases kept

theorem no_condition_of_unusable (shownValue : Shown tv v) (other : usableValue o v = false) :
    conditionOn column (textIn t) a = none := by
  rcases shownValue with rfl | ⟨rfl, rfl⟩
  · cases tv with
    | null => cases other
    | bool b => cases other
    | num token => cases other
    | str s => cases other
    | arr ts =>
      rw [decodeAny] at decoded
      obtain ⟨as, read, rfl⟩ := Option.map_eq_some_iff.mp decoded
      refine conditionOn_none rfl rfl fun low high pair between => ?_
      obtain rfl := Any.slice.inj pair
      rcases decodeAnys_forall₂ read with _ | ⟨lowRead, _ | ⟨highRead, _ | ⟨-, -⟩⟩⟩
      have both : (isOperator o "between" && bindable (ofTree _) && bindable (ofTree _)) = false := other
      rw [isOperator_shown shown (operators_simple (by simp [operators])), decide_eq_true between, Bool.true_and] at both
      rcases Bool.and_eq_false_iff.mp both with not | not
      · exact .inl ((scalar_of_decoded lowRead).2 not)
      · exact .inr ((scalar_of_decoded highRead).2 not)
    | obj ms =>
      rw [decodeAny] at decoded
      obtain ⟨u, -, rfl⟩ := Option.map_eq_some_iff.mp decoded
      refine conditionOn_none rfl rfl fun low high pair _ => ?_
      cases pair
  · cases other

end Values

end Clauses

section Filters
variable {allowed : List Chars} {e t : Tree} {es : List Tree} {raw : List UInt8}

/-- A filter that decodes, with a text for a pattern that is the same in both. -/
structure PlainFilter (e : Tree) : Prop where
  object : e = .null ∨ ∃ ms, e = .obj ms
  value : decodeAny (memberOf e "value") = some (anyIn (memberOf e "value"))
  plain : textIn (memberOf e "operator") ∈ patternOperators → ∀ x, anyIn (memberOf e "value") = .float x → PlainNumber x

theorem clause_object (ms : List (Units × Value)) :
    clause allowed (.object ms) =
      if isFalsy (member ms (unitsOf "value".toList)) && !isZero (member ms (unitsOf "value".toList)) then some none
      else
        match inSet allowed (member ms (unitsOf "field".toList)) with
        | none => some none
        | some field => clauseOn field (member ms (unitsOf "operator".toList)) (member ms (unitsOf "value".toList)) := rfl

theorem agree_filter (names : Names allowed) (filter : PlainFilter e) (fits : usable (ofTree e) = true) :
    Agree (conditionOf allowed (paramOf e)) (clause allowed (ofTree e)) := by
  rcases filter.object with rfl | ⟨ms, rfl⟩
  · cases fits
  rw [ofTree] at fits ⊢
  rw [usable] at fits
  rw [clause_object, skips_of_decoded filter.value (shown_member ms "value"), inSet_shown names (shown_member ms "field"), conditionOf]
  by_cases skip : skipValue (anyIn (memberOf (.obj ms) "value")) = true
  · rw [paramOf, if_pos skip, if_pos skip]
    exact ⟨none, rfl, .none⟩
  rw [paramOf, if_neg skip, if_neg skip]
  by_cases known : textIn (memberOf (.obj ms) "field") ∈ allowed
  · rw [dif_pos known, if_pos known]
    exact agree_value filter.value (shown_member ms "operator") (shown_member ms "value") (Bool.eq_false_iff.mpr skip) fits
      filter.plain
  · rw [dif_neg known, if_neg known]
    exact ⟨none, rfl, .none⟩

theorem no_condition_of_filter (filter : PlainFilter e) (other : usable (ofTree e) = false) :
    conditionOf allowed (paramOf e) = none := by
  rcases filter.object with rfl | ⟨ms, rfl⟩
  · rfl
  rw [ofTree, usable] at other
  unfold conditionOf
  split
  · rfl
  split
  · exact no_condition_of_unusable filter.value (shown_member ms "operator") (shown_member ms "value") other
  · rfl

theorem mapM_cons_some {α β : Type} {f : α → Option β} {x : α} {xs : List α} {y : β} {ys : List β} (first : f x = some y)
    (rest : xs.mapM f = some ys) : (x :: xs).mapM f = some (y :: ys) := by
  rw [List.mapM_cons, first, rest]
  rfl

theorem agree_filters (names : Names allowed) (filters : ∀ e ∈ es, PlainFilter e) :
    ∃ ls, ((ofTrees es).filter usable).mapM (clause allowed) = some ls ∧
      List.Forall₂ SameCondition (es.filterMap fun e => conditionOf allowed (paramOf e)) ls.reduceOption := by
  induction es with
  | nil => exact ⟨[], rfl, .nil⟩
  | cons e es ih =>
    obtain ⟨first, others⟩ := List.forall_mem_cons.mp filters
    obtain ⟨ls, rest, same⟩ := ih others
    rw [ofTrees, List.filter_cons, List.filterMap_cons]
    cases fits : usable (ofTree e) with
    | false =>
      rw [if_neg Bool.false_ne_true, no_condition_of_filter first fits]
      exact ⟨ls, rest, same⟩
    | true =>
      obtain ⟨l, here, alike⟩ := agree_filter names first fits
      rw [if_pos rfl]
      refine ⟨l :: ls, mapM_cons_some here rest, ?_⟩
      generalize conditionOf allowed (paramOf e) = c at alike ⊢
      cases alike with
      | none => exact same
      | some one => exact .cons one same

end Filters

section Requests
variable {allowed : List Chars} {t : Tree} {raw : List UInt8}

def PlainPatterns (t : Tree) : Prop :=
  ∀ e ∈ entriesOf t "search", textIn (memberOf e "operator") ∈ patternOperators →
    ∀ x, anyIn (memberOf e "value") = .float x → PlainNumber x

theorem plainFilter_of_decoded {e : Tree} {p : Param} (spelled : SpelledIn paramFields e)
    (decoded : structInto paramFields e .zero = some p)
    (plain : textIn (memberOf e "operator") ∈ patternOperators → ∀ x, anyIn (memberOf e "value") = .float x → PlainNumber x) :
    PlainFilter e := by
  obtain ⟨value, same⟩ := paramOf_of_decoded spelled decoded
  rw [same] at value
  refine ⟨?_, value, plain⟩
  cases e with
  | null => exact .inl rfl
  | obj ms => exact .inr ⟨ms, rfl⟩
  | bool b => cases decoded
  | num token => cases decoded
  | str s => cases decoded
  | arr vs => cases decoded

theorem filters_of_regular (regular : Regular t) (plain : PlainPatterns t) : ∀ e ∈ entriesOf t "search", PlainFilter e := by
  cases t with
  | obj ms =>
    obtain ⟨q, decoded⟩ := Option.isSome_iff_exists.mp (regular.decodes ms rfl)
    have search := entries_of_spelled reads_search (by decide) regular.names rfl decoded
    have each := (List.forall₂_and_left _ _).mpr ⟨fun e member => And.intro (regular.filters e member) (plain e member), search⟩
    have filters := each.imp (S := fun e p => PlainFilter e ∧ structInto paramFields e .zero = some p) fun e p all =>
      ⟨plainFilter_of_decoded all.1.1 all.2 all.1.2, all.2⟩
    exact ((List.forall₂_and_left _ _).mp filters).1
  | _ => exact List.forall_mem_nil _

theorem logic_of_shown {t : Tree} {v : Value} (shown : Shown t v) (text : t = .null ∨ ∃ s, t = .str s) :
    ∃ s, textOf v = some s ∧ (upper (chars s) = "OR".toList ↔ upper (textIn t) = "OR".toList) := by
  rcases text with rfl | ⟨s, rfl⟩
  · rcases shown with rfl | ⟨-, rfl⟩
    · exact ⟨_, rfl, by decide⟩
    · exact ⟨_, rfl, by decide⟩
  · rcases shown with rfl | ⟨impossible, -⟩
    · exact ⟨s, rfl, Iff.rfl⟩
    · cases impossible

theorem params_of_shown {v : Value} (shown : Shown (memberOf t "search") v)
    (list : memberOf t "search" = .null ∨ ∃ es, memberOf t "search" = .arr es) :
    (if isNullish v then pure [] else iterate v) = some (ofTrees (entriesOf t "search")) := by
  unfold entriesOf
  rcases list with null | ⟨es, array⟩
  · rw [null] at shown ⊢
    rcases shown with rfl | ⟨-, rfl⟩
    · rfl
    · rfl
  · rw [array] at shown ⊢
    rcases shown with rfl | ⟨impossible, -⟩
    · rfl
    · cases impossible

theorem list_of_regular {ms : List (Units × Tree)} (regular : Regular (.obj ms)) :
    memberOf (.obj ms) "search" = .null ∨ ∃ es, memberOf (.obj ms) "search" = .arr es := by
  obtain ⟨q, decoded⟩ := Option.isSome_iff_exists.mp (regular.decodes ms rfl)
  rcases part_of_spelled reads_search (by decide) regular.names decoded with ⟨gone, -⟩ | here
  · exact .inl gone
  · rcases elements_of_fresh here with ⟨null, -⟩ | ⟨es, array, -⟩
    · exact .inl null
    · exact .inr ⟨es, array⟩

theorem text_of_regular {ms : List (Units × Tree)} (regular : Regular (.obj ms)) :
    memberOf (.obj ms) "searchLogic" = .null ∨ ∃ s, memberOf (.obj ms) "searchLogic" = .str s := by
  obtain ⟨q, decoded⟩ := Option.isSome_iff_exists.mp (regular.decodes ms rfl)
  rcases part_of_spelled reads_searchLogic (by decide +kernel) regular.names decoded with ⟨gone, -⟩ | here
  · exact .inl gone
  · cases member : memberOf (.obj ms) "searchLogic" with
    | null => exact .inl rfl
    | str s => exact .inr ⟨s, rfl⟩
    | bool b => rw [member] at here; cases here
    | num token => rw [member] at here; cases here
    | arr vs => rw [member] at here; cases here
    | obj ns => rw [member] at here; cases here

theorem joiner_of_word (p : Prop) [Decidable p] :
    (if upper (chars (unitsOf (if p then "OR".toList else "AND".toList))) = "OR".toList then Joiner.or else .and) =
      if p then .or else .and := by
  by_cases holds : p
  · rw [if_pos holds, if_pos holds]
    decide
  · rw [if_neg holds, if_neg holds]
    decide

theorem searchWhere_of_query {text : Chars} {q : List (Units × Value)} {vs : List Value} (keep : Value → Bool)
    (parsed : parseSearchQuery text = some q)
    (params : (if isNullish (member q (unitsOf "search".toList)) then pure []
      else iterate (member q (unitsOf "search".toList))) = some vs) :
    searchWhere allowed keep text =
      Legacy.buildWhere (vs.filter keep)
        (if isNullish (member q (unitsOf "searchLogic".toList)) then .string (unitsOf "AND".toList)
          else member q (unitsOf "searchLogic".toList)) allowed := by
  rw [searchWhere, parsed]
  change (if isNullish _ = true then Option.bind (pure []) _ else Option.bind (iterate _) _) = _
  by_cases none : isNullish (member q (unitsOf "search".toList)) = true
  · rw [if_pos none] at params ⊢
    rw [params]
    rfl
  · rw [if_neg none] at params ⊢
    rw [params]
    rfl

theorem parseJson_of_tree (read : readTree raw = some t) : runes raw ≠ [] ∧ parseJson (runes raw) = some (ofTree t) := by
  constructor
  · intro empty
    rw [readTree, empty] at read
    cases read
  · have text := (Option.filter_eq_some_iff.mp read).1
    rw [parseJson, text]
    rfl

theorem searchWhere_of_object {ms : List (Units × Tree)} (keep : Value → Bool) (read : readTree raw = some (.obj ms))
    (regular : Regular (.obj ms)) :
    searchWhere allowed keep (runes raw) =
      (((ofTrees (entriesOf (.obj ms) "search")).filter keep).mapM (clause allowed)).map fun cs =>
        ⟨cs.reduceOption, joinerOf (textIn (memberOf (.obj ms) "searchLogic"))⟩ := by
  obtain ⟨some_, parsed⟩ := parseJson_of_tree read
  obtain ⟨s, logic, same⟩ := logic_of_shown (shown_member ms "searchLogic") (text_of_regular regular)
  have params := params_of_shown (shown_member ms "search") (list_of_regular regular)
  have apart : unitsOf "searchLogic".toList ≠ unitsOf "search".toList := by decide
  have query : parseSearchQuery (runes raw) = some (assign (ofMembers [] ms) (unitsOf "searchLogic".toList)
      (.string (unitsOf (if upper (chars s) = "OR".toList then "OR".toList else "AND".toList)))) := by
    rw [parseSearchQuery, if_neg some_, parsed, ofTree]
    dsimp only
    rw [logic]
    rfl
  rw [searchWhere_of_query keep query (by rw [member_assign, if_neg apart]; exact params), member_assign, if_pos rfl]
  change Option.bind (List.mapM _ _) _ = Option.map _ (List.mapM _ _)
  have joined : (if upper (chars s) = "OR".toList then Joiner.or else .and) = joinerOf (textIn (memberOf (.obj ms) "searchLogic")) :=
    ite_congr (propext same) (fun _ => rfl) fun _ => rfl
  rw [← joined, ← joiner_of_word]
  cases List.mapM (clause allowed) ((ofTrees (entriesOf (.obj ms) "search")).filter keep) <;> rfl

theorem searchWhere_of_other (keep : Value → Bool) (read : readTree raw = some t) (other : ∀ ms, t ≠ .obj ms) :
    searchWhere allowed keep (runes raw) = some ⟨[], .and⟩ := by
  obtain ⟨some_, parsed⟩ := parseJson_of_tree read
  have query : parseSearchQuery (runes raw) = some [] := by
    rw [parseSearchQuery, if_neg some_, parsed]
    cases t with
    | obj ms => exact absurd rfl (other ms)
    | _ => rfl
  rw [searchWhere_of_query keep query rfl]
  have word : (if upper (chars (unitsOf "AND".toList)) = "OR".toList then Joiner.or else .and) = .and := by decide
  exact congrArg (fun joiner => some (Legacy.Where.mk [] joiner)) word

/-- A request is read entry by entry, and those of its filters that are to be kept have the same conditions in both services,
    in the same order and with the same values. -/
def Agrees [Conversion] (keep : Value → Bool) (s : Search) (raw : List UInt8) (t : Tree) : Prop :=
  (parse raw).reading s.fields = entryByEntry s.fields t ∧
    ∃ w, searchWhere s.fields keep (runes raw) = some w ∧ w.joiner = ((parse raw).reading s.fields).joiner ∧
      List.Forall₂ SameCondition ((parse raw).reading s.fields).conditions w.clauses

/-- A regular request is read entry by entry, and the two services agree on its usable filters. -/
theorem search_agrees [Conversion] (s : Search) (raw : List UInt8) (t : Tree) (read : readTree raw = some t) (regular : Regular t)
    (plain : PlainPatterns t) : Agrees usable s raw t := by
  have reading : (parse raw).reading s.fields = entryByEntry s.fields t := reading_of_regular read regular
  unfold Agrees
  rw [reading]
  refine ⟨rfl, ?_⟩
  have other (different : ∀ ms, t ≠ .obj ms) (none : ∀ name, memberOf t name = .null) :
      ∃ w, searchWhere s.fields usable (runes raw) = some w ∧ w.joiner = (entryByEntry s.fields t).joiner ∧
        List.Forall₂ SameCondition (entryByEntry s.fields t).conditions w.clauses := by
    refine ⟨_, searchWhere_of_other usable read different, ?_⟩
    unfold entryByEntry entriesOf
    simp only [none]
    exact ⟨by decide, .nil⟩
  cases t with
  | obj ms =>
    obtain ⟨ls, whole, same⟩ := agree_filters s.names (filters_of_regular regular plain)
    rw [searchWhere_of_object usable read regular, whole]
    exact ⟨_, rfl, rfl, same⟩
  | null => exact other (fun ms impossible => by cases impossible) fun _ => rfl
  | bool b => exact other (fun ms impossible => by cases impossible) fun _ => rfl
  | num token => exact other (fun ms impossible => by cases impossible) fun _ => rfl
  | str u => exact other (fun ms impossible => by cases impossible) fun _ => rfl
  | arr vs => exact other (fun ms impossible => by cases impossible) fun _ => rfl

theorem least_fits : -2 ^ 63 ≤ (-2 ^ 63 : Int) ∧ (-2 ^ 63 : Int) < 2 ^ 63 := by decide

@[reducible] def leastConversion : Conversion := ⟨fun _ => ⟨-2 ^ 63, least_fits⟩⟩

def filterTree (field operator : String) (value : Tree) : Tree :=
  .obj [(unitsOf "field".toList, .str (unitsOf field.toList)), (unitsOf "operator".toList, .str (unitsOf operator.toList)),
    (unitsOf "value".toList, value)]

def hostTree : Tree :=
  .obj [(unitsOf "search".toList, .arr [filterTree "host" "begins" (.str (unitsOf "mx".toList)), .null]),
    (unitsOf "searchLogic".toList, .str (unitsOf "or".toList))]

def hostRequest : List UInt8 :=
  ascii ("\x7b\"search\":[\x7b\"field\":\"host\",\"operator\":\"begins\",\"value\":\"mx\"\x7d,null]," ++
    "\"searchLogic\":\"or\"\x7d").toList

def listTree : Tree := .obj [(unitsOf "search".toList, .arr [filterTree "id" "is" (.arr [.str (unitsOf "a".toList)])])]

def listRequest : List UInt8 :=
  ascii "\x7b\"search\":[\x7b\"field\":\"id\",\"operator\":\"is\",\"value\":[\"a\"]\x7d]\x7d".toList

theorem read_of_print {tree : Tree} (printed : runes raw = print tree) (depth_ : depth tree ≤ maxNestingDepth) :
    readTree raw = some tree := by
  rw [readTree, printed, parse_print, Option.filter_some, if_pos (decide_eq_true depth_)]

theorem hostTree_regular : Regular hostTree := by
  refine ⟨fun _ _ => by decide +kernel, fun ms same => ?_, List.forall_mem_cons.mpr ⟨fun ms same => ?_,
    List.forall_mem_singleton.mpr fun ms impossible => ?_⟩, List.forall_mem_nil _⟩
  · obtain rfl := Tree.obj.inj same
    unfold Spelled
    decide +kernel
  · obtain rfl := Tree.obj.inj same
    unfold Spelled
    decide +kernel
  · cases impossible

theorem hostTree_plain : PlainPatterns hostTree := by
  have host : scalar (anyIn (memberOf (filterTree "host" "begins" (.str (unitsOf "mx".toList))) "value")) =
      some (.string "mx".toList) := by
    decide
  have none : textIn (memberOf .null "operator") ∉ patternOperators := by decide
  refine List.forall_mem_cons.mpr ⟨fun _ x here => ?_, List.forall_mem_singleton.mpr fun member => absurd member none⟩
  rw [here, scalar] at host
  split at host <;> cases host

theorem search_agrees_host : @Agrees leastConversion usable .delivery hostRequest hostTree :=
  @search_agrees leastConversion .delivery hostRequest hostTree (read_of_print (by decide +kernel) (by decide))
    hostTree_regular hostTree_plain

/-- A list of values, for an operator that takes one, is bound by the one service and dropped by the other. -/
theorem list_value_dropped :
    ¬∀ [Conversion] (s : Search) (raw : List UInt8) (t : Tree), readTree raw = some t → Agrees (fun _ => true) s raw t := by
  intro agrees
  have read : readTree listRequest = some listTree := read_of_print (by decide +kernel) (by decide)
  obtain ⟨-, w, whole, -, same⟩ := @agrees leastConversion .delivery listRequest listTree read
  have bound : ((searchWhere Search.delivery.fields (fun _ => true) (runes listRequest)).map fun w => w.clauses.length) = some 1 := by
    decide +kernel
  have dropped : (@Query.reading leastConversion (parse listRequest) Search.delivery.fields).conditions.length = 0 := by decide +kernel
  rw [whole] at bound
  have one : w.clauses.length = 1 := Option.some.inj bound
  have lengths := same.length_eq
  omega

end Requests

end Mailgw.Logservice
