import Mailgw.Rules.Operators
import Mathlib.Data.List.Sort

namespace Mailgw.Rules

open Queue

structure Leaf where
  field : Name
  op : Option Op
  value : Option Literal := none
  values : Option (List Literal) := none
  ci : Option Bool := none
  deriving Repr, DecidableEq

inductive Pred where
  | all (ps : List Pred)
  | any (ps : List Pred)
  | not (p : Pred)
  | always (b : Bool)
  | every (leaf : Leaf)
  | field (leaf : Leaf)

/-- One consequence of a matching rule. A code of zero and an empty text stand for the defaults. -/
inductive Action where
  | relay (group : Name)
  | reject (code : Int) (enhanced message : Name)
  | tempfail (code : Int) (enhanced message : Name)
  | discard
  | quarantine
  | accept
  | addHeader (name value : Name)
  | tag (key value : Name)
  deriving Repr, DecidableEq

def Action.terminal : Action → Bool
  | .addHeader _ _ | .tag _ _ => false
  | _ => true

structure Rule where
  name : Name
  priority : Int := 0
  disabled : Bool := false
  stage : Name := []
  pred : Pred
  actions : List Action

structure File where
  defaultAction : Option Action := none
  policy : List Rule := []
  routes : List Rule := []

inductive RuleList where
  | policy | routes
  deriving Repr, DecidableEq

inductive Problem where
  | unknownField (name : Name) | noOperator (name : Name) | everyNeedsList (name : Name)
  | takesNoValue (op : Op) | needsValues (op : Op) | usesValues (op : Op) | needsValue (op : Op) | usesValue (op : Op)
  | operand (problem : BadOperand)
  | duplicateName (index : Nat) | unknownStage (name : Name) | stageTooEarly (forced needed : Stage)
  | noActions | unreachable (after : Action) | needsMessage (action : Action) (stage : Stage)
  | relayInPolicy | noRelayGroup | undefinedGroup (group : Name) | notPermanent (code : Int) | notTemporary (code : Int)
  | acceptInRoutes | noHeaderName | badHeaderName (name : Name) | noKey | lineBreak (label : Name)
  | enhanced (text : Name) | notTerminal (action : Action)
  deriving Repr, DecidableEq

structure CompileError where
  path : Name
  problem : Problem
  deriving Repr, DecidableEq

inductive Matcher where
  | const (b : Bool)
  | all (ms : List Matcher)
  | any (ms : List Matcher)
  | not (m : Matcher)
  | leaf (field : Field) (op : Op) (universal : Bool) (fn : Scalar → Bool)

def testScalar (op : Op) (fn : Scalar → Bool) (v : Scalar) : Bool :=
  match op with
  | .present => v.nonEmpty
  | .empty => !v.nonEmpty
  | _ => fn v

/-- A leaf over a list is existential unless it is universal. An absent field is empty and matches
    nothing else. -/
def testValue (op : Op) (universal : Bool) (fn : Scalar → Bool) : Value → Bool
  | .missing => op = .empty
  | .one v => testScalar op fn v
  | .many [] => op = .empty || universal
  | .many elems => if universal then elems.all (testScalar op fn) else elems.any (testScalar op fn)

namespace Matcher

section Evaluation
variable [Text.LowerCase]

mutual
def eval (e : Env) : Matcher → Bool
  | .const b => b
  | .all ms => evalAll e ms
  | .any ms => evalAny e ms
  | .not m => !eval e m
  | .leaf field op universal fn => testValue op universal fn (e.lookup field)

def evalAll (e : Env) : List Matcher → Bool
  | [] => true
  | m :: ms => eval e m && evalAll e ms

def evalAny (e : Env) : List Matcher → Bool
  | [] => false
  | m :: ms => eval e m || evalAny e ms
end

end Evaluation

mutual
def stage : Matcher → Stage
  | .const _ => .connect
  | .all ms | .any ms => stageOf ms
  | .not m => stage m
  | .leaf field _ _ _ => field.stage

def stageOf : List Matcher → Stage
  | [] => .connect
  | m :: ms => max (stage m) (stageOf ms)
end

mutual
def usesRcpt : Matcher → Bool
  | .const _ => false
  | .all ms | .any ms => usesRcptOf ms
  | .not m => usesRcpt m
  | .leaf field _ _ _ => field.stage = .rcpt

def usesRcptOf : List Matcher → Bool
  | [] => false
  | m :: ms => usesRcpt m || usesRcptOf ms
end

mutual
def fields : Matcher → List Field
  | .const _ => []
  | .all ms | .any ms => fieldsOf ms
  | .not m => fields m
  | .leaf field _ _ _ => [field]

def fieldsOf : List Matcher → List Field
  | [] => []
  | m :: ms => fields m ++ fieldsOf ms
end

end Matcher

/-- One validated, compiled rule. It never runs before the fields it reads are known. -/
structure CompiledRule where
  name : Name
  priority : Int := 0
  stage : Stage
  index : Nat := 0
  actions : List Action
  rcptScoped : Bool
  pred : Matcher
  known : pred.stage ≤ stage

structure Ruleset where
  policy : List CompiledRule
  routes : List CompiledRule
  default : Action

def fail {α : Type} (path : Name) (problem : Problem) : Except CompileError α := .error ⟨path, problem⟩

def defaultAction : Action := .tempfail 451 "4.7.1".toList "No route found".toList

/-- The three numbers of an enhanced status code. The integers of the source wrap above nineteen digits,
    these do not. -/
def parseEnhanced (s : Name) : Option (Nat × Nat × Nat) :=
  match s.splitOn '.' with
  | [a, b, c] =>
    if [a, b, c].all fun part => !part.isEmpty && part.all Char.isDigit then
      some (Nat.ofDigitChars 10 a 0, Nat.ofDigitChars 10 b 0, Nat.ofDigitChars 10 c 0)
    else none
  | _ => none

def hasLineBreak (s : Name) : Bool := s.any fun c => c = '\r' || c = '\n'

def orDefault (text fallback : Name) : Name := if text = [] then fallback else text

def checkTexts (path message value enhanced : Name) : Except CompileError Unit :=
  if hasLineBreak message then fail path (.lineBreak "message".toList)
  else if hasLineBreak value then fail path (.lineBreak "value".toList)
  else
    let enhanced := Text.trimSpace enhanced
    if enhanced ≠ [] ∧ parseEnhanced enhanced = none then fail path (.enhanced enhanced) else .ok ()

def validateRelay (groups : Option (List Name)) (path : Name) (list : RuleList) (group : Name) :
    Except CompileError Action :=
  if list = .policy then fail path .relayInPolicy
  else if Text.trimSpace group = [] then fail path .noRelayGroup
  else if groups.any fun known => group ∉ known then fail path (.undefinedGroup group)
  else .ok (.relay group)

def validateAction (groups : Option (List Name)) (path : Name) (list : RuleList) : Action → Except CompileError Action
  | .relay group => validateRelay groups path list group
  | .reject code enhanced message => do
    let code := if code = 0 then 550 else code
    if code < 500 ∨ 599 < code then fail path (.notPermanent code)
    else
      let enhanced := orDefault enhanced "5.7.1".toList
      let message := orDefault message "Rejected by policy".toList
      checkTexts path message [] enhanced
      return .reject code enhanced message
  | .tempfail code enhanced message => do
    let code := if code = 0 then 451 else code
    if code < 400 ∨ 499 < code then fail path (.notTemporary code)
    else
      let enhanced := orDefault enhanced "4.7.1".toList
      let message := orDefault message "Deferred by policy".toList
      checkTexts path message [] enhanced
      return .tempfail code enhanced message
  | .discard => .ok .discard
  | .quarantine => .ok .quarantine
  | .accept => if list = .routes then fail path .acceptInRoutes else .ok .accept
  | .addHeader name value => do
    if Text.trimSpace name = [] then fail path .noHeaderName
    else if name.any fun c => c = ':' || c = '\r' || c = '\n' then fail path (.badHeaderName name)
    else
      checkTexts path [] value []
      return .addHeader name value
  | .tag key value => do
    if Text.trimSpace key = [] then fail path .noKey
    else
      checkTexts path [] value []
      return .tag key value

def RuleList.text : RuleList → Name
  | .policy => "policy".toList
  | .routes => "routes".toList

def subscript (i : Nat) : Name := '[' :: Nat.toDigits 10 i ++ [']']

section Compilation
variable [Text.LowerCase] [CaseFolding] [Patterns]

def compileOperand (l : Leaf) (path : Name) (universal : Bool) (field : Field) (op : Op) : Except CompileError Matcher :=
  -- the operators that take a list do not read the value, which is nil
  match compileOp op (l.value.getD (.str [])) (l.values.getD []) field.info (l.ci.getD field.info.ci) with
  | .error problem => fail path (.operand problem)
  | .ok fn => .ok (.leaf field op universal fn)

def compileLeaf (l : Leaf) (path : Name) (universal : Bool) : Except CompileError Matcher :=
  match Field.lookup l.field, l.op with
  | none, _ => fail path (.unknownField l.field)
  | some _, none => fail path (.noOperator l.field)
  | some field, some op =>
    if universal && !field.info.list then fail path (.everyNeedsList l.field)
    else
      match op with
      | .present | .empty =>
        if l.value.isSome || l.values.isSome then fail path (.takesNoValue op)
        else .ok (.leaf field op universal fun _ => false)
      | .isIn | .inCIDR =>
        if (l.values.getD []).isEmpty then fail path (.needsValues op)
        else if l.value.isSome then fail path (.usesValues op)
        else compileOperand l path universal field op
      | _ =>
        if l.value.isNone then fail path (.needsValue op)
        else if l.values.isSome then fail path (.usesValue op)
        else compileOperand l path universal field op

mutual
def compilePred (path : Name) : Pred → Except CompileError Matcher
  | .all [] => .ok (.const true)
  | .any [] => .ok (.const false)
  | .all ps => do return .all (← compileList path ".all".toList 0 ps)
  | .any ps => do return .any (← compileList path ".any".toList 0 ps)
  | .not p => do return .not (← compilePred (path ++ ".not".toList) p)
  | .always b => .ok (.const b)
  | .every leaf => compileLeaf leaf (path ++ ".every".toList) true
  | .field leaf => compileLeaf leaf path false

def compileList (path kind : Name) (i : Nat) : List Pred → Except CompileError (List Matcher)
  | [] => .ok []
  | p :: ps => do
    let m ← compilePred (path ++ kind ++ subscript i) p
    let ms ← compileList path kind (i + 1) ps
    return m :: ms
end

/-- The stage a rule runs at: that of its fields, or a later one the author asked for. -/
def ruleStage (path : Name) (m : Matcher) (forced : Name) : Except CompileError { s : Stage // m.stage ≤ s } :=
  if forced = [] then .ok ⟨m.stage, le_refl _⟩
  else
    match Stage.parse forced with
    | none => fail path (.unknownStage forced)
    | some s => if late : m.stage ≤ s then .ok ⟨s, late⟩ else fail path (.stageTooEarly s m.stage)

def compileActions (groups : Option (List Name)) (path : Name) (list : RuleList) (stage : Stage) (i : Nat)
    (before : Option Action) : List Action → Except CompileError (List Action)
  | [] => .ok []
  | a :: rest => do
    let here := path ++ " then".toList ++ subscript i
    let a ← validateAction groups here list a
    match before with
    | some b => if b.terminal then fail here (.unreachable b)
    | none => pure ()
    if (a = .discard ∨ a = .quarantine) ∧ stage < .mail then fail here (.needsMessage a stage)
    else
      let rest ← compileActions groups path list stage (i + 1) (some a) rest
      return a :: rest

def compileRule (groups : Option (List Name)) (list : RuleList) (i : Nat) (name path : Name) (r : Rule) :
    Except CompileError CompiledRule := do
  let m ← compilePred path r.pred
  let stage ← ruleStage path m r.stage
  if r.actions = [] then fail path .noActions
  else
    let actions ← compileActions groups path list stage 0 none r.actions
    return { name, priority := r.priority, stage, index := i, actions,
             rcptScoped := m.usesRcpt || decide (stage.val = .rcpt), pred := m, known := stage.property }

def compileFrom (groups : Option (List Name)) (list : RuleList) (i : Nat) (seen : List (Name × Nat)) :
    List Rule → Except CompileError (List CompiledRule)
  | [] => .ok []
  | r :: rest => do
    let name := orDefault (Text.trimSpace r.name) (list.text ++ subscript i)
    let path := list.text ++ subscript i ++ " (".toList ++ name ++ [')']
    match seen.lookup name with
    | some prev => fail path (.duplicateName prev)
    | none =>
      if r.disabled then compileFrom groups list (i + 1) ((name, i) :: seen) rest
      else
        let rule ← compileRule groups list i name path r
        let rules ← compileFrom groups list (i + 1) ((name, i) :: seen) rest
        return rule :: rules

/-- A lower priority number goes first, and ties keep file order. -/
def CompiledRule.before (a b : CompiledRule) : Prop :=
  a.priority < b.priority ∨ a.priority = b.priority ∧ a.index ≤ b.index

instance : DecidableRel CompiledRule.before := fun _ _ => inferInstanceAs (Decidable (_ ∨ _ ∧ _))

def compileRules (groups : Option (List Name)) (list : RuleList) (rules : List Rule) :
    Except CompileError (List CompiledRule) := do
  let compiled ← compileFrom groups list 0 [] rules
  return compiled.insertionSort CompiledRule.before

def compileDefault (groups : Option (List Name)) : Option Action → Except CompileError Action
  | none => .ok defaultAction
  | some a => do
    let a ← validateAction groups "default_action".toList .routes a
    if a.terminal then return a else fail "default_action".toList (.notTerminal a)

def compile (f : File) (groups : Option (List Name)) : Except CompileError Ruleset := do
  let default ← compileDefault groups f.defaultAction
  let policy ← compileRules groups .policy f.policy
  let routes ← compileRules groups .routes f.routes
  return { policy, routes, default }

end Compilation

namespace Ruleset

def fieldsUsed (rs : Ruleset) : List Field := (rs.policy ++ rs.routes).flatMap fun r => r.pred.fields

def needsMIME (rs : Ruleset) : Bool := rs.fieldsUsed.any Field.needsMIME

def needsDMARC (rs : Ruleset) : Bool := rs.fieldsUsed.any Field.needsDMARC

def needsSPF (rs : Ruleset) : Bool := rs.fieldsUsed.any Field.needsSPF || rs.needsDMARC

def needsDKIM (rs : Ruleset) : Bool := rs.fieldsUsed.any Field.needsDKIM || rs.needsDMARC

end Ruleset

structure Header where
  name : Name
  value : Name
  deriving Repr, DecidableEq

structure PolicyResult where
  rule : Name := []
  action : Option Action := none
  headers : List Header := []
  deriving Repr, DecidableEq

/-- Where one recipient goes. The rule is empty when the default applied. -/
structure Decision where
  rule : Name := []
  action : Action
  headers : List Header := []
  tags : Tags := []
  deriving Repr, DecidableEq

def Decision.relay (d : Decision) : Option Name :=
  match d.action with
  | .relay group => some group
  | _ => none

def applyActions : List Action → Env → List Header → Env × List Header × Option Action
  | [], e, headers => (e, headers, none)
  | .tag key value :: rest, e, headers => applyActions rest (e.setTag key value) headers
  | .addHeader name value :: rest, e, headers => applyActions rest e (headers ++ [⟨name, value⟩])
  | a :: _, e, headers => (e, headers, some a)

section Evaluation
variable [Text.LowerCase]

def CompiledRule.applies (r : CompiledRule) (e : Env) : Bool := r.pred.eval e

/-- The policy rules of exactly one stage. The first terminal action wins. -/
def evalRules (stage : Stage) (perRcpt : Bool) : List CompiledRule → Env → List Header → Env × PolicyResult
  | [], e, headers => (e, { headers })
  | r :: rest, e, headers =>
    if r.stage ≠ stage ∨ r.rcptScoped ≠ perRcpt ∨ r.applies e = false then evalRules stage perRcpt rest e headers
    else
      match applyActions r.actions e headers with
      | (e, headers, some a) => (e, { rule := r.name, action := some a, headers })
      | (e, headers, none) => evalRules stage perRcpt rest e headers

def evalPolicyOf (rs : Option Ruleset) (e : Env) (stage : Stage) (perRcpt : Bool) : Env × PolicyResult :=
  match rs with
  | none => (e, {})
  | some rs => evalRules stage perRcpt rs.policy e []

def evalPolicy (rs : Option Ruleset) (e : Env) (stage : Stage) : Env × PolicyResult := evalPolicyOf rs e stage false

def evalPolicyRcpt (rs : Option Ruleset) (e : Env) (stage : Stage) : Env × PolicyResult := evalPolicyOf rs e stage true

/-- The walk over the routes. It stops, undecided, at the first rule whose stage is not reached. -/
def routeRules (default : Action) (stage : Stage) : List CompiledRule → Env → List Header → Env × Option Decision
  | [], e, headers =>
    if stage < .data then (e, none) else (e, some { action := default, headers, tags := e.tags })
  | r :: rest, e, headers =>
    if stage < r.stage then (e, none)
    else if r.applies e = false then routeRules default stage rest e headers
    else
      match applyActions r.actions e headers with
      | (e, headers, some a) => (e, some { rule := r.name, action := a, headers, tags := e.tags })
      | (e, headers, none) => routeRules default stage rest e headers

def route (rs : Option Ruleset) (e : Env) (stage : Stage) : Env × Option Decision :=
  match rs with
  | none => (e, none)
  | some rs => routeRules rs.default stage rs.routes e []

end Evaluation

end Mailgw.Rules
