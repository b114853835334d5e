import Mailgw.Rules.Stages

namespace Mailgw.Rules

open Queue

/-- A rule of the four-field routing table that this gateway's predecessor read. -/
structure LegacyRule where
  routeName : Name := []
  sender : Name := []
  senderDomain : Name := []
  rcpt : Name := []
  rcptDomain : Name := []
  relay : Name
  deriving Repr, DecidableEq

inductive LegacyProblem where
  | relayRequired (route : Name) | undefinedGroup (route group : Name)
  deriving Repr, DecidableEq

structure LegacyTable where
  rules : List LegacyRule

namespace LegacyTable

def validateFrom (groups : List Name) (i : Nat) : List LegacyRule → Except LegacyProblem Unit
  | [] => .ok ()
  | r :: rest =>
    let name := orDefault r.routeName ('#' :: Nat.toDigits 10 i)
    if Text.trimSpace r.relay = [] then .error (.relayRequired name)
    else if r.relay ∉ groups then .error (.undefinedGroup name r.relay)
    else validateFrom groups (i + 1) rest

def validate (t : LegacyTable) (groups : List Name) : Except LegacyProblem Unit := validateFrom groups 0 t.rules

end LegacyTable

section Matching
variable [CaseFolding]

def eqOrWildcard (expected actual : Name) : Bool := if expected = [] then true else equalFold expected actual

theorem eqOrWildcard_eq (expected actual : Name) :
    eqOrWildcard expected actual = (!decide (expected ≠ []) || equalFold expected actual) := by
  unfold eqOrWildcard
  split
  · rename_i wildcard
    simp [wildcard]
  · rename_i set
    simp [set]

def LegacyRule.matches (r : LegacyRule) (sender rcpt : Name) : Bool :=
  eqOrWildcard r.sender sender && eqOrWildcard r.senderDomain (domain sender) &&
    eqOrWildcard r.rcpt rcpt && eqOrWildcard r.rcptDomain (domain rcpt)

def findIn (sender rcpt : Name) : List LegacyRule → Option Name
  | [] => none
  | r :: rest => if r.matches sender rcpt then some r.relay else findIn sender rcpt rest

def LegacyTable.find (t : LegacyTable) (sender rcpt : Name) : Option Name := findIn sender rcpt t.rules

end Matching

namespace LegacyRule

def wants (r : LegacyRule) : List (Field × Name) :=
  [(.mailFrom, r.sender), (.mailFromDomain, r.senderDomain), (.rcptTo, r.rcpt), (.rcptDomain, r.rcptDomain)]

def expects (r : LegacyRule) : List (Field × Name) := r.wants.filter fun want => want.2 ≠ []

def name (r : LegacyRule) (i : Nat) : Name := orDefault r.routeName ("route".toList ++ subscript i)

def eqPred (want : Field × Name) : Pred := .field { field := want.1.name, op := some .eq, value := some (.str want.2) }

def transpile (r : LegacyRule) (i : Nat) : Rule where
  name := r.name i
  priority := (i + 1) * 10
  pred := if r.expects = [] then .always true else .all (r.expects.map eqPred)
  actions := [.relay r.relay]

end LegacyRule

namespace LegacyTable

def transpileFrom (i : Nat) : List LegacyRule → List Rule
  | [] => []
  | r :: rest => r.transpile i :: transpileFrom (i + 1) rest

def transpile (t : LegacyTable) : File where
  defaultAction := some Rules.defaultAction
  routes := transpileFrom 0 t.rules

def namesFrom (i : Nat) : List LegacyRule → List Name
  | [] => []
  | r :: rest => orDefault (Text.trimSpace (r.name i)) ("routes".toList ++ subscript i) :: namesFrom (i + 1) rest

def names (t : LegacyTable) : List Name := namesFrom 0 t.rules

end LegacyTable

section Compiled
variable [Text.LowerCase] [CaseFolding] [Patterns]

namespace LegacyRule

def eqMatcher (want : Field × Name) : Matcher := .leaf want.1 .eq false fun v => equalFold v.asStr want.2

def matcher (r : LegacyRule) : Matcher :=
  if r.expects = [] then .const true else .all (r.expects.map eqMatcher)

theorem compile_eqPred {path : Name} {want : Field × Name}
    (found : Field.lookup want.1.name = some want.1) (text : want.1.info.kind = .string) (folds : want.1.info.ci = true) :
    compilePred path (eqPred want) = .ok (eqMatcher want) := by
  simp [eqPred, eqMatcher, compilePred, compileLeaf, compileOperand, compileOp, compileEq, found, text, folds, Literal.toStr]

def Folds (f : Field) : Prop := Field.lookup f.name = some f ∧ f.info.kind = .string ∧ f.info.ci = true

theorem compile_eqPreds (path kind : Name) (i : Nat) (wants : List (Field × Name)) (folds : ∀ want ∈ wants, Folds want.1) :
    compileList path kind i (wants.map eqPred) = .ok (wants.map eqMatcher) := by
  induction wants generalizing i with
  | nil => rfl
  | cons want rest ih =>
    obtain ⟨found, text, ci⟩ := folds want (List.mem_cons_self ..)
    have later := ih (i + 1) fun want member => folds want (List.mem_cons_of_mem _ member)
    rw [List.map_cons, compileList, compile_eqPred found text ci, later]
    rfl

omit [Text.LowerCase] [CaseFolding] [Patterns] in
theorem folds_of_expects (r : LegacyRule) : ∀ want ∈ r.expects, Folds want.1 := by
  have folds : ∀ f ∈ [Field.mailFrom, .mailFromDomain, .rcptTo, .rcptDomain], Folds f := by
    simp only [List.forall_mem_cons, List.not_mem_nil, false_imp_iff, implies_true, and_true, Folds]
    decide +kernel
  intro want member
  have listed := List.mem_map_of_mem (List.mem_of_mem_filter member) (f := Prod.fst)
  exact folds want.1 listed

theorem compile_pred (r : LegacyRule) (path : Name) (i : Nat) :
    compilePred path (r.transpile i).pred = .ok r.matcher := by
  unfold transpile matcher
  dsimp only
  split
  · rfl
  · rename_i expecting
    have compiled := compile_eqPreds path ".all".toList 0 r.expects r.folds_of_expects
    obtain ⟨want, rest, listed⟩ := List.exists_cons_of_ne_nil expecting
    rw [listed, List.map_cons] at compiled ⊢
    rw [compilePred.eq_3 _ _ (by simp), compiled]
    rfl

def compiled (r : LegacyRule) (i : Nat) (name : Name) : CompiledRule where
  name := name
  priority := (i + 1) * 10
  stage := r.matcher.stage
  index := i
  actions := [.relay r.relay]
  rcptScoped := r.matcher.usesRcpt || decide (r.matcher.stage = .rcpt)
  pred := r.matcher
  known := le_refl _

omit [Text.LowerCase] [CaseFolding] [Patterns] in
theorem validateRelay_eq (groups : List Name) (path group : Name) :
    validateRelay (some groups) path .routes group =
      if Text.trimSpace group ≠ [] ∧ group ∈ groups then .ok (.relay group)
      else fail path (if Text.trimSpace group = [] then .noRelayGroup else .undefinedGroup group) := by
  unfold validateRelay
  by_cases named : Text.trimSpace group = []
  · simp [named]
  · by_cases known : group ∈ groups <;> simp [named, known]

omit [Text.LowerCase] [CaseFolding] [Patterns] in
theorem compileActions_relay (groups : List Name) (path group : Name) (stage : Stage) :
    compileActions (some groups) path .routes stage 0 none [.relay group] =
      (validateRelay (some groups) (path ++ " then".toList ++ subscript 0) .routes group).map fun a => [a] := by
  rw [compileActions, validateAction, validateRelay_eq]
  split
  · simp [compileActions, Except.map]
    rfl
  · rfl

theorem compileRule_transpile (groups : List Name) (i : Nat) (name path : Name) (r : LegacyRule) :
    compileRule (some groups) .routes i name path (r.transpile i) =
      (validateRelay (some groups) (path ++ " then".toList ++ subscript 0) .routes r.relay).map fun _ => r.compiled i name := by
  have actions : (r.transpile i).actions = [.relay r.relay] := rfl
  unfold compileRule
  rw [compile_pred, actions, validateRelay_eq]
  simp only [compileActions_relay, validateRelay_eq, List.cons_ne_nil, if_false]
  by_cases known : Text.trimSpace r.relay ≠ [] ∧ r.relay ∈ groups
  · simp only [if_pos known]
    rfl
  · simp only [if_neg known]
    rfl

end LegacyRule

namespace LegacyTable

def compiledFrom (i : Nat) : List LegacyRule → List CompiledRule
  | [] => []
  | r :: rest =>
    r.compiled i (orDefault (Text.trimSpace (r.name i)) ("routes".toList ++ subscript i)) :: compiledFrom (i + 1) rest

theorem compileFrom_inv {groups : List Name} {i : Nat} {seen : List (Name × Nat)} {rules : List LegacyRule}
    {compiled : List CompiledRule} (accepted : compileFrom (some groups) .routes i seen (transpileFrom i rules) = .ok compiled) :
    compiled = compiledFrom i rules := by
  induction rules generalizing i seen compiled with
  | nil =>
    cases accepted
    rfl
  | cons r rest ih =>
    rw [transpileFrom, compileFrom] at accepted
    split at accepted
    · cases accepted
    · rw [if_neg (by simp [LegacyRule.transpile]), LegacyRule.compileRule_transpile, LegacyRule.validateRelay_eq] at accepted
      split at accepted
      · cases later : compileFrom (some groups) .routes (i + 1) ((_, i) :: seen) (transpileFrom (i + 1) rest) with
        | error problem => 
          rw [later] at accepted
          cases accepted
        | ok rules =>
          rw [later] at accepted
          cases accepted
          rw [compiledFrom, ← ih later]
          rfl
      · cases accepted

omit [Text.LowerCase] [CaseFolding] [Patterns] in
theorem validateFrom_forall {groups : List Name} {i : Nat} {rules : List LegacyRule}
    (valid : validateFrom groups i rules = .ok ()) : ∀ r ∈ rules, Text.trimSpace r.relay ≠ [] ∧ r.relay ∈ groups := by
  induction rules generalizing i with
  | nil => simp
  | cons r rest ih =>
    rw [validateFrom] at valid
    split at valid
    · cases valid
    · rename_i named
      split at valid
      · cases valid
      · rename_i known
        exact List.forall_mem_cons.mpr ⟨⟨named, not_not.mp known⟩, ih valid⟩

theorem compileFrom_ok {groups : List Name} {i : Nat} (seen : List (Name × Nat)) {rules : List LegacyRule}
    (valid : ∀ r ∈ rules, Text.trimSpace r.relay ≠ [] ∧ r.relay ∈ groups) (distinct : (namesFrom i rules).Nodup)
    (fresh : ∀ name ∈ namesFrom i rules, seen.lookup name = none) :
    compileFrom (some groups) .routes i seen (transpileFrom i rules) = .ok (compiledFrom i rules) := by
  induction rules generalizing i seen with
  | nil => rfl
  | cons r rest ih =>
    rw [namesFrom, List.nodup_cons] at distinct
    rw [namesFrom, List.forall_mem_cons] at fresh
    rw [List.forall_mem_cons] at valid
    have later := fun name' => ih ((name', i) :: seen) valid.2 distinct.2
    have unused : seen.lookup (orDefault (Text.trimSpace (r.transpile i).name) (RuleList.routes.text ++ subscript i)) = none :=
      fresh.1
    rw [transpileFrom, compileFrom]
    simp only [unused]
    rw [if_neg (by simp [LegacyRule.transpile]), LegacyRule.compileRule_transpile, LegacyRule.validateRelay_eq,
      if_pos valid.1, later]
    · rfl
    · intro name member
      have other : (name == orDefault (Text.trimSpace (r.transpile i).name) (RuleList.routes.text ++ subscript i)) = false := by
        apply beq_false_of_ne
        rintro rfl
        exact distinct.1 member
      rw [List.lookup_cons, other]
      exact fresh.2 name member

omit [Text.LowerCase] [Patterns] in
/-- The compiled rules are in order, for each has a higher priority number than those before it. -/
theorem compiledFrom_ordered (i : Nat) (rules : List LegacyRule) :
    (compiledFrom i rules).Pairwise CompiledRule.before ∧ ∀ c ∈ compiledFrom i rules, ((i : Int) + 1) * 10 ≤ c.priority := by
  induction rules generalizing i with
  | nil => simp [compiledFrom]
  | cons r rest ih =>
    obtain ⟨ordered, above⟩ := ih (i + 1)
    have higher : ∀ c ∈ compiledFrom (i + 1) rest, ((i : Int) + 1) * 10 < c.priority := by
      intro c member
      have next := above c member
      push_cast at next
      omega
    constructor
    · exact List.pairwise_cons.mpr ⟨fun c member => .inl (higher c member), ordered⟩
    · exact List.forall_mem_cons.mpr ⟨le_refl _, fun c member => (higher c member).le⟩

omit [Text.LowerCase] [CaseFolding] [Patterns] in
theorem compileDefault_default (groups : Option (List Name)) :
    compileDefault groups (some Rules.defaultAction) = .ok Rules.defaultAction := by rfl

def ruleset (t : LegacyTable) : Ruleset where
  policy := []
  routes := compiledFrom 0 t.rules
  default := Rules.defaultAction

theorem compile_transpile (t : LegacyTable) (groups : List Name) : compile t.transpile (some groups) =
    (compileFrom (some groups) .routes 0 [] (transpileFrom 0 t.rules)).map fun _ => t.ruleset := by
  unfold compile transpile compileRules
  dsimp only
  rw [compileDefault_default]
  cases compiled : compileFrom (some groups) .routes 0 [] (transpileFrom 0 t.rules) with
  | error problem => rfl
  | ok rules =>
    have ordered := (compiledFrom_ordered 0 t.rules).1.insertionSort_eq
    rw [compileFrom_inv compiled]
    simp only [bind, Except.bind, pure, Except.pure, compileFrom, List.insertionSort_nil, ordered, Except.map]
    rfl

end LegacyTable

namespace LegacyRule
variable {e : Env} {m : MailEnv} {rcpt : RcptEnv}

def actual (sender rcpt : Name) : Field → Name
  | .mailFrom => sender
  | .mailFromDomain => domain sender
  | .rcptTo => rcpt
  | .rcptDomain => domain rcpt
  | _ => []

omit [Patterns] in
theorem eval_eqMatchers (e : Env) (sender rcpt : Name) (wants : List (Field × Name))
    (known : ∀ want ∈ wants, e.lookup want.1 = .one (.str (actual sender rcpt want.1))) :
    Matcher.evalAll e (wants.map eqMatcher) = wants.all fun want => equalFold want.2 (actual sender rcpt want.1) := by
  induction wants with
  | nil => rfl
  | cons want rest ih =>
    rw [List.forall_mem_cons] at known
    rw [List.map_cons, Matcher.evalAll, ih known.2, List.all_cons, eqMatcher, Matcher.eval, known.1]
    congr 1
    exact equalFold_comm _ _

omit [Patterns] in
theorem eval_matcher (r : LegacyRule) (mail : e.mail = some m) (rcpts : e.rcpt = some rcpt) :
    r.matcher.eval e = r.matches m.fromAddr rcpt.toAddr := by
  have known : ∀ want ∈ r.expects, e.lookup want.1 = .one (.str (actual m.fromAddr rcpt.toAddr want.1)) := by
    intro want member
    have listed := List.mem_of_mem_filter member
    simp only [wants, List.mem_cons, List.not_mem_nil, or_false] at listed
    rcases listed with rfl | rfl | rfl | rfl <;> simp [Env.lookup, Env.ofMail, Env.ofRcpt, mail, rcpts, actual]
  have all := eval_eqMatchers e m.fromAddr rcpt.toAddr r.expects known
  have folded : r.matcher.eval e = r.expects.all fun want => equalFold want.2 (actual m.fromAddr rcpt.toAddr want.1) := by
    unfold matcher
    split
    · rename_i none
      rw [none]
      rfl
    · exact all
  rw [folded, expects, List.all_filter]
  simp only [wants, List.all_cons, List.all_nil, actual, LegacyRule.matches, eqOrWildcard_eq, Bool.and_true, Bool.and_assoc]

omit [Text.LowerCase] [Patterns] in
theorem matcher_stage (r : LegacyRule) : r.matcher.stage ≤ .rcpt := by
  have upto : ∀ wants : List (Field × Name), (∀ want ∈ wants, want.1.stage ≤ .rcpt) →
      Matcher.stageOf (wants.map eqMatcher) ≤ .rcpt := by
    intro wants early
    induction wants with
    | nil => exact Nat.zero_le _
    | cons want rest ih =>
      rw [List.forall_mem_cons] at early
      exact max_le early.1 (ih early.2)
  unfold matcher
  split
  · exact Nat.zero_le _
  · have early : ∀ f ∈ [Field.mailFrom, .mailFromDomain, .rcptTo, .rcptDomain], f.stage ≤ .rcpt := by decide
    apply upto r.expects
    intro want member
    have listed := List.mem_map_of_mem (List.mem_of_mem_filter member) (f := Prod.fst)
    exact early want.1 listed

end LegacyRule

namespace LegacyTable
variable {e : Env} {m : MailEnv} {rcpt : RcptEnv} {stage : Stage}

omit [Patterns] in
theorem routeRules_cons (i : Nat) (name : Name) (r : LegacyRule) (rest : List CompiledRule) (mail : e.mail = some m)
    (rcpts : e.rcpt = some rcpt) (reached : .rcpt ≤ stage) :
    routeRules Rules.defaultAction stage (r.compiled i name :: rest) e [] =
      if r.matches m.fromAddr rcpt.toAddr then
        (e, some { rule := name, action := .relay r.relay, tags := e.tags })
      else routeRules Rules.defaultAction stage rest e [] := by
  have due : ¬ stage < (r.compiled i name).stage := not_lt.mpr (r.matcher_stage.trans reached)
  have verdict : (r.compiled i name).applies e = r.matches m.fromAddr rcpt.toAddr := r.eval_matcher mail rcpts
  rw [routeRules, if_neg due, verdict]
  cases r.matches m.fromAddr rcpt.toAddr <;> rfl

omit [Patterns] in
theorem routeRules_found {group : Name} (i : Nat) (rules : List LegacyRule) (mail : e.mail = some m)
    (rcpts : e.rcpt = some rcpt) (reached : .rcpt ≤ stage) (found : findIn m.fromAddr rcpt.toAddr rules = some group) :
    ∃ name, routeRules Rules.defaultAction stage (compiledFrom i rules) e [] =
      (e, some { rule := name, action := .relay group, tags := e.tags }) := by
  induction rules generalizing i with
  | nil => cases found
  | cons r rest ih =>
    rw [findIn] at found
    rw [compiledFrom, routeRules_cons i _ r _ mail rcpts reached]
    split at found
    · rename_i met
      cases found
      rw [if_pos met]
      exact ⟨_, rfl⟩
    · rename_i passed
      rw [if_neg passed]
      exact ih (i + 1) found

omit [Patterns] in
theorem routeRules_none (i : Nat) (rules : List LegacyRule) (mail : e.mail = some m) (rcpts : e.rcpt = some rcpt)
    (reached : .rcpt ≤ stage) (none : findIn m.fromAddr rcpt.toAddr rules = none) :
    routeRules Rules.defaultAction stage (compiledFrom i rules) e [] =
      (e, if stage < .data then Option.none else some { action := Rules.defaultAction, tags := e.tags }) := by
  induction rules generalizing i with
  | nil =>
    rw [compiledFrom, routeRules]
    split <;> rfl
  | cons r rest ih =>
    rw [findIn] at none
    rw [compiledFrom, routeRules_cons i _ r _ mail rcpts reached]
    split at none
    · cases none
    · rename_i passed
      rw [if_neg passed]
      exact ih (i + 1) none

/-- A table that validates, whose rules have names of their own, becomes a ruleset, and any ruleset it
    becomes gives each message the group that the table gives it: at DATA always, and at RCPT if
    a rule matches. A message without a match is deferred. -/
theorem transpile_keeps_routes (t : LegacyTable) (groups : List Name) (valid : t.validate groups = .ok ()) :
    (t.names.Nodup → ∃ rs, compile t.transpile (some groups) = .ok rs) ∧
    ∀ rs, compile t.transpile (some groups) = .ok rs →
      ∀ (e : Env) (m : MailEnv) (rcpt : RcptEnv), e.mail = some m → e.rcpt = some rcpt →
        (route (some rs) e .rcpt).2.bind Decision.relay = t.find m.fromAddr rcpt.toAddr ∧
        ∃ d, (route (some rs) e .data).2 = some d ∧ d.relay = t.find m.fromAddr rcpt.toAddr ∧
          (t.find m.fromAddr rcpt.toAddr = none → d.action = Rules.defaultAction) := by
  constructor
  · intro distinct
    have accepted := compileFrom_ok [] (validateFrom_forall valid) distinct fun _ _ => rfl
    refine ⟨t.ruleset, ?_⟩
    rw [compile_transpile, accepted]
    rfl
  · intro rs compiled e m rcpt mail rcpts
    have same : rs = t.ruleset := by
      rw [compile_transpile] at compiled
      cases accepted : compileFrom (some groups) .routes 0 [] (transpileFrom 0 t.rules) <;> rw [accepted] at compiled <;>
        cases compiled
      rfl
    rw [same]
    simp only [route, ruleset, find]
    cases found : findIn m.fromAddr rcpt.toAddr t.rules with
    | none =>
      rw [routeRules_none 0 t.rules mail rcpts (le_refl _) found, routeRules_none 0 t.rules mail rcpts (Stage.le_data _) found]
      exact ⟨rfl, _, rfl, rfl, fun _ => rfl⟩
    | some group =>
      obtain ⟨name, early⟩ := routeRules_found 0 t.rules mail rcpts (le_refl _) found
      obtain ⟨name', late⟩ := routeRules_found 0 t.rules mail rcpts (Stage.le_data _) found
      rw [early, late]
      refine ⟨rfl, _, rfl, rfl, ?_⟩
      intro none
      cases none

end LegacyTable

end Compiled

section Sample
open scoped Ascii

def shipped : LegacyTable where
  rules := [
    { routeName := "To Exchange".toList, rcptDomain := "ngm.dev".toList, relay := "Exchange".toList },
    { routeName := "Default".toList, relay := "Outbound".toList }]

def shippedEnv : Env where
  stage := .rcpt
  mail := some { fromAddr := "me@elsewhere.com".toList }
  rcpt := some { toAddr := "YOU@NGM.DEV".toList, index := 1, countSoFar := 1 }

theorem shipped_keeps_routes : ∃ rs d, compile shipped.transpile (some ["Exchange".toList, "Outbound".toList]) = .ok rs ∧
    (route (some rs) shippedEnv .data).2 = some d ∧ d.relay = some "Exchange".toList := by
  obtain ⟨accepts, keeps⟩ := LegacyTable.transpile_keeps_routes shipped ["Exchange".toList, "Outbound".toList] (by decide)
  obtain ⟨rs, compiled⟩ := accepts (by decide)
  obtain ⟨_, d, decided, relay, _⟩ := keeps rs compiled shippedEnv _ _ rfl rfl
  have found : shipped.find "me@elsewhere.com".toList "YOU@NGM.DEV".toList = some "Exchange".toList := by decide
  exact ⟨rs, d, compiled, decided, relay.trans found⟩

end Sample

end Mailgw.Rules
