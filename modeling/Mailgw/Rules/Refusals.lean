import Mathlib.Data.List.Sort
import Mailgw.Lists.Checked
import Mailgw.Rules.Compile

namespace Mailgw.Rules

open Queue Lists

namespace Action

def Coded : Action → Prop
  | .reject code _ _ => 500 ≤ code ∧ code ≤ 599
  | .tempfail code _ _ => 400 ≤ code ∧ code ≤ 499
  | _ => True

def Ends (a : Action) : Prop := a.Coded ∧ a ≠ .accept ∧ a.terminal = true

def Refuses : Action → Prop
  | .reject code _ _ => 500 ≤ code ∧ code ≤ 599
  | .tempfail code _ _ => 400 ≤ code ∧ code ≤ 499
  | _ => False

theorem refuses_default : defaultAction.Refuses := by
  simp [Refuses, defaultAction]

theorem Ends.refuses {a : Action} (ends : a.Ends) (relay : ∀ group, a ≠ .relay group) (discard : a ≠ .discard)
    (quarantine : a ≠ .quarantine) : a.Refuses := by
  cases a with
  | relay group => exact absurd rfl (relay group)
  | reject | tempfail => exact ends.1
  | discard => exact absurd rfl discard
  | quarantine => exact absurd rfl quarantine
  | accept => exact absurd rfl ends.2.1
  | addHeader | tag => cases ends.2.2

end Action

/-- Every refusal of the rules has a code of its kind, and no route accepts. -/
structure Ruleset.Coded (rs : Ruleset) : Prop where
  policy : ∀ r ∈ rs.policy, ∀ a ∈ r.actions, a.Coded
  routes : ∀ r ∈ rs.routes, ∀ a ∈ r.actions, a.Coded ∧ a ≠ .accept
  default : rs.default.Ends

section Validation
variable {groups : Option (List Name)} {path : Name} {list : RuleList} {a a' : Action}

theorem validateAction_coded (accepted : validateAction groups path list a = .ok a') :
    a'.Coded ∧ (list = .routes → a' ≠ .accept) := by
  cases a with
  | relay group =>
    simp only [validateAction, validateRelay] at accepted
    split at accepted
    · cases accepted
    split at accepted
    · cases accepted
    split at accepted <;> cases accepted
    simp [Action.Coded]
  | reject code enhanced message =>
    simp only [validateAction] at accepted
    generalize (if code = 0 then 550 else code) = code at accepted
    split at accepted
    · cases accepted
    · rename_i permanent
      obtain ⟨_, _, done⟩ := bind_ok accepted
      cases done
      exact ⟨by simp only [Action.Coded]; omega, by simp⟩
  | tempfail code enhanced message =>
    simp only [validateAction] at accepted
    generalize (if code = 0 then 451 else code) = code at accepted
    split at accepted
    · cases accepted
    · rename_i temporary
      obtain ⟨_, _, done⟩ := bind_ok accepted
      cases done
      exact ⟨by simp only [Action.Coded]; omega, by simp⟩
  | discard | quarantine =>
    cases accepted
    simp [Action.Coded]
  | accept =>
    simp only [validateAction] at accepted
    split at accepted
    · cases accepted
    · rename_i elsewhere
      cases accepted
      exact ⟨trivial, fun routes => absurd routes elsewhere⟩
  | addHeader name value =>
    simp only [validateAction] at accepted
    split at accepted
    · cases accepted
    split at accepted
    · cases accepted
    obtain ⟨_, _, done⟩ := bind_ok accepted
    cases done
    simp [Action.Coded]
  | tag key value =>
    simp only [validateAction] at accepted
    split at accepted
    · cases accepted
    obtain ⟨_, _, done⟩ := bind_ok accepted
    cases done
    simp [Action.Coded]

theorem compileActions_coded {stage : Stage} {i : Nat} {before : Option Action} {given actions : List Action}
    (accepted : compileActions groups path list stage i before given = .ok actions) :
    ∀ a ∈ actions, a.Coded ∧ (list = .routes → a ≠ .accept) := by
  induction given generalizing i before actions with
  | nil =>
    cases accepted
    simp
  | cons a given ih =>
    rw [compileActions] at accepted
    obtain ⟨a', valid, rest⟩ := bind_ok accepted
    have onward : (if (a' = .discard ∨ a' = .quarantine) ∧ stage < .mail then
          fail (path ++ " then".toList ++ subscript i) (.needsMessage a' stage)
        else do
          let rest ← compileActions groups path list stage (i + 1) (some a') given
          return a' :: rest) = .ok actions → ∀ a ∈ actions, a.Coded ∧ (list = .routes → a ≠ .accept) := by
      intro rest
      split at rest
      · cases rest
      · obtain ⟨others, compiled, done⟩ := bind_ok rest
        cases done
        exact List.forall_mem_cons.mpr ⟨validateAction_coded valid, ih compiled⟩
    cases before with
    | none => exact onward rest
    | some b =>
      dsimp only at rest
      split at rest
      · cases rest
      · exact onward rest

variable [Text.LowerCase] [CaseFolding] [Patterns]

theorem compileRule_coded {i : Nat} {name : Name} {r : Rule} {rule : CompiledRule}
    (accepted : compileRule groups list i name path r = .ok rule) :
    ∀ a ∈ rule.actions, a.Coded ∧ (list = .routes → a ≠ .accept) := by
  obtain ⟨m, _, rest⟩ := bind_ok accepted
  obtain ⟨stage, _, rest⟩ := bind_ok rest
  split at rest
  · cases rest
  · obtain ⟨actions, compiled, done⟩ := bind_ok rest
    cases done
    exact compileActions_coded compiled

theorem compileFrom_coded {i : Nat} {seen : List (Name × Nat)} {rules : List Rule} {compiled : List CompiledRule}
    (accepted : compileFrom groups list i seen rules = .ok compiled) :
    ∀ rule ∈ compiled, ∀ a ∈ rule.actions, a.Coded ∧ (list = .routes → a ≠ .accept) := by
  induction rules generalizing i seen compiled with
  | nil =>
    cases accepted
    simp
  | cons r rules ih =>
    simp only [compileFrom] at accepted
    split at accepted
    · cases accepted
    · split at accepted
      · exact ih accepted
      · obtain ⟨rule, first, rest⟩ := bind_ok accepted
        obtain ⟨others, later, done⟩ := bind_ok rest
        cases done
        exact List.forall_mem_cons.mpr ⟨compileRule_coded first, ih later⟩

theorem compileRules_coded {rules : List Rule} {compiled : List CompiledRule} (accepted : compileRules groups list rules = .ok compiled) :
    ∀ rule ∈ compiled, ∀ a ∈ rule.actions, a.Coded ∧ (list = .routes → a ≠ .accept) := by
  obtain ⟨filed, from_, done⟩ := bind_ok accepted
  cases done
  intro rule member
  exact compileFrom_coded from_ rule ((List.mem_insertionSort _).mp member)

omit [Text.LowerCase] [CaseFolding] [Patterns] in
theorem compileDefault_ends {given : Option Action} (accepted : compileDefault groups given = .ok a) : a.Ends := by
  cases given with
  | none =>
    cases accepted
    simp [Action.Ends, Action.Coded, Action.terminal, defaultAction]
  | some a' =>
    obtain ⟨checked, valid, rest⟩ := bind_ok accepted
    split at rest
    · rename_i terminal
      cases rest
      obtain ⟨coded, accepts⟩ := validateAction_coded valid
      exact ⟨coded, accepts rfl, terminal⟩
    · cases rest

theorem compile_coded {f : File} {rs : Ruleset} (compiled : compile f groups = .ok rs) : rs.Coded := by
  obtain ⟨default, ends, rest⟩ := bind_ok compiled
  obtain ⟨policy, first, rest⟩ := bind_ok rest
  obtain ⟨routes, second, done⟩ := bind_ok rest
  cases done
  constructor
  · intro r member a action
    exact (compileRules_coded first r member a action).1
  · intro r member a action
    obtain ⟨coded, accepts⟩ := compileRules_coded second r member a action
    exact ⟨coded, accepts rfl⟩
  · exact compileDefault_ends ends

end Validation

theorem applyActions_mem {actions : List Action} {e : Env} {headers : List Header} {a : Action}
    (ended : (applyActions actions e headers).2.2 = some a) : a ∈ actions ∧ a.terminal = true := by
  induction actions generalizing e headers with
  | nil => cases ended
  | cons a' actions ih =>
    cases a' with
    | addHeader | tag =>
      obtain ⟨member, terminal⟩ := ih ended
      exact ⟨List.mem_cons_of_mem _ member, terminal⟩
    | _ =>
      cases ended
      exact ⟨List.mem_cons_self .., rfl⟩

section Evaluation
variable [Text.LowerCase]

theorem evalRules_mem {stage : Stage} {perRcpt : Bool} {rules : List CompiledRule} {e : Env} {headers : List Header} {a : Action}
    (decided : (evalRules stage perRcpt rules e headers).2.action = some a) : ∃ r ∈ rules, a ∈ r.actions := by
  induction rules generalizing e headers with
  | nil => cases decided
  | cons r rules ih =>
    have later : ∀ {e' headers'}, (evalRules stage perRcpt rules e' headers').2.action = some a →
        ∃ r' ∈ r :: rules, a ∈ r'.actions := by
      intro e' headers' decided
      obtain ⟨r', member, action⟩ := ih decided
      exact ⟨r', List.mem_cons_of_mem _ member, action⟩
    rw [evalRules] at decided
    split at decided
    · exact later decided
    · split at decided
      · rename_i ended
        cases decided
        have own : (applyActions r.actions e headers).2.2 = some a := by rw [ended]
        exact ⟨r, List.mem_cons_self .., (applyActions_mem own).1⟩
      · exact later decided

theorem routeRules_mem {default : Action} {stage : Stage} {rules : List CompiledRule} {e : Env} {headers : List Header} {d : Decision}
    (decided : (routeRules default stage rules e headers).2 = some d) :
    d.action = default ∨ ∃ r ∈ rules, d.action ∈ r.actions ∧ d.action.terminal = true := by
  induction rules generalizing e headers with
  | nil =>
    rw [routeRules] at decided
    split at decided
    · cases decided
    · cases decided
      exact .inl rfl
  | cons r rules ih =>
    have later : ∀ {e' headers'}, (routeRules default stage rules e' headers').2 = some d →
        d.action = default ∨ ∃ r' ∈ r :: rules, d.action ∈ r'.actions ∧ d.action.terminal = true := by
      intro e' headers' decided
      apply (ih decided).imp_right
      intro ⟨r', member, action⟩
      exact ⟨r', List.mem_cons_of_mem _ member, action⟩
    rw [routeRules] at decided
    split at decided
    · cases decided
    · split at decided
      · exact later decided
      · split at decided
        · rename_i e' headers' a ended
          cases decided
          have own : (applyActions r.actions e headers).2.2 = some a := by rw [ended]
          exact .inr ⟨r, List.mem_cons_self .., applyActions_mem own⟩
        · exact later decided

variable {rs : Option Ruleset}

theorem evalPolicyRcpt_coded {e : Env} {stage : Stage} {a : Action} (coded : ∀ r ∈ rs, r.Coded)
    (decided : (evalPolicyRcpt rs e stage).2.action = some a) : a.Coded := by
  cases rs with
  | none => cases decided
  | some rs =>
    obtain ⟨r, member, action⟩ := evalRules_mem decided
    exact (coded rs rfl).policy r member a action

theorem route_ends {e : Env} {stage : Stage} {d : Decision} (coded : ∀ r ∈ rs, r.Coded) (decided : (route rs e stage).2 = some d) :
    d.action.Ends := by
  cases rs with
  | none => cases decided
  | some rs =>
    rcases routeRules_mem decided with default | ⟨r, member, action, terminal⟩
    · rw [default]
      exact (coded rs rfl).default
    · obtain ⟨own, accepts⟩ := (coded rs rfl).routes r member _ action
      exact ⟨own, accepts, terminal⟩

end Evaluation

end Mailgw.Rules
