import Mailgw.Rules.Refusals

namespace Mailgw.Rules

open Queue Lists

def Action.Known (known : List Name) (a : Action) : Prop := ∀ group, a = .relay group → group ∈ known

structure Ruleset.Known (known : List Name) (rs : Ruleset) : Prop where
  policy : ∀ r ∈ rs.policy, ∀ a ∈ r.actions, a.Known known
  routes : ∀ r ∈ rs.routes, ∀ a ∈ r.actions, a.Known known
  default : rs.default.Known known

section Validation

theorem ok_bind {ε α β : Type} {p : Except ε α} {x : α} {f : α → Except ε β} (accepted : p = .ok x) : (p >>= f) = f x := by
  rw [accepted]
  rfl

variable {known : List Name} {path : Name} {list : RuleList} {a a' : Action}

theorem validateRelay_known {group : Name} (accepted : validateRelay (some known) path list group = .ok a) :
    a.Known known ∧ validateRelay none path list group = .ok a := by
  simp only [validateRelay] at accepted ⊢
  split at accepted
  · cases accepted
  · rename_i routes
    split at accepted
    · cases accepted
    · rename_i filled
      split at accepted
      · cases accepted
      · rename_i there
        cases accepted
        have member : group ∈ known := by simpa using there
        constructor
        · intro group' same
          cases same
          exact member
        · simp [routes, filled]

theorem validateAction_known (accepted : validateAction (some known) path list a = .ok a') :
    a'.Known known ∧ validateAction none path list a = .ok a' := by
  cases a with
  | relay group => exact validateRelay_known accepted
  | discard | quarantine =>
    cases accepted
    constructor
    · intro group same
      cases same
    · rfl
  | accept =>
    refine ⟨?_, accepted⟩
    simp only [validateAction] at accepted
    split at accepted
    · cases accepted
    · cases accepted
      intro group same
      cases same
  | reject code enhanced message =>
    refine ⟨?_, accepted⟩
    simp only [validateAction] at accepted
    generalize (if code = 0 then 550 else code) = code at accepted
    split at accepted
    · cases accepted
    · obtain ⟨_, _, done⟩ := bind_ok accepted
      cases done
      intro group same
      cases same
  | tempfail code enhanced message =>
    refine ⟨?_, accepted⟩
    simp only [validateAction] at accepted
    generalize (if code = 0 then 451 else code) = code at accepted
    split at accepted
    · cases accepted
    · obtain ⟨_, _, done⟩ := bind_ok accepted
      cases done
      intro group same
      cases same
  | addHeader name value =>
    refine ⟨?_, accepted⟩
    simp only [validateAction] at accepted
    split at accepted
    · cases accepted
    · split at accepted
      · cases accepted
      · obtain ⟨_, _, done⟩ := bind_ok accepted
        cases done
        intro group same
        cases same
  | tag key value =>
    refine ⟨?_, accepted⟩
    simp only [validateAction] at accepted
    split at accepted
    · cases accepted
    · obtain ⟨_, _, done⟩ := bind_ok accepted
      cases done
      intro group same
      cases same

theorem compileActions_known {stage : Stage} {i : Nat} {before : Option Action} {given actions : List Action}
    (accepted : compileActions (some known) path list stage i before given = .ok actions) :
    (∀ a ∈ actions, a.Known known) ∧ compileActions none path list stage i before given = .ok actions := by
  induction given generalizing i before actions with
  | nil =>
    cases accepted
    exact ⟨by simp, rfl⟩
  | cons a given ih =>
    rw [compileActions] at accepted ⊢
    obtain ⟨a', valid, rest⟩ := bind_ok accepted
    obtain ⟨here, valid'⟩ := validateAction_known valid
    have onward : (if (a' = .discard ∨ a' = .quarantine) ∧ stage < .mail then
          fail (path ++ " then".toList ++ subscript i) (.needsMessage a' stage)
        else do
          let rest ← compileActions (some known) path list stage (i + 1) (some a') given
          return a' :: rest) = .ok actions →
        (∀ a ∈ actions, a.Known known) ∧ (if (a' = .discard ∨ a' = .quarantine) ∧ stage < .mail then
          fail (path ++ " then".toList ++ subscript i) (.needsMessage a' stage)
        else do
          let rest ← compileActions none path list stage (i + 1) (some a') given
          return a' :: rest) = .ok actions := by
      intro rest
      split at rest
      · cases rest
      · rename_i fits
        obtain ⟨others, compiled, done⟩ := bind_ok rest
        cases done
        obtain ⟨later, compiled'⟩ := ih compiled
        rw [if_neg fits, compiled']
        exact ⟨List.forall_mem_cons.mpr ⟨here, later⟩, rfl⟩
    cases before with
    | none =>
      obtain ⟨all, same⟩ := onward rest
      exact ⟨all, (ok_bind valid').trans same⟩
    | some b =>
      dsimp only at rest
      split at rest
      · cases rest
      · rename_i open_
        obtain ⟨all, same⟩ := onward rest
        exact ⟨all, (ok_bind valid').trans ((if_neg open_).trans same)⟩

variable [Text.LowerCase] [CaseFolding] [Patterns]

theorem compileRule_known {i : Nat} {name : Name} {r : Rule} {rule : CompiledRule}
    (accepted : compileRule (some known) list i name path r = .ok rule) :
    (∀ a ∈ rule.actions, a.Known known) ∧ compileRule none list i name path r = .ok rule := by
  obtain ⟨m, first, rest⟩ := bind_ok accepted
  obtain ⟨stage, second, rest⟩ := bind_ok rest
  split at rest
  · cases rest
  · rename_i some_
    obtain ⟨actions, compiled, done⟩ := bind_ok rest
    cases done
    obtain ⟨here, compiled'⟩ := compileActions_known compiled
    refine ⟨here, (ok_bind first).trans ((ok_bind second).trans ((if_neg some_).trans ?_))⟩
    rw [compiled']
    rfl

theorem compileFrom_known {i : Nat} {seen : List (Name × Nat)} {rules : List Rule} {compiled : List CompiledRule}
    (accepted : compileFrom (some known) list i seen rules = .ok compiled) :
    (∀ rule ∈ compiled, ∀ a ∈ rule.actions, a.Known known) ∧ compileFrom none list i seen rules = .ok compiled := by
  induction rules generalizing i seen compiled with
  | nil =>
    cases accepted
    exact ⟨by simp, rfl⟩
  | cons r rules ih =>
    simp only [compileFrom] at accepted ⊢
    split at accepted
    · cases accepted
    · split at accepted
      · rename_i disabled
        rw [if_pos disabled]
        exact ih accepted
      · rename_i enabled
        obtain ⟨rule, first, rest⟩ := bind_ok accepted
        obtain ⟨others, later, done⟩ := bind_ok rest
        cases done
        obtain ⟨here, first'⟩ := compileRule_known first
        obtain ⟨there, later'⟩ := ih later
        refine ⟨List.forall_mem_cons.mpr ⟨here, there⟩, ?_⟩
        rw [if_neg enabled, first', later']
        rfl

theorem compileRules_known {rules : List Rule} {compiled : List CompiledRule}
    (accepted : compileRules (some known) list rules = .ok compiled) :
    (∀ rule ∈ compiled, ∀ a ∈ rule.actions, a.Known known) ∧ compileRules none list rules = .ok compiled := by
  obtain ⟨filed, from_, done⟩ := bind_ok accepted
  cases done
  obtain ⟨here, from'⟩ := compileFrom_known from_
  constructor
  · intro rule member
    exact here rule ((List.mem_insertionSort _).mp member)
  · rw [compileRules, from']
    rfl

omit [Text.LowerCase] [CaseFolding] [Patterns] in
theorem compileDefault_known {given : Option Action} (accepted : compileDefault (some known) given = .ok a) :
    a.Known known ∧ compileDefault none given = .ok a := by
  cases given with
  | none =>
    cases accepted
    constructor
    · intro group same
      cases same
    · rfl
  | some a' =>
    obtain ⟨checked, valid, rest⟩ := bind_ok accepted
    split at rest
    · rename_i terminal
      cases rest
      obtain ⟨here, valid'⟩ := validateAction_known valid
      exact ⟨here, (ok_bind valid').trans (if_pos terminal)⟩
    · cases rest

/-- The groups only decide whether a file is accepted, and the rules it is compiled to relay to them alone. -/
theorem compile_known {f : File} {rs : Ruleset} (compiled : compile f (some known) = .ok rs) :
    rs.Known known ∧ compile f none = .ok rs := by
  obtain ⟨default, ends, rest⟩ := bind_ok compiled
  obtain ⟨policy, first, rest⟩ := bind_ok rest
  obtain ⟨routes, second, done⟩ := bind_ok rest
  cases done
  obtain ⟨default_, ends'⟩ := compileDefault_known ends
  obtain ⟨policy_, first'⟩ := compileRules_known first
  obtain ⟨routes_, second'⟩ := compileRules_known second
  refine ⟨⟨policy_, routes_, default_⟩, ?_⟩
  rw [compile, ends', first', second']
  rfl

end Validation

section Routing
variable [Text.LowerCase] {known : List Name} {e : Env} {headers : List Header}

theorem routeRules_known {default : Action} {stage : Stage} {routes : List CompiledRule} {d : Decision}
    (own : default.Known known) (all : ∀ r ∈ routes, ∀ a ∈ r.actions, a.Known known)
    (decided : (routeRules default stage routes e headers).2 = some d) : d.action.Known known := by
  induction routes generalizing e headers with
  | nil =>
    simp only [routeRules] at decided
    split at decided
    · cases decided
    · cases decided
      exact own
  | cons r rest ih =>
    have others : ∀ r ∈ rest, ∀ a ∈ r.actions, a.Known known := fun r member => all r (List.mem_cons_of_mem _ member)
    simp only [routeRules] at decided
    split at decided
    · cases decided
    split at decided
    · exact ih others decided
    split at decided
    · rename_i ends
      cases decided
      exact all r List.mem_cons_self _ (applyActions_mem (by rw [ends])).1
    · exact ih others decided

theorem route_known {rs : Ruleset} {stage : Stage} {d : Decision} {group : Name} (safe : rs.Known known)
    (decided : (route (some rs) e stage).2 = some d) (relays : d.relay = some group) : group ∈ known := by
  have action := routeRules_known safe.default safe.routes decided
  apply action
  unfold Decision.relay at relays
  split at relays
  · rename_i group' same
    cases relays
    exact same
  · cases relays

end Routing

end Mailgw.Rules
