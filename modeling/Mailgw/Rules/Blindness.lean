import Mailgw.Rules.Stages

namespace Mailgw.Rules

open Queue

structure Others where
  index : Int := 0
  countSoFar : Int := 0
  rcptCount : Int := 0
  rcptDomains : List Name := []

def Field.ofOthers : Field → Bool
  | .rcptIndex | .txnRcptCountSoFar | .txnRcptCount | .txnRcptDomains => true
  | _ => false

def Field.ofPlace : Field → Bool
  | .rcptIndex | .txnRcptCountSoFar => true
  | _ => false

def Ruleset.Blind (rs : Ruleset) : Prop := ∀ f ∈ rs.fieldsUsed, f.ofOthers = false

def Ruleset.Placeless (rs : Ruleset) : Prop := ∀ f ∈ rs.fieldsUsed, f.ofPlace = false

/-- A change of what the environment of one recipient says about the others, and about its place among them. -/
structure Shift where
  index : Int → Int := id
  countSoFar : Int → Int := id
  rcptCount : Int → Int := id
  rcptDomains : List Name → List Name := id

/-- The change does to a recipient that moves from one place to another what `o` does to the message. -/
structure Shift.At (o' o : Shift) (i j : Nat) : Prop where
  index : o'.index i = j
  countSoFar : o'.countSoFar ((i : Int) - 1) = (j : Int) - 1
  rcptCount : o'.rcptCount = o.rcptCount
  rcptDomains : o'.rcptDomains = o.rcptDomains

def Others.shift (o : Others) : Shift where
  index _ := o.index
  countSoFar _ := o.countSoFar
  rcptCount _ := o.rcptCount
  rcptDomains _ := o.rcptDomains

def MsgEnv.shift (o : Shift) (m : MsgEnv) : MsgEnv :=
  { m with rcptCount := o.rcptCount m.rcptCount, rcptDomains := o.rcptDomains m.rcptDomains }

namespace Env

def among (o : Others) (e : Env) : Env :=
  { e with
    rcpt := e.rcpt.map fun r => { r with index := o.index, countSoFar := o.countSoFar }
    msg := e.msg.map fun m => { m with rcptCount := o.rcptCount, rcptDomains := o.rcptDomains } }

def others (e : Env) : Others where
  index := e.rcpt.elim 0 RcptEnv.index
  countSoFar := e.rcpt.elim 0 RcptEnv.countSoFar
  rcptCount := e.msg.elim 0 MsgEnv.rcptCount
  rcptDomains := e.msg.elim [] MsgEnv.rcptDomains

@[simp] theorem among_others (e : Env) : e.among e.others = e := by
  obtain ⟨stage, conn, helo, mail, rcpt, msg, tags⟩ := e
  cases rcpt <;> cases msg <;> rfl

def shift (o : Shift) (e : Env) : Env :=
  { e with
    rcpt := e.rcpt.map fun r => { r with index := o.index r.index, countSoFar := o.countSoFar r.countSoFar }
    msg := e.msg.map (MsgEnv.shift o) }

theorem among_eq_shift (o : Others) (e : Env) : e.among o = e.shift o.shift := rfl

@[simp] theorem shift_id (e : Env) : e.shift {} = e := by
  obtain ⟨stage, conn, helo, mail, rcpt, msg, tags⟩ := e
  cases rcpt <;> cases msg <;> rfl

@[simp] theorem setTag_shift (o : Shift) (e : Env) (key value : Name) :
    (e.shift o).setTag key value = (e.setTag key value).shift o := rfl

theorem lookup_shift [Text.LowerCase] (o : Shift) (e : Env) {f : Field} (own : f.ofOthers = false) :
    (e.shift o).lookup f = e.lookup f := by
  obtain ⟨stage, conn, helo, mail, rcpt, msg, tags⟩ := e
  cases rcpt <;> cases msg <;> cases f <;> first | rfl | cases own

end Env

theorem Value.alike_ofStrings {ss ss' : List Name} (same : ss.Perm ss') : (Value.ofStrings ss).Alike (.ofStrings ss') := by
  intro op universal fn
  cases ss with
  | nil =>
    rw [List.Perm.nil_eq same]
  | cons first rest =>
    cases ss' with
    | nil => exact absurd same.symm (by simp)
    | cons first' rest' =>
      have values := same.map Scalar.str
      simp only [List.map_cons] at values
      simp only [ofStrings, List.map_cons, testValue, values.all_eq, values.any_eq]

theorem applyActions_shift (o : Shift) (actions : List Action) (e : Env) (headers : List Header) :
    applyActions actions (e.shift o) headers =
      ((applyActions actions e headers).1.shift o, (applyActions actions e headers).2) := by
  induction actions generalizing e headers with
  | nil => rfl
  | cons a rest ih =>
    cases a with
    | tag key value => exact ih (e.setTag key value) headers
    | addHeader name value => exact ih e _
    | _ => rfl

section Evaluation
variable [Text.LowerCase]

def Field.Unmoved (o : Shift) (f : Field) : Prop := ∀ e : Env, ((e.shift o).lookup f).Alike (e.lookup f)

def Ruleset.Unmoved (o : Shift) (rs : Ruleset) : Prop := ∀ f ∈ rs.fieldsUsed, f.Unmoved o

theorem Ruleset.Blind.unmoved {rs : Ruleset} (blind : rs.Blind) (o : Shift) : rs.Unmoved o := by
  intro f member e
  rw [e.lookup_shift o (blind f member)]
  exact fun _ _ _ => rfl

/-- Rules do not see the order of the domains, nor the place of a recipient unless they read it. -/
theorem Ruleset.unmoved_of_perm {rs : Ruleset} {o : Shift} (count : o.rcptCount = id)
    (domains : ∀ names, (o.rcptDomains names).Perm names) (place : (o.index = id ∧ o.countSoFar = id) ∨ rs.Placeless) :
    rs.Unmoved o := by
  have own : ∀ f ∈ rs.fieldsUsed, (o.index = id ∧ o.countSoFar = id) ∨ f.ofPlace = false :=
    fun f member => place.imp_right fun placeless => placeless f member
  intro f member e
  have place := own f member
  obtain ⟨stage, conn, helo, mail, rcpt, msg, tags⟩ := e
  cases f with
  | txnRcptDomains =>
    cases msg with
    | none => exact fun _ _ _ => rfl
    | some m => exact Value.alike_ofStrings (domains m.rcptDomains)
  | txnRcptCount =>
    cases msg with
    | none => exact fun _ _ _ => rfl
    | some m => simp [Env.lookup, Env.ofMsg, Env.shift, MsgEnv.shift, count, Value.Alike]
  | rcptIndex =>
    obtain ⟨index, _⟩ := place.resolve_right (by simp [Field.ofPlace])
    cases rcpt <;> simp [Env.lookup, Env.ofRcpt, Env.shift, index, Value.Alike]
  | txnRcptCountSoFar =>
    obtain ⟨_, soFar⟩ := place.resolve_right (by simp [Field.ofPlace])
    cases rcpt <;> simp [Env.lookup, Env.ofRcpt, Env.shift, soFar, Value.Alike]
  | _ =>
    rw [Env.lookup_shift o _ rfl]
    exact fun _ _ _ => rfl

theorem Ruleset.Unmoved.rules {rs : Ruleset} {o : Shift} (unmoved : rs.Unmoved o) :
    (∀ r ∈ rs.policy, ∀ f ∈ r.pred.fields, f.Unmoved o) ∧ ∀ r ∈ rs.routes, ∀ f ∈ r.pred.fields, f.Unmoved o := by
  constructor
  · intro r member f read
    exact unmoved f (List.mem_flatMap.mpr ⟨r, List.mem_append_left _ member, read⟩)
  · intro r member f read
    exact unmoved f (List.mem_flatMap.mpr ⟨r, List.mem_append_right _ member, read⟩)

theorem applies_shift (o : Shift) (e : Env) {r : CompiledRule} (unmoved : ∀ f ∈ r.pred.fields, f.Unmoved o) :
    r.applies (e.shift o) = r.applies e := by
  apply eval_alike r.pred
  intro f member
  exact unmoved f member e

theorem evalRules_shift (o : Shift) (stage : Stage) (perRcpt : Bool) {rules : List CompiledRule} (e : Env)
    (headers : List Header) (unmoved : ∀ r ∈ rules, ∀ f ∈ r.pred.fields, f.Unmoved o) :
    evalRules stage perRcpt rules (e.shift o) headers =
      ((evalRules stage perRcpt rules e headers).1.shift o, (evalRules stage perRcpt rules e headers).2) := by
  induction rules generalizing e headers with
  | nil => rfl
  | cons r rest ih =>
    have here := unmoved r (List.mem_cons_self ..)
    have later : ∀ r ∈ rest, ∀ f ∈ r.pred.fields, f.Unmoved o := by
      intro r member
      exact unmoved r (List.mem_cons_of_mem _ member)
    simp only [evalRules, applies_shift o e here, applyActions_shift]
    split
    · exact ih e headers later
    · rcases applyActions r.actions e headers with ⟨e', headers', action⟩
      cases action with
      | some a => rfl
      | none => exact ih e' headers' later

theorem routeRules_shift (o : Shift) (default : Action) (stage : Stage) {rules : List CompiledRule} (e : Env)
    (headers : List Header) (unmoved : ∀ r ∈ rules, ∀ f ∈ r.pred.fields, f.Unmoved o) :
    routeRules default stage rules (e.shift o) headers =
      ((routeRules default stage rules e headers).1.shift o, (routeRules default stage rules e headers).2) := by
  induction rules generalizing e headers with
  | nil =>
    simp only [routeRules]
    split <;> rfl
  | cons r rest ih =>
    have here := unmoved r (List.mem_cons_self ..)
    have later : ∀ r ∈ rest, ∀ f ∈ r.pred.fields, f.Unmoved o := by
      intro r member
      exact unmoved r (List.mem_cons_of_mem _ member)
    simp only [routeRules, applies_shift o e here, applyActions_shift]
    split
    · rfl
    · split
      · exact ih e headers later
      · rcases applyActions r.actions e headers with ⟨e', headers', action⟩
        cases action with
        | some a => rfl
        | none => exact ih e' headers' later

variable {rs : Option Ruleset}

theorem evalPolicyOf_shift (o : Shift) (e : Env) (stage : Stage) (perRcpt : Bool) (unmoved : ∀ r ∈ rs, r.Unmoved o) :
    evalPolicyOf rs (e.shift o) stage perRcpt =
      ((evalPolicyOf rs e stage perRcpt).1.shift o, (evalPolicyOf rs e stage perRcpt).2) := by
  cases rs with
  | none => rfl
  | some rs => exact evalRules_shift o stage perRcpt e [] (unmoved rs rfl).rules.1

theorem route_shift (o : Shift) (e : Env) (stage : Stage) (unmoved : ∀ r ∈ rs, r.Unmoved o) :
    route rs (e.shift o) stage = ((route rs e stage).1.shift o, (route rs e stage).2) := by
  cases rs with
  | none => rfl
  | some rs => exact routeRules_shift o rs.default stage e [] (unmoved rs rfl).rules.2

end Evaluation

end Mailgw.Rules
