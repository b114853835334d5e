import Mailgw.Rules.Stages

namespace Mailgw.Rules

open Queue

structure Decision.Agrees (d d' : Decision) : Prop where
  rule : d.rule = d'.rule
  action : d.action = d'.action
  headers : d.headers = d'.headers

structure Decision.Same (d d' : Decision) : Prop extends d.Agrees d' where
  tags : ∀ key, d.tags.get key = d'.tags.get key

theorem Decision.Same.symm {d d' : Decision} (same : d.Same d') : d'.Same d :=
  ⟨⟨same.rule.symm, same.action.symm, same.headers.symm⟩, fun key => (same.tags key).symm⟩

section Walks
variable [Text.LowerCase]

/-- The verdicts of the rules a walk over the routes asks, in turn. -/
def trail (stage : Stage) : List CompiledRule → Env → List Bool
  | [], _ => []
  | r :: rest, e =>
    if stage < r.stage then []
    else if r.applies e = false then false :: trail stage rest e
    else
      match applyActions r.actions e [] with
      | (_, _, some _) => [true]
      | (e, _, none) => true :: trail stage rest e

example (e : Env) : routeRules .accept .data [] e [] = (e, some { action := .accept, tags := e.tags }) := by
  simp [routeRules]

example (e : Env) : trail .data [] e = [] := by simp [trail]

variable {default : Action} {stage stage' : Stage} {e e' e₁ e₂ : Env} {headers : List Header} {d : Decision}
  {r : CompiledRule} {rest : List CompiledRule} {a : Action}

inductive Course (stage : Stage) (r : CompiledRule) (e : Env) (headers : List Header) : Prop where
  | stops (beyond : stage < r.stage)
  | skips (reached : r.stage ≤ stage) (unmet : r.applies e = false)
  | passes (reached : r.stage ≤ stage) (met : r.applies e = true) (open_ : (applyActions r.actions e headers).2.2 = none)
  | decides (a : Action) (reached : r.stage ≤ stage) (met : r.applies e = true)
      (ends : (applyActions r.actions e headers).2.2 = some a)

theorem course (stage : Stage) (r : CompiledRule) (e : Env) (headers : List Header) : Course stage r e headers := by
  by_cases reached : r.stage ≤ stage
  · cases verdict : r.applies e with
    | false => exact .skips reached verdict
    | true =>
      cases ended : (applyActions r.actions e headers).2.2 with
      | none => exact .passes reached verdict ended
      | some a => exact .decides a reached verdict ended
  · exact .stops (not_le.mp reached)

theorem routeRules_stop (beyond : stage < r.stage) : routeRules default stage (r :: rest) e headers = (e, none) := by
  simp [routeRules, beyond]

theorem routeRules_skip (reached : r.stage ≤ stage) (unmet : r.applies e = false) :
    routeRules default stage (r :: rest) e headers = routeRules default stage rest e headers := by
  simp [routeRules, not_lt.mpr reached, unmet]

theorem routeRules_pass (reached : r.stage ≤ stage) (met : r.applies e = true)
    (open_ : (applyActions r.actions e headers).2.2 = none) :
    routeRules default stage (r :: rest) e headers =
      routeRules default stage rest (applyActions r.actions e headers).1 (applyActions r.actions e headers).2.1 := by
  rcases acted : applyActions r.actions e headers with ⟨e₁, headers₁, ended⟩
  rw [acted] at open_
  cases open_
  simp [routeRules, not_lt.mpr reached, met, acted]

theorem routeRules_decide (reached : r.stage ≤ stage) (met : r.applies e = true)
    (ends : (applyActions r.actions e headers).2.2 = some a) :
    routeRules default stage (r :: rest) e headers = ((applyActions r.actions e headers).1, some {
      rule := r.name, action := a, headers := (applyActions r.actions e headers).2.1
      tags := (applyActions r.actions e headers).1.tags }) := by
  rcases acted : applyActions r.actions e headers with ⟨e₁, headers₁, ended⟩
  rw [acted] at ends
  cases ends
  simp [routeRules, not_lt.mpr reached, met, acted]

theorem routeRules_nil (last : ¬ stage < .data) :
    routeRules default stage [] e headers = (e, some { action := default, headers, tags := e.tags }) := by
  simp [routeRules, last]

theorem trail_skip (reached : r.stage ≤ stage) (unmet : r.applies e = false) :
    trail stage (r :: rest) e = false :: trail stage rest e := by
  simp [trail, not_lt.mpr reached, unmet]

theorem trail_pass (reached : r.stage ≤ stage) (met : r.applies e = true)
    (open_ : (applyActions r.actions e headers).2.2 = none) :
    trail stage (r :: rest) e = true :: trail stage rest (applyActions r.actions e headers).1 := by
  rw [applyActions_action r.actions e e headers []] at open_
  rw [applyActions_fst r.actions e headers []]
  rcases acted : applyActions r.actions e [] with ⟨e₁, headers₁, ended⟩
  rw [acted] at open_
  cases open_
  simp [trail, not_lt.mpr reached, met, acted]

theorem trail_decide (reached : r.stage ≤ stage) (met : r.applies e = true)
    (ends : (applyActions r.actions e headers).2.2 = some a) : trail stage (r :: rest) e = [true] := by
  rw [applyActions_action r.actions e e headers []] at ends
  rcases acted : applyActions r.actions e [] with ⟨e₁, headers₁, ended⟩
  rw [acted] at ends
  cases ends
  simp [trail, not_lt.mpr reached, met, acted]

theorem applies_of_trail {b : Bool} {bits : List Bool} (reached : r.stage ≤ stage)
    (begins : b :: bits <+: trail stage (r :: rest) e) : r.applies e = b := by
  rcases course stage r e [] with beyond | ⟨_, unmet⟩ | ⟨_, met, open_⟩ | ⟨_, _, met, ends⟩
  · exact absurd beyond (not_lt.mpr reached)
  · rw [trail_skip reached unmet, List.cons_prefix_cons] at begins
    rw [unmet, begins.1]
  · rw [trail_pass reached met open_, List.cons_prefix_cons] at begins
    rw [met, begins.1]
  · rw [trail_decide reached met ends, List.cons_prefix_cons] at begins
    rw [met, begins.1]

theorem routeRules_env (rules : List CompiledRule) {decision : Option Decision}
    (walk : routeRules default stage rules e headers = (e₁, decision)) : e₁ = { e with tags := e₁.tags } := by
  induction rules generalizing e headers with
  | nil =>
    unfold routeRules at walk
    split at walk <;> cases walk <;> rfl
  | cons r rest ih =>
    rcases course stage r e headers with beyond | ⟨reached, unmet⟩ | ⟨reached, met, open_⟩ | ⟨a, reached, met, ends⟩
    · rw [routeRules_stop beyond] at walk
      cases walk
      rfl
    · rw [routeRules_skip reached unmet] at walk
      exact ih walk
    · rw [routeRules_pass reached met open_] at walk
      have later := ih walk
      rw [applyActions_env r.actions e headers] at later
      exact later
    · rw [routeRules_decide reached met ends] at walk
      cases walk
      exact applyActions_env r.actions e headers

/-- A walk that reaches a decision reaches it later too, unless what it read has changed. -/
theorem routeRules_agree (rules : List CompiledRule) (agree : e.Agree stage e') (later : stage ≤ stage')
    (walk : routeRules default stage rules e headers = (e₁, some d)) :
    ∃ e₂ d', routeRules default stage' rules e' headers = (e₂, some d') ∧ d.Same d' := by
  induction rules generalizing e e' headers with
  | nil =>
    unfold routeRules at walk
    split at walk <;> cases walk
    rename_i last
    have last' : ¬ stage' < .data := fun before => last (lt_of_le_of_lt later before)
    exact ⟨_, _, routeRules_nil last', ⟨⟨rfl, rfl, rfl⟩, agree.tags⟩⟩
  | cons r rest ih =>
    have moved := applyActions_agree agree r.actions headers headers
    have collected := applyActions_snd r.actions e e' headers
    rcases course stage r e headers with beyond | ⟨reached, unmet⟩ | ⟨reached, met, open_⟩ | ⟨a, reached, met, ends⟩
    · rw [routeRules_stop beyond] at walk
      cases walk
    · rw [routeRules_skip reached unmet] at walk
      have unmet' := (applies_agree agree r reached).symm.trans unmet
      rw [routeRules_skip (reached.trans later) unmet']
      exact ih agree walk
    · rw [routeRules_pass reached met open_, collected] at walk
      have met' := (applies_agree agree r reached).symm.trans met
      rw [collected] at open_
      rw [routeRules_pass (reached.trans later) met' open_]
      exact ih moved walk
    · rw [routeRules_decide reached met ends, collected] at walk
      have met' := (applies_agree agree r reached).symm.trans met
      rw [collected] at ends
      cases walk
      exact ⟨_, _, routeRules_decide (reached.trans later) met' ends, ⟨⟨rfl, rfl, rfl⟩, moved.tags⟩⟩

theorem routeRules_data (default : Action) (rules : List CompiledRule) (e : Env) (headers : List Header) :
    ∃ e₁ d, routeRules default .data rules e headers = (e₁, some d) := by
  induction rules generalizing e headers with
  | nil => exact ⟨_, _, routeRules_nil (lt_irrefl _)⟩
  | cons r rest ih =>
    rcases course .data r e headers with beyond | ⟨reached, unmet⟩ | ⟨reached, met, open_⟩ | ⟨a, reached, met, ends⟩
    · exact absurd beyond (not_lt.mpr (Stage.le_data _))
    · rw [routeRules_skip reached unmet]
      exact ih _ _
    · rw [routeRules_pass reached met open_]
      exact ih _ _
    · exact ⟨_, _, routeRules_decide reached met ends⟩

theorem routeRules_alike (rules : List CompiledRule) (headers : List Header) (agree : e.Agree .data e') :
    ∃ once d twice d', routeRules default .data rules e headers = (once, some d) ∧
      routeRules default .data rules e' headers = (twice, some d') ∧ d.Same d' := by
  obtain ⟨once, d, decided⟩ := routeRules_data default rules e headers
  obtain ⟨twice, d', decided', same⟩ := routeRules_agree rules agree le_rfl decided
  exact ⟨once, d, twice, d', decided, decided', same⟩

theorem atData_agree {again : Env} (m : MsgEnv) (facts : again = { e.atData m with tags := again.tags })
    (mixed : ∀ key, again.tags.get key = e.tags.get key ∨ again.tags.get key = e.tags.get key) :
    (e.atData m).Agree .data again := by
  apply Env.agree_of_tags _ facts
  intro key
  rcases mixed key with same | same <;> exact same.symm

/-- Two walks at DATA, one over the tags an undecided earlier walk met and one over those it left.
    In between, each tag of the second is the one of the first or the one it will be. -/
theorem routeRules_again (rules : List CompiledRule) (headers : List Header) (m : MsgEnv) (early : stage < .data)
    {again : Env} {headers' : List Header} (walk : routeRules default stage rules e headers' = (e₁, none))
    (facts : again = { e.atData m with tags := again.tags })
    (mixed : ∀ key, again.tags.get key = e.tags.get key ∨ again.tags.get key = e₁.tags.get key)
    (steady : trail stage rules e <+: trail .data rules again) :
    ∃ once d twice d', routeRules default .data rules (e.atData m) headers = (once, some d) ∧
      routeRules default .data rules again headers = (twice, some d') ∧ d.Same d' := by
  induction rules generalizing e again headers headers' with
  | nil =>
    have unmoved : e = e₁ := by simpa [routeRules, early] using walk
    subst unmoved
    exact routeRules_alike _ _ (atData_agree m facts mixed)
  | cons r rest ih =>
    have known := Env.agree_atData e m early
    rcases course stage r e headers' with beyond | ⟨reached, unmet⟩ | ⟨reached, met, open_⟩ | ⟨a, reached, met, ends⟩
    · rw [routeRules_stop beyond] at walk
      cases walk
      exact routeRules_alike _ _ (atData_agree m facts mixed)
    · rw [routeRules_skip reached unmet] at walk
      rw [trail_skip reached unmet] at steady
      have here := (applies_agree known r reached).symm.trans unmet
      have there := applies_of_trail (Stage.le_data _) steady
      rw [trail_skip (Stage.le_data _) there] at steady
      rw [routeRules_skip (Stage.le_data _) here, routeRules_skip (Stage.le_data _) there]
      exact ih _ walk facts mixed (List.cons_prefix_cons.mp steady).2
    · rw [routeRules_pass reached met open_] at walk
      rw [trail_pass reached met open_] at steady
      have here := (applies_agree known r reached).symm.trans met
      have there := applies_of_trail (Stage.le_data _) steady
      have open₁ := (applyActions_action r.actions e (e.atData m) headers' headers).symm.trans open_
      have open₂ := (applyActions_action r.actions e again headers' headers).symm.trans open_
      rw [trail_pass (Stage.le_data _) there open₂] at steady
      rw [routeRules_pass (Stage.le_data _) here open₁, routeRules_pass (Stage.le_data _) there open₂,
        applyActions_snd r.actions again (e.atData m) headers, applyActions_atData]
      apply ih _ walk _ _ (List.cons_prefix_cons.mp steady).2
      · rw [applyActions_env r.actions again, applyActions_env r.actions e, facts]
        rfl
      · intro key
        rcases applyActions_get r.actions key with ⟨value, gives⟩ | keeps
        · left
          rw [gives, gives]
        · rw [keeps, keeps]
          exact mixed key
    · rw [routeRules_decide reached met ends] at walk
      cases walk

/-- Asks for the route when the recipient is named, and again when the message is there if that
    settled nothing. -/
def routeInStages (rs : Ruleset) (e : Env) (stage : Stage) (m : MsgEnv) : Env × Option Decision :=
  match route (some rs) e stage with
  | (e, some d) => (e, some d)
  | (e, none) => route (some rs) (e.atData m) .data

/-- The rules an undecided early walk passed over get the same verdicts with the tags it left. -/
def Steady (rs : Ruleset) (e : Env) (stage : Stage) (m : MsgEnv) : Prop :=
  (route (some rs) e stage).2 = none →
    trail stage rs.routes e <+: trail .data rs.routes ((route (some rs) e stage).1.atData m)

theorem early_routing_law (rs : Ruleset) (e : Env) (m : MsgEnv) (stage : Stage) (early : stage < .data)
    (steady : Steady rs e stage m) :
    ∃ d d', (routeInStages rs e stage m).2 = some d ∧ (route (some rs) (e.atData m) .data).2 = some d' ∧
      d.Same d' := by
  rcases walk : routeRules rs.default stage rs.routes e [] with ⟨e₁, decision⟩
  simp only [routeInStages, route, walk, Steady] at steady ⊢
  cases decision with
  | some d =>
    obtain ⟨e₂, d', later, same⟩ := routeRules_agree rs.routes (Env.agree_atData e m early) (Stage.le_data _) walk
    exact ⟨d, d', rfl, by rw [later], same⟩
  | none =>
    have left := routeRules_env rs.routes walk
    obtain ⟨once, d, twice, d', first, second, same⟩ := routeRules_again rs.routes [] m early walk
      (show e₁.atData m = { e.atData m with tags := (e₁.atData m).tags } by rw [left]; rfl) (fun key => .inr rfl) (steady rfl)
    exact ⟨d', d, by simp only [second], by rw [first], same.symm⟩

end Walks

section Sample

local instance : Text.LowerCase := ⟨Char.toLower⟩
local instance : CaseFolding := ⟨Char.toLower⟩
local instance : Patterns := ⟨fun _ _ _ => none, fun _ => none, fun _ => none, fun _ => none⟩

/-- The second rule writes the tag that the first one reads, and the third one waits for the message. -/
def tagReader : File where
  routes := [
    { name := "read".toList, actions := [.relay "early".toList]
      pred := .field { field := "tag.seen".toList, op := some .eq, value := some (.str "yes".toList) } },
    { name := "write".toList, pred := .all [], actions := [.tag "seen".toList "yes".toList] },
    { name := "wait".toList, stage := "data".toList, pred := .all [], actions := [.relay "late".toList] }]

def sampleRcpt : Env where
  stage := .rcpt
  mail := some { fromAddr := "sender@example.com".toList }
  rcpt := some { toAddr := "rcpt@example.com".toList, index := 1, countSoFar := 0 }

def bothAnswers (f : File) : Option (Option Action × Option Action) :=
  match compile f none with
  | .ok rs => some ((routeInStages rs sampleRcpt .rcpt {}).2.map Decision.action,
      (route (some rs) (sampleRcpt.atData {}) .data).2.map Decision.action)
  | .error _ => none

/-- A tag written by an undecided walk can change where the mail goes. -/
theorem early_walk_leaves_tags : ∃ f rs e m, compile f none = .ok rs ∧ ¬ ∃ d d', (routeInStages rs e .rcpt m).2 = some d ∧
    (route (some rs) (e.atData m) .data).2 = some d' ∧ d.Same d' := by
  have answers : bothAnswers tagReader = some (some (.relay "early".toList), some (.relay "late".toList)) := by
    decide +kernel
  unfold bothAnswers at answers
  split at answers
  · rename_i rs compiled
    refine ⟨tagReader, rs, sampleRcpt, {}, compiled, ?_⟩
    rintro ⟨d, d', early, late, same⟩
    rw [early, late] at answers
    simp only [same.action, Option.map_some, Option.some.injEq, Prod.mk.injEq] at answers
    have differ := answers.1.symm.trans answers.2
    cases differ
  · cases answers

/-- One rule writes a tag that none reads, the next one waits for the message. -/
def tagWriter : Ruleset where
  policy := []
  routes := [
    { name := "write".toList, stage := .connect, actions := [.tag "seen".toList "yes".toList], rcptScoped := false
      pred := .const true, known := le_rfl },
    { name := "wait".toList, stage := .data, actions := [.relay "late".toList], rcptScoped := false
      pred := .const true, known := Stage.le_data _ }]
  default := defaultAction

theorem early_routing_law_sample : ∃ d d', (routeInStages tagWriter sampleRcpt .rcpt {}).2 = some d ∧
    (route (some tagWriter) (sampleRcpt.atData {}) .data).2 = some d' ∧ d.Same d' :=
  early_routing_law tagWriter sampleRcpt {} .rcpt (by decide) (fun _ => by decide)

end Sample

end Mailgw.Rules
