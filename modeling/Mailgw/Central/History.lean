import Mailgw.Central.Deployments

namespace Mailgw.Central

open Calls Lists Queue

namespace Console

variable {digest : Name → Name} {c c' : Console} {id id' gatewayId versionId : Nat} {composed : Except Name Name}
variable {actor : Name} {note : Option Name} {gateway : Gateway}

def Names (c : Console) (gatewayId versionId : Nat) : Prop :=
  (c.newestDeployment gatewayId).map Deployment.versionId = some versionId

structure Agrees (c : Console) (id : Nat) (gateway : Gateway) : Prop where
  newest : ∀ versionId, gateway.desiredVersionId = some versionId → c.Names id versionId
  own : ∀ versionId, gateway.desiredVersionId = some versionId → ∃ v ∈ c.versions, v.id = versionId ∧ v.gatewayId = id
  error : gateway.applyError ≠ none → gateway.errorFor = gateway.desiredVersionId

def Consistent (c : Console) : Prop := ∀ id gateway, c.gateways.get id = some gateway → c.Agrees id gateway

def Fresh (digest : Name → Name) (c : Console) : ConsoleMove → Prop
  | .deploy gatewayId (.ok serialised) _ _ => ∀ v ∈ c.latestVersion gatewayId, v.bundleSha256 = digest serialised →
      ∀ gateway ∈ c.gateways.get gatewayId, gateway.desiredVersionId = some v.id
  | _ => True

structure Counted (c : Console) : Prop where
  gateways : ∀ id gateway, c.gateways.get id = some gateway → id < c.nextGateway
  versions : ∀ v ∈ c.versions, v.id < c.nextVersion
  distinct : (c.versions.map Version.id).Nodup
  deployments : ∀ d ∈ c.deployments, d.id < c.nextDeployment

theorem updateGateway_get (c : Console) (id id' : Nat) (change : Gateway → Gateway) :
    (c.updateGateway id change).gateways.get id' = (c.gateways.get id').map (if id' = id then change else fun g => g) := by
  unfold updateGateway
  cases found : c.gateways.get id with
  | none =>
    by_cases own : id' = id
    · rw [own, found]
      rfl
    · simp [own]
  | some gateway =>
    by_cases own : id' = id
    · subst own
      simp [found]
    · dsimp only
      rw [Table.get_set_ne own]
      simp [own]

@[simp] theorem updateGateway_versions (c : Console) (id : Nat) (change : Gateway → Gateway) :
    (c.updateGateway id change).versions = c.versions := by
  unfold updateGateway
  split <;> rfl

@[simp] theorem updateGateway_deployments (c : Console) (id : Nat) (change : Gateway → Gateway) :
    (c.updateGateway id change).deployments = c.deployments := by
  unfold updateGateway
  split <;> rfl

@[simp] theorem updateGateway_counters (c : Console) (id : Nat) (change : Gateway → Gateway) :
    (c.updateGateway id change).nextGateway = c.nextGateway ∧ (c.updateGateway id change).nextVersion = c.nextVersion ∧
      (c.updateGateway id change).nextDeployment = c.nextDeployment := by
  unfold updateGateway
  split <;> exact ⟨rfl, rfl, rfl⟩

theorem latestVersion_own {v : Version} (latest_ : c.latestVersion gatewayId = some v) :
    v ∈ c.versions ∧ v.gatewayId = gatewayId := by
  have member := (latest_head_inv latest_).1
  simpa using List.mem_filter.mp member

theorem latestVersion_le {v w : Version} (latest_ : c.latestVersion gatewayId = some v) (member : w ∈ c.versions)
    (own : w.gatewayId = gatewayId) : w.version ≤ v.version :=
  (latest_head_inv latest_).2 w (List.mem_filter.mpr ⟨member, by simpa using own⟩)

theorem record_names (counted : ∀ d ∈ c.deployments, d.id < c.nextDeployment) (action : Action) :
    (c.recordDeployment gatewayId versionId action actor note).Names gatewayId versionId := by
  have head : (c.recordDeployment gatewayId versionId action actor note).newestDeployment gatewayId =
      some ⟨c.nextDeployment, gatewayId, versionId, action, actor, note⟩ := by
    apply latest_head
    · intro d member
      rw [recordDeployment, List.filter_append, List.mem_append] at member
      rcases member with old | new
      · exact .inr (counted d (List.mem_of_mem_filter old))
      · exact .inl (List.mem_singleton.mp (List.mem_of_mem_filter new))
    · simp [recordDeployment]
  rw [Names, head]
  rfl

theorem record_names_ne (other : id ≠ gatewayId) (action : Action) :
    (c.recordDeployment gatewayId versionId action actor note).newestDeployment id = c.newestDeployment id := by
  simp [newestDeployment, recordDeployment, List.filter_append, Ne.symm other]

def pointed (c : Console) (gatewayId versionId : Nat) (action : Action) (actor : Name) (note : Option Name) : Console :=
  (c.updateGateway gatewayId fun gateway => { gateway with desiredVersionId := some versionId, applyError := none }).recordDeployment
    gatewayId versionId action actor note

def inserted (c : Console) (v : Version) : Console :=
  { c with versions := c.versions ++ [v], nextVersion := c.nextVersion + 1 }

theorem createVersion_inv {version : Nat} {serialised sha256 : Name} {result : DeployResult}
    (fresh : ∀ v ∈ c.versions, v.gatewayId = gatewayId → v.version < version)
    (created : c.createVersion gatewayId version serialised sha256 actor note = .ok (c', result)) :
    ∃ v : Version, v.id = c.nextVersion ∧ v.gatewayId = gatewayId ∧
      c' = (c.inserted v).pointed gatewayId v.id .deploy actor note := by
  have none : c.versions.find? (fun v => v.gatewayId = gatewayId ∧ v.version = version) = none := by
    rw [List.find?_eq_none]
    intro v member same
    simp only [decide_eq_true_eq] at same
    have below := fresh v member same.1
    omega
  unfold createVersion at created
  simp only [List.find?_append, none, Option.none_or, List.find?_singleton, and_self, decide_true, if_true] at created
  cases created
  exact ⟨⟨c.nextVersion, gatewayId, version, serialised, sha256, note, actor⟩, rfl, rfl, rfl⟩

theorem deploy_cases (next : c.next digest (.deploy gatewayId composed actor note) = some c') :
    ∃ serialised, composed = .ok serialised ∧
      ((∃ v, c.latestVersion gatewayId = some v ∧ v.bundleSha256 = digest serialised ∧
          c' = c.updateGateway gatewayId fun gateway => { gateway with desiredVersionId := some v.id }) ∨
        ∃ v : Version, v.id = c.nextVersion ∧ v.gatewayId = gatewayId ∧
          c' = (c.inserted v).pointed gatewayId v.id .deploy actor note) := by
  simp only [Console.next] at next
  obtain ⟨⟨left, result⟩, ok, rfl⟩ := Option.map_eq_some_iff.mp next
  cases composed with
  | error err => cases ok
  | ok serialised =>
    refine ⟨serialised, rfl, ?_⟩
    have ran : c.deployInTransaction digest gatewayId (.ok serialised) actor note = .ok (left, result) := by
      cases outcome : c.deployInTransaction digest gatewayId (.ok serialised) actor note with
      | error err =>
        rw [outcome] at ok
        cases ok
      | ok value =>
        rw [outcome] at ok
        cases ok
        rfl
    simp only [deployInTransaction, bind, Except.bind] at ran
    cases newest : c.latestVersion gatewayId with
    | none =>
      rw [newest] at ran
      right
      apply createVersion_inv _ ran
      intro v member own
      have none := latest_head_none newest
      rw [List.filter_eq_nil_iff] at none
      exact absurd own (by simpa using none v member)
    | some v =>
      rw [newest] at ran
      dsimp only at ran
      split at ran
      · rename_i same
        cases ran
        exact .inl ⟨v, rfl, same, rfl⟩
      · right
        apply createVersion_inv _ ran
        intro w member own
        have le := latestVersion_le newest member own
        omega

theorem rollback_cases (next : c.next digest (.rollback gatewayId versionId actor) = some c') :
    ∃ v ∈ c.versions, v.id = versionId ∧ v.gatewayId = gatewayId ∧ c' = c.pointed gatewayId versionId .rollback actor none := by
  simp only [Console.next, rollbackInTransaction] at next
  cases found : c.versions.find? fun v => v.id = versionId ∧ v.gatewayId = gatewayId with
  | none =>
    rw [found] at next
    cases next
  | some v =>
    rw [found] at next
    cases next
    have member := List.mem_of_find?_eq_some found
    have same : v.id = versionId ∧ v.gatewayId = gatewayId := by simpa using List.find?_some found
    refine ⟨v, member, same.1, same.2, ?_⟩
    rw [← same.1]
    rfl

theorem Consistent.pointed (consistent : c.Consistent) (counted : c.Counted) {v : Version} (member : v ∈ c.versions)
    (own : v.gatewayId = gatewayId) (action : Action) : (c.pointed gatewayId v.id action actor note).Consistent := by
  intro id gateway here
  have here' : (c.gateways.get id).map (if id = gatewayId then
      fun gateway => { gateway with desiredVersionId := some v.id, applyError := none } else fun g => g) = some gateway := by
    rw [← updateGateway_get]
    exact here
  obtain ⟨old, there, rfl⟩ := Option.map_eq_some_iff.mp here'
  by_cases same : id = gatewayId
  · rw [if_pos same]
    constructor
    · intro versionId desired
      cases desired
      rw [same]
      apply record_names
      simpa using counted.deployments
    · intro versionId desired
      cases desired
      refine ⟨v, ?_, rfl, own.trans same.symm⟩
      simpa [Console.pointed, recordDeployment] using member
    · intro failed
      exact absurd rfl failed
  · rw [if_neg same]
    obtain ⟨newest, own', error⟩ := consistent id old there
    constructor
    · intro versionId desired
      have before := newest versionId desired
      rw [Names, Console.pointed, record_names_ne same]
      simpa [Names, newestDeployment] using before
    · intro versionId desired
      obtain ⟨w, there', rest⟩ := own' versionId desired
      refine ⟨w, ?_, rest⟩
      simpa [Console.pointed, recordDeployment] using there'
    · exact error

theorem Consistent.update (consistent : c.Consistent) {change : Gateway → Gateway}
    (agrees : ∀ gateway, c.gateways.get id' = some gateway → c.Agrees id' gateway → c.Agrees id' (change gateway)) :
    (c.updateGateway id' change).Consistent := by
  intro id gateway here
  rw [updateGateway_get] at here
  obtain ⟨old, there, rfl⟩ := Option.map_eq_some_iff.mp here
  have before : c.Agrees id (if id = id' then change old else old) := by
    split
    · rename_i same
      subst same
      exact agrees old there (consistent id old there)
    · exact consistent id old there
  have moved : (if id = id' then change else fun g => g) old = if id = id' then change old else old := by
    split <;> rfl
  rw [moved]
  obtain ⟨newest, own, error⟩ := before
  constructor
  · intro versionId desired
    simpa [Names, newestDeployment] using newest versionId desired
  · intro versionId desired
    simpa using own versionId desired
  · exact error

theorem Consistent.inserted (consistent : c.Consistent) (v : Version) : (c.inserted v).Consistent := by
  intro id gateway here
  obtain ⟨newest, own, error⟩ := consistent id gateway here
  refine ⟨newest, ?_, error⟩
  intro versionId desired
  obtain ⟨w, member, rest⟩ := own versionId desired
  exact ⟨w, List.mem_append_left _ member, rest⟩

theorem Consistent.delete (consistent : c.Consistent) (gatewayId : Nat) : (c.delete gatewayId).Consistent := by
  intro id gateway here
  have other : id ≠ gatewayId := by
    intro same
    subst same
    simp [Console.delete] at here
  have there : c.gateways.get id = some gateway := by
    rw [← Table.get_del_ne other]
    exact here
  obtain ⟨newest, own, error⟩ := consistent id gateway there
  constructor
  · intro versionId desired
    have kept : (c.deployments.filter fun d => d.gatewayId ≠ gatewayId).filter (fun d => d.gatewayId = id) =
        c.deployments.filter fun d => d.gatewayId = id := by
      rw [List.filter_filter]
      apply List.filter_congr
      intro d _
      by_cases mine : d.gatewayId = id <;> simp [mine, other]
    rw [Names, newestDeployment]
    exact (congrArg (fun ds => ((latest Deployment.id ds).head?).map Deployment.versionId) kept).trans (newest versionId desired)
  · intro versionId desired
    obtain ⟨v, member, named, mine⟩ := own versionId desired
    exact ⟨v, List.mem_filter.mpr ⟨member, by simpa [mine] using other⟩, named, mine⟩
  · exact error

theorem Counted.inserted (counted : c.Counted) {v : Version} (fresh : v.id = c.nextVersion) : (c.inserted v).Counted := by
  obtain ⟨gateways, versions, distinct, deployments⟩ := counted
  constructor
  · exact gateways
  · intro w member
    rcases List.mem_append.mp member with old | new
    · have below := versions w old
      simp only [Console.inserted]
      omega
    · rw [List.mem_singleton.mp new, fresh]
      exact Nat.lt_succ_self _
  · simp only [Console.inserted, List.map_append, List.map_cons, List.map_nil]
    apply List.nodup_append.mpr
    refine ⟨distinct, List.nodup_singleton _, ?_⟩
    intro a old b new
    obtain ⟨w, member, rfl⟩ := List.mem_map.mp old
    have below := versions w member
    rw [List.mem_singleton.mp new, fresh]
    omega
  · exact deployments

theorem Counted.updated (counted : c.Counted) (id : Nat) (change : Gateway → Gateway) : (c.updateGateway id change).Counted := by
  obtain ⟨gateways, versions, distinct, deployments⟩ := counted
  obtain ⟨nextGateway, nextVersion, nextDeployment⟩ := c.updateGateway_counters id change
  constructor
  · intro id' gateway here
    rw [updateGateway_get] at here
    obtain ⟨old, there, _⟩ := Option.map_eq_some_iff.mp here
    rw [nextGateway]
    exact gateways id' old there
  · rw [updateGateway_versions, nextVersion]
    exact versions
  · rw [updateGateway_versions]
    exact distinct
  · rw [updateGateway_deployments, nextDeployment]
    exact deployments

theorem Counted.pointed (counted : c.Counted) (gatewayId versionId : Nat) (action : Action) (actor : Name) (note : Option Name) :
    (c.pointed gatewayId versionId action actor note).Counted := by
  obtain ⟨gateways, versions, distinct, deployments⟩ := counted.updated gatewayId fun gateway =>
    { gateway with desiredVersionId := some versionId, applyError := none }
  refine ⟨gateways, versions, distinct, ?_⟩
  intro d member
  rcases List.mem_append.mp member with old | new
  · exact Nat.lt_succ_of_lt (deployments d old)
  · rw [List.mem_singleton.mp new]
    exact Nat.lt_succ_self _

theorem Counted.next {move : ConsoleMove} (counted : c.Counted) (next : c.next digest move = some c') : c'.Counted := by
  cases move with
  | register =>
    cases next
    refine ⟨?_, counted.versions, counted.distinct, counted.deployments⟩
    intro id gateway here
    dsimp only at here ⊢
    by_cases new : id = c.nextGateway
    · omega
    · rw [Table.get_set_ne new] at here
      exact Nat.lt_succ_of_lt (counted.gateways id gateway here)
  | deploy gatewayId composed actor note =>
    obtain ⟨serialised, _, ⟨v, _, _, rfl⟩ | ⟨v, fresh, _, rfl⟩⟩ := deploy_cases next
    · exact counted.updated _ _
    · exact (counted.inserted fresh).pointed _ _ _ _ _
  | rollback gatewayId versionId actor =>
    obtain ⟨v, _, _, _, rfl⟩ := rollback_cases next
    exact counted.pointed _ _ _ _ _
  | report gatewayId r =>
    cases next
    exact counted.updated _ _
  | delete gatewayId =>
    cases next
    constructor
    · intro id gateway here
      dsimp only [Console.delete] at here
      rw [Table.del, Table.get_keep, Option.filter_eq_some_iff] at here
      exact counted.gateways id gateway here.1
    · intro v member
      exact counted.versions v (List.mem_of_mem_filter member)
    · exact (List.filter_sublist.map _).nodup counted.distinct
    · intro d member
      exact counted.deployments d (List.mem_of_mem_filter member)

theorem Consistent.next {move : ConsoleMove} (consistent : c.Consistent) (counted : c.Counted) (fresh : c.Fresh digest move)
    (next : c.next digest move = some c') : c'.Consistent := by
  cases move with
  | register =>
    cases next
    intro id gateway here
    dsimp only at here
    by_cases new : id = c.nextGateway
    · subst new
      rw [Table.get_set] at here
      cases here
      constructor
      · intro versionId desired
        cases desired
      · intro versionId desired
        cases desired
      · intro failed
        exact absurd rfl failed
    · rw [Table.get_set_ne new] at here
      obtain ⟨newest, own, error⟩ := consistent id gateway here
      exact ⟨newest, own, error⟩
  | deploy gatewayId composed actor note =>
    obtain ⟨serialised, rfl, ⟨v, latest_, same, rfl⟩ | ⟨v, id, own, rfl⟩⟩ := deploy_cases next
    · apply consistent.update
      intro gateway here agrees
      have desired := fresh v latest_ same gateway here
      rw [← desired]
      exact agrees
    · exact (consistent.inserted v).pointed (counted.inserted id) (List.mem_append_right _ List.mem_cons_self) own .deploy
  | rollback gatewayId versionId actor =>
    obtain ⟨v, member, rfl, own, rfl⟩ := rollback_cases next
    exact consistent.pointed counted member own .rollback
  | report gatewayId r =>
    cases next
    apply consistent.update
    intro gateway here agrees
    obtain ⟨newest, own, error⟩ := agrees
    refine ⟨newest, own, ?_⟩
    dsimp only
    cases r.applyError with
    | none => exact error
    | some reported =>
      intro _
      rfl
  | delete gatewayId =>
    cases next
    exact consistent.delete gatewayId

theorem next_versions {move : ConsoleMove} (next : c.next digest move = some c') :
    c.nextVersion ≤ c'.nextVersion ∧ ∀ v ∈ c'.versions, v ∈ c.versions ∨ c.nextVersion ≤ v.id := by
  cases move with
  | register =>
    cases next
    exact ⟨le_rfl, fun v member => .inl member⟩
  | deploy gatewayId composed actor note =>
    obtain ⟨serialised, _, ⟨v, _, _, rfl⟩ | ⟨v, fresh, _, rfl⟩⟩ := deploy_cases next
    · simp only [updateGateway_versions, updateGateway_counters]
      exact ⟨le_rfl, fun v member => .inl member⟩
    · simp only [Console.pointed, recordDeployment, updateGateway_versions, updateGateway_counters, Console.inserted]
      refine ⟨Nat.le_succ _, fun w member => ?_⟩
      rcases List.mem_append.mp member with old | new
      · exact .inl old
      · right
        rw [List.mem_singleton.mp new, fresh]
  | rollback gatewayId versionId actor =>
    obtain ⟨v, _, _, _, rfl⟩ := rollback_cases next
    simp only [Console.pointed, recordDeployment, updateGateway_versions, updateGateway_counters]
    exact ⟨le_rfl, fun v member => .inl member⟩
  | report gatewayId r =>
    cases next
    simp only [report, updateGateway_versions, updateGateway_counters]
    exact ⟨le_rfl, fun v member => .inl member⟩
  | delete gatewayId =>
    cases next
    exact ⟨le_rfl, fun v member => .inl (List.mem_of_mem_filter member)⟩

theorem counted_fresh : Counted {} := by
  constructor
  · intro id gateway none
    cases none
  · intro v none
    cases none
  · exact List.nodup_nil
  · intro d none
    cases none

theorem counted_run {ok : Console → ConsoleMove → Prop} (reachable : Reachable (Console.next digest) ok {} c) : c.Counted := by
  apply reachable.invariant Counted counted_fresh
  intro s move s' counted _ next
  exact counted.next next

theorem versions_run {ok : Console → ConsoleMove → Prop} (reachable : Reachable (Console.next digest) ok c c') :
    c.nextVersion ≤ c'.nextVersion ∧ ∀ v ∈ c'.versions, v ∈ c.versions ∨ c.nextVersion ≤ v.id := by
  induction reachable with
  | start => exact ⟨le_rfl, fun v member => .inl member⟩
  | step _ _ next ih =>
    obtain ⟨onward, since⟩ := ih
    obtain ⟨onward', since'⟩ := next_versions next
    refine ⟨onward.trans onward', fun v member => ?_⟩
    rcases since' v member with old | new
    · exact since v old
    · exact .inr (onward.trans new)

end Console

/-- While no deployment finds the newest version unchanged but not desired, the history of every gateway
    agrees with its row. A version is never modified in any run. -/
theorem history_consistent (digest : Name → Name) (c : Console)
    (reachable : Reachable (Console.next digest) (Console.Fresh digest) {} c) :
    c.Consistent ∧ ∀ c', Reachable (Console.next digest) (fun _ _ => True) c c' →
      ∀ v ∈ c.versions, ∀ v' ∈ c'.versions, v'.id = v.id → v' = v := by
  constructor
  · have both : c.Counted ∧ c.Consistent := by
      apply reachable.invariant fun c => c.Counted ∧ c.Consistent
      · refine ⟨Console.counted_fresh, ?_⟩
        intro id gateway none
        cases none
      · intro s move s' held fresh next
        exact ⟨held.1.next next, held.2.next held.1 fresh next⟩
    exact both.2
  · intro c' later v member v' member' same
    have counted := Console.counted_run reachable
    rcases (Console.versions_run later).2 v' member' with old | new
    · exact List.inj_on_of_nodup_map counted.distinct old member same
    · have below := counted.versions v member
      omega

section Samples

instance decidableFresh (digest : Name → Name) (c : Console) : (move : ConsoleMove) → Decidable (c.Fresh digest move)
  | .deploy _ (.ok _) _ _ => inferInstanceAs (Decidable (∀ _ ∈ _, _ → ∀ _ ∈ _, _))
  | .deploy _ (.error _) _ _ | .register | .rollback _ _ _ | .report _ _ | .delete _ => inferInstanceAs (Decidable True)

def operator : Name := "operator".toList

def deploys (bundle : String) : ConsoleMove := .deploy 1 (.ok bundle.toList) operator none

def backAndForth : List ConsoleMove :=
  [.register, deploys "a", deploys "b", .rollback 1 1 operator, .report 1 { applyError := some (some "bad".toList) },
    deploys "b"]

def onward : List ConsoleMove :=
  [.register, deploys "a", deploys "b", deploys "b", .rollback 1 1 operator, deploys "c"]

def played (moves : List ConsoleMove) (fresh : Bool) : Option Console :=
  play (Console.next id) (fun c move => !fresh || decide (c.Fresh id move)) {} moves

theorem history_consistent_sample : ∃ c, played onward true = some c ∧ c.Consistent ∧
    ((c.newestDeployment 1).map Deployment.versionId = some 3 ∧
      (c.gateways.get 1).map Gateway.desiredVersionId = some (some 3)) := by
  have held : (played onward true).any (fun c => decide ((c.newestDeployment 1).map Deployment.versionId = some 3 ∧
      (c.gateways.get 1).map Gateway.desiredVersionId = some (some 3))) = true := by decide
  obtain ⟨c, run, checked⟩ := (Option.any_eq_true _ _).mp held
  have reachable : Reachable (Console.next id) (Console.Fresh id) {} c :=
    reachable_of_play (fun _ _ fresh => by simpa using fresh) onward run
  exact ⟨c, run, (history_consistent id c reachable).1, of_decide_eq_true checked⟩

/-- After a rollback the newest version is deployed again: the trail still names the other one, and
    the error of that one stays. -/
theorem history_disagrees : ¬ ∀ digest c, Reachable (Console.next digest) (fun _ _ => True) {} c → c.Consistent := by
  intro consistent
  have held : (played backAndForth false).any (fun c => decide ((c.newestDeployment 1).map Deployment.versionId = some 1 ∧
      (c.gateways.get 1).any (fun gateway => gateway.desiredVersionId = some 2 ∧ gateway.applyError ≠ none) = true)) =
      true := by decide
  obtain ⟨c, run, checked⟩ := (Option.any_eq_true _ _).mp held
  obtain ⟨newest, row⟩ := of_decide_eq_true checked
  obtain ⟨gateway, here, desired⟩ := (Option.any_eq_true _ _).mp row
  have agrees := consistent id c (reachable_of_play (fun _ _ _ => trivial) backAndForth run) 1 gateway here
  have named := agrees.newest 2 (of_decide_eq_true desired).1
  rw [Console.Names, newest] at named
  cases named

end Samples

end Mailgw.Central
