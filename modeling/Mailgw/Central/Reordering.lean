import Mailgw.Central.Reproducible

namespace Mailgw.Central

open Js Json Lists Queue

variable {h : Host} {gatewayId : Int} {db db' db₁ db₂ : Database} {b b₁ b₂ : GatewayBundle} {kind name : Name}

namespace Database.Reordered

theorem refl (db : Database) : db.Reordered db :=
  ⟨List.Perm.refl _, List.Perm.refl _, List.Perm.refl _, List.Perm.refl _, List.Perm.refl _⟩

variable (same : db.Reordered db')
include same

theorem mine : (db.mine gatewayId).Perm (db'.mine gatewayId) := same.assignments.filter _

theorem assigned : (db.assigned gatewayId).Perm (db'.assigned gatewayId) := (same.mine.filter _).filterMap _

theorem membersOf (g : RelayGroup) : (db.membersOf g).Perm (db'.membersOf g) := same.relays.filter _

theorem isNamed : isNamed (db'.assigned gatewayId) name = isNamed (db.assigned gatewayId) name := by
  funext g
  simp only [Central.isNamed, same.assigned.mem_iff]

theorem profileBody (a : Assignment) : profileBody db'.profiles a = profileBody db.profiles a := by
  unfold Central.profileBody
  cases a.profileId with
  | none => rfl
  | some id => simp only [find_key_perm same.profiles db.profileIds id]

theorem setUsers (a : Assignment) : setUsers db'.credentials a = setUsers db.credentials a := by
  unfold Central.setUsers
  cases a.credentialSetId with
  | none => rfl
  | some setId =>
    have rows : (db.credentials.filter fun c => c.setId = setId).Perm (db'.credentials.filter fun c => c.setId = setId) :=
      same.credentials.filter _
    have listed := map_ranked_perm (f := fun c => units c.username) rows (fun c => (c.username, c.hash)) fun c here c' there alike => by
      obtain ⟨member, ours⟩ := List.mem_filter.mp here
      obtain ⟨member', theirs⟩ := List.mem_filter.mp there
      have set_ : c.setId = c'.setId := (of_decide_eq_true ours).trans (of_decide_eq_true theirs).symm
      have user : c.username = c'.username := units_injective alike
      rw [List.inj_on_of_nodup_map db.usernames member member' (Prod.ext set_ user)]
    by_cases nothing : (db.credentials.filter fun c => c.setId = setId) = []
    · have nothing' := (nothing ▸ rows).nil_eq.symm
      simp only [nothing, nothing']
    · have something : (db'.credentials.filter fun c => c.setId = setId) ≠ [] := fun empty => nothing (empty ▸ rows).eq_nil
      simp only [if_neg nothing, if_neg something, listed]

theorem bodyOf (alike : ∀ a ∈ db.mine gatewayId, ∀ a' ∈ db.mine gatewayId, isProfileOf kind a = true →
    isProfileOf kind a' = true → Central.profileBody db.profiles a = Central.profileBody db.profiles a') :
    db'.bodyOf gatewayId kind = db.bodyOf gatewayId kind := by
  unfold Database.bodyOf
  rw [funext same.profileBody]
  exact (bind_find_perm same.mine (isProfileOf kind) _ alike).symm

theorem inboundAuth (alike : ∀ a ∈ db.mine gatewayId, ∀ a' ∈ db.mine gatewayId, isCredentialSet a = true →
    isCredentialSet a' = true → Central.setUsers db.credentials a = Central.setUsers db.credentials a') :
    inboundAuth (db'.mine gatewayId) db'.credentials = inboundAuth (db.mine gatewayId) db.credentials := by
  unfold Central.inboundAuth
  rw [funext same.setUsers]
  exact (bind_find_perm same.mine isCredentialSet _ alike).symm

end Database.Reordered

theorem Relay.bundled_priority {m : Relay} {r : BundleRelay} (rendered : m.bundled h = some r) : r.priority = m.priority.getD 0 := by
  unfold Relay.bundled at rendered
  dsimp only at rendered
  split at rendered
  · cases rendered
    rfl
  · obtain ⟨authPass, _, done⟩ := Option.bind_eq_some_iff.mp rendered
    cases done
    rfl

def bundledRank (r : Option BundleRelay) : Int := (r.map fun r => r.priority.toInt).getD 0

theorem bundledRank_bundled {m : Relay} (rendered : (m.bundled h).isSome = true) : bundledRank (m.bundled h) = (m.priority.getD 0).toInt := by
  obtain ⟨r, rendered⟩ := Option.isSome_iff_exists.mp rendered
  rw [rendered, ← Relay.bundled_priority rendered]
  rfl

theorem pairwise_bundled {members : List Relay} (rendered : ∀ m ∈ members, (m.bundled h).isSome = true) :
    ((ranked (fun m => (m.priority.getD 0).toInt) members).map (Relay.bundled h)).Pairwise fun r r' => bundledRank r ≤ bundledRank r' := by
  apply List.pairwise_map.mpr
  apply (ranked_pairwise (fun m : Relay => (m.priority.getD 0).toInt) members).imp_of_mem
  intro m m' member member' below
  rw [bundledRank_bundled (rendered m (mem_ranked.mp member)), bundledRank_bundled (rendered m' (mem_ranked.mp member'))]
  exact below

theorem groupRelays_perm {members members' : List Relay} {g g' : RelayGroup} {relays : List BundleRelay}
    (listed : groupRelays h members g = some relays)
    (perm : ((members.filter fun m => m.groupId = some g.id).map (Relay.bundled h)).Perm
      ((members'.filter fun m => m.groupId = some g'.id).map (Relay.bundled h)))
    (ties : ∀ m ∈ members.filter fun m => m.groupId = some g.id, ∀ m' ∈ members.filter fun m => m.groupId = some g.id,
      m.priority.getD 0 = m'.priority.getD 0 → m.bundled h = m'.bundled h) :
    groupRelays h members' g' = some relays := by
  have rendered : ∀ m ∈ members.filter fun m => m.groupId = some g.id, (m.bundled h).isSome = true := by
    intro m member
    exact mapM_isSome.mp (Option.isSome_of_eq_some listed) m (mem_ranked.mpr member)
  have rendered' : ∀ m ∈ members'.filter fun m => m.groupId = some g'.id, (m.bundled h).isSome = true := by
    intro m member
    obtain ⟨m', member', same⟩ := List.mem_map.mp (perm.mem_iff.mpr (List.mem_map_of_mem member))
    rw [← same]
    exact rendered m' member'
  unfold groupRelays at listed ⊢
  rw [mapM_eq_some] at listed ⊢
  rw [← listed]
  refine List.Perm.eq_of_pairwise ?_ (pairwise_bundled rendered') (pairwise_bundled rendered)
    ((((ranked_perm _ _).map _).trans perm.symm).trans ((ranked_perm _ _).map _).symm)
  intro r r' here there below above
  obtain ⟨m, member, rfl⟩ := List.mem_map.mp (perm.mem_iff.mpr (((ranked_perm _ _).map _).mem_iff.mp here))
  obtain ⟨m', member', rfl⟩ := List.mem_map.mp there
  replace member' := mem_ranked.mp member'
  rw [bundledRank_bundled (rendered m member), bundledRank_bundled (rendered m' member')] at below above
  exact ties m member m' member' (Int32.toInt_inj.mp (le_antisymm below above))

theorem find_isNamed_some {ids : List Int} {g : RelayGroup} {groups : List RelayGroup}
    (found : groups.reverse.find? (isNamed ids name) = some g) : g ∈ groups ∧ g.id ∈ ids ∧ truthy g.name = some name := by
  have member := List.mem_reverse.mp (List.mem_of_find?_eq_some found)
  have named := List.find?_some found
  simp only [isNamed, Bool.and_eq_true, decide_eq_true_eq] at named
  exact ⟨member, named⟩

/-- A group that is rendered is rendered the same from every order, and so are those of its name. -/
theorem Determined.listed (determined : Determined h gatewayId db) (same₁ : db.Reordered db₁) (same₂ : db.Reordered db₂)
    {g₁ g₂ : RelayGroup} {relays : List BundleRelay} (member₁ : g₁ ∈ db.groups) (member₂ : g₂ ∈ db.groups)
    (known₁ : g₁.id ∈ db.assigned gatewayId) (known₂ : g₂.id ∈ db.assigned gatewayId) (named₁ : truthy g₁.name = some name)
    (named₂ : truthy g₂.name = some name) (rendered : groupRelays h db₁.relays g₁ = some relays) :
    groupRelays h db₂.relays g₂ = some relays := by
  have named : truthy g₁.name ≠ none := by simp [named₁]
  apply groupRelays_perm rendered
  · have here := ((same₁.membersOf g₁).map (Relay.bundled h)).symm
    have there := (same₂.membersOf g₂).map (Relay.bundled h)
    have namesakes := determined.namesakes g₁ member₁ g₂ member₂ known₁ known₂ named (named₁.trans named₂.symm)
    exact (here.trans namesakes).trans there
  · intro m here m' there
    have ours := (same₁.membersOf g₁).mem_iff.mpr here
    have theirs := (same₁.membersOf g₁).mem_iff.mpr there
    exact determined.ties g₁ member₁ known₁ named m ours m' theirs

theorem Determined.relays (determined : Determined h gatewayId db) (same₁ : db.Reordered db₁) (same₂ : db.Reordered db₂)
    {t₁ t₂ : Table Name (List BundleRelay)} (built₁ : relayTable h db₁ (db₁.assigned gatewayId) = some t₁)
    (built₂ : relayTable h db₂ (db₂.assigned gatewayId) = some t₂) (name : Name) : t₁.get name = t₂.get name := by
  by_cases proper : name = protoName
  · rw [proper, relayTable_get_proto built₁, relayTable_get_proto built₂]
  · rw [relayTable_get built₁ proper, relayTable_get built₂ proper, same₁.isNamed, same₂.isNamed]
    have same : db₁.groups.reverse.Perm db₂.groups.reverse :=
      ((db₁.groups.reverse_perm.trans same₁.groups.symm).trans same₂.groups).trans db₂.groups.reverse_perm.symm
    cases found₁ : db₁.groups.reverse.find? (isNamed (db.assigned gatewayId) name) with
    | none =>
      have nobody : db₂.groups.reverse.find? (isNamed (db.assigned gatewayId) name) = none := by
        apply List.find?_eq_none.mpr
        intro g member
        exact List.find?_eq_none.mp found₁ g (same.mem_iff.mpr member)
      rw [nobody]
      rfl
    | some g₁ =>
      cases found₂ : db₂.groups.reverse.find? (isNamed (db.assigned gatewayId) name) with
      | none =>
        have there := same.subset (List.mem_of_find?_eq_some found₁)
        exact absurd (List.find?_some found₁) (List.find?_eq_none.mp found₂ g₁ there)
      | some g₂ =>
        obtain ⟨member₁, known₁, named₁⟩ := find_isNamed_some found₁
        obtain ⟨member₂, known₂, named₂⟩ := find_isNamed_some found₂
        have named : truthy g₁.name ≠ none := by simp [named₁]
        have whole := relayTable_isSome.mp (Option.isSome_of_eq_some built₁) g₁ member₁ (same₁.assigned.mem_iff.mp known₁) named
        obtain ⟨relays, rendered⟩ := Option.isSome_iff_exists.mp (groupRelays_isSome.mpr whole)
        have other := determined.listed same₁ same₂ (same₁.groups.mem_iff.mpr member₁) (same₂.groups.mem_iff.mpr member₂)
          known₁ known₂ named₁ named₂ rendered
        rw [Option.bind_some, Option.bind_some, rendered, other]

theorem Determined.allowlists (determined : Determined h gatewayId db) (same₁ : db.Reordered db₁) (same₂ : db.Reordered db₂)
    {v₁ v₂ : Value} (read₁ : allowlistOf (db₁.bodyOf gatewayId "allowlist".toList) = some v₁)
    (read₂ : allowlistOf (db₂.bodyOf gatewayId "allowlist".toList) = some v₂) : printed v₁ = printed v₂ := by
  unfold Database.bodyOf at read₁ read₂
  rw [funext same₁.profileBody] at read₁
  rw [funext same₂.profileBody] at read₂
  cases found₁ : (db₁.mine gatewayId).find? (isProfileOf "allowlist".toList) with
  | none =>
    have nobody : (db₂.mine gatewayId).find? (isProfileOf "allowlist".toList) = none := by
      apply List.find?_eq_none.mpr
      intro a member
      exact List.find?_eq_none.mp found₁ a ((same₁.mine.symm.trans same₂.mine).mem_iff.mpr member)
    rw [found₁] at read₁
    rw [nobody] at read₂
    rw [Option.some.inj (read₁.symm.trans read₂)]
  | some a₁ =>
    have member₁ := List.mem_of_find?_eq_some found₁
    cases found₂ : (db₂.mine gatewayId).find? (isProfileOf "allowlist".toList) with
    | none =>
      have there := (same₁.mine.symm.trans same₂.mine).subset member₁
      exact absurd (List.find?_some found₁) (List.find?_eq_none.mp found₂ a₁ there)
    | some a₂ =>
      have member₂ := List.mem_of_find?_eq_some found₂
      rw [found₁] at read₁
      rw [found₂] at read₂
      exact determined.allowlist a₁ (same₁.mine.mem_iff.mpr member₁) a₂ (same₂.mine.mem_iff.mpr member₂)
        (List.find?_some found₁) (List.find?_some found₂) v₁ v₂ read₁ read₂

theorem Determined.complete (determined : Determined h gatewayId db) (same : db.Reordered db')
    {t : Table Name (List BundleRelay)} (built : relayTable h db' (db'.assigned gatewayId) = some t) {g : RelayGroup}
    (member : g ∈ db.groups) (known : g.id ∈ db.assigned gatewayId) (named : truthy g.name = some name) :
    ∃ relays, t.get name = some relays ∧ (relays.map some).Perm ((db.membersOf g).map (Relay.bundled h)) := by
  have proper : name ≠ protoName := fun proto => determined.proper g member known (named.trans (congrArg some proto))
  have something : truthy g.name ≠ none := by simp [named]
  have whole := relayTable_isSome.mp (Option.isSome_of_eq_some built) g (same.groups.mem_iff.mp member)
    (same.assigned.mem_iff.mp known) something
  obtain ⟨relays, rendered⟩ := Option.isSome_iff_exists.mp (groupRelays_isSome.mpr whole)
  refine ⟨relays, ?_, ?_⟩
  · rw [relayTable_get built proper, same.isNamed]
    cases found : db'.groups.reverse.find? (isNamed (db.assigned gatewayId) name) with
    | none =>
      have there := List.mem_reverse.mpr (same.groups.mem_iff.mp member)
      have missed := List.find?_eq_none.mp found g there
      simp [isNamed, known, named] at missed
    | some g' =>
      obtain ⟨member', known', named'⟩ := find_isNamed_some found
      exact determined.listed same same member (same.groups.mem_iff.mpr member') known known' named named' rendered
  · rw [← mapM_eq_some.mp rendered]
    exact ((ranked_perm _ _).map _).trans ((same.membersOf g).map _).symm

theorem Determined.reproducible (determined : Determined h gatewayId db) : Reproducible h gatewayId db where
  stable := by
    intro db₁ db₂ b₁ b₂ same₁ same₂ composed₁ composed₂
    obtain ⟨t₁, v₁, built₁, read₁, rfl⟩ := composeBundle_eq_some_iff.mp composed₁
    obtain ⟨t₂, v₂, built₂, read₂, rfl⟩ := composeBundle_eq_some_iff.mp composed₂
    apply serialise_congr
    · exact (same₁.bodyOf determined.server).trans (same₂.bodyOf determined.server).symm
    · exact (same₁.bodyOf determined.routing).trans (same₂.bodyOf determined.routing).symm
    · exact determined.allowlists same₁ same₂ read₁ read₂
    · exact determined.relays same₁ same₂ built₁ built₂
    · rfl
    · rfl
    · exact (same₁.inboundAuth determined.auth).trans (same₂.inboundAuth determined.auth).symm
  complete := by
    intro db' b same composed g member known name named
    obtain ⟨t, v, built, read, rfl⟩ := composeBundle_eq_some_iff.mp composed
    exact determined.complete same built member known named

theorem composable_of_composed (same : db.Reordered db') (composed : (composeBundle h gatewayId db').isSome = true) :
    Composable h gatewayId db := by
  obtain ⟨built, read⟩ := composeBundle_isSome.mp composed
  constructor
  · intro g member known named m here
    exact relayTable_isSome.mp built g (same.groups.mem_iff.mp member) (same.assigned.mem_iff.mp known) named m
      ((same.membersOf g).mem_iff.mp here)
  · unfold Database.bodyOf at read
    rw [funext same.profileBody] at read
    cases found : (db'.mine gatewayId).find? (isProfileOf "allowlist".toList) with
    | none =>
      left
      intro a member
      exact Bool.eq_false_iff.mpr (List.find?_eq_none.mp found a (same.mine.mem_iff.mp member))
    | some a =>
      right
      rw [found] at read
      exact ⟨a, same.mine.mem_iff.mpr (List.mem_of_find?_eq_some found), List.find?_some found, read⟩

/-- Where no order of the rows makes a bundle, there are no two bundles to tell apart. -/
theorem reproducible_of_not_composable (broken : ¬ Composable h gatewayId db) : Reproducible h gatewayId db where
  stable := by
    intro db₁ db₂ b₁ b₂ same₁ same₂ composed₁ composed₂
    exact absurd (composable_of_composed same₁ (Option.isSome_of_eq_some composed₁)) broken
  complete := by
    intro db' b same composed
    exact absurd (composable_of_composed same (Option.isSome_of_eq_some composed)) broken

end Mailgw.Central
