import Mailgw.Central.Serialise

namespace Mailgw.Central

open Js Json Lists Queue

namespace Database

structure Reordered (db db' : Database) : Prop where
  assignments : db.assignments.Perm db'.assignments
  profiles : db.profiles.Perm db'.profiles
  groups : db.groups.Perm db'.groups
  relays : db.relays.Perm db'.relays
  credentials : db.credentials.Perm db'.credentials

def mine (db : Database) (gatewayId : Int) : List Assignment := db.assignments.filter fun a => a.gatewayId = gatewayId

def assigned (db : Database) (gatewayId : Int) : List Int :=
  ((db.mine gatewayId).filter fun a => a.kind = "relaygroup".toList).filterMap Assignment.relayGroupId

def membersOf (db : Database) (g : RelayGroup) : List Relay := db.relays.filter fun m => m.groupId = some g.id

end Database

variable (h : Host) (gatewayId : Int) (db : Database)

structure Reproducible : Prop where
  stable : ∀ (db₁ db₂ : Database) (b₁ b₂ : GatewayBundle), db.Reordered db₁ → db.Reordered db₂ →
    composeBundle h gatewayId db₁ = some b₁ → composeBundle h gatewayId db₂ = some b₂ → serialiseBundle b₁ = serialiseBundle b₂
  complete : ∀ (db' : Database) (b : GatewayBundle), db.Reordered db' → composeBundle h gatewayId db' = some b →
    ∀ g ∈ db.groups, g.id ∈ db.assigned gatewayId → ∀ name, truthy g.name = some name →
      ∃ relays, b.relays.get name = some relays ∧ (relays.map some).Perm ((db.membersOf g).map (Relay.bundled h))

/-- A bundle can be composed: every password decrypts, and there is an allowlist, or no need of one. -/
structure Composable : Prop where
  relays : ∀ g ∈ db.groups, g.id ∈ db.assigned gatewayId → truthy g.name ≠ none →
    ∀ m ∈ db.membersOf g, (m.bundled h).isSome = true
  allowlist : (∀ a ∈ db.mine gatewayId, isProfileOf "allowlist".toList a = false) ∨
    ∃ a ∈ db.mine gatewayId, isProfileOf "allowlist".toList a = true ∧
      (allowlistOf (profileBody db.profiles a)).isSome = true

/-- Nothing is left to the order of the rows: assignments of one kind lead to one thing, groups of one name
    hold the same relays, and relays of one priority look alike. No group has a name that makes no member. -/
structure Determined : Prop where
  server : ∀ a ∈ db.mine gatewayId, ∀ a' ∈ db.mine gatewayId, isProfileOf "server".toList a = true →
    isProfileOf "server".toList a' = true → profileBody db.profiles a = profileBody db.profiles a'
  routing : ∀ a ∈ db.mine gatewayId, ∀ a' ∈ db.mine gatewayId, isProfileOf "ruleset".toList a = true →
    isProfileOf "ruleset".toList a' = true → profileBody db.profiles a = profileBody db.profiles a'
  allowlist : ∀ a ∈ db.mine gatewayId, ∀ a' ∈ db.mine gatewayId, isProfileOf "allowlist".toList a = true →
    isProfileOf "allowlist".toList a' = true → ∀ v v', allowlistOf (profileBody db.profiles a) = some v →
      allowlistOf (profileBody db.profiles a') = some v' → printed v = printed v'
  auth : ∀ a ∈ db.mine gatewayId, ∀ a' ∈ db.mine gatewayId, isCredentialSet a = true → isCredentialSet a' = true →
    setUsers db.credentials a = setUsers db.credentials a'
  proper : ∀ g ∈ db.groups, g.id ∈ db.assigned gatewayId → truthy g.name ≠ some protoName
  namesakes : ∀ g ∈ db.groups, ∀ g' ∈ db.groups, g.id ∈ db.assigned gatewayId → g'.id ∈ db.assigned gatewayId →
    truthy g.name ≠ none → truthy g.name = truthy g'.name →
      ((db.membersOf g).map (Relay.bundled h)).Perm ((db.membersOf g').map (Relay.bundled h))
  ties : ∀ g ∈ db.groups, g.id ∈ db.assigned gatewayId → truthy g.name ≠ none →
    ∀ m ∈ db.membersOf g, ∀ m' ∈ db.membersOf g, m.priority.getD 0 = m'.priority.getD 0 → m.bundled h = m'.bundled h

section Tables
variable {h : Host} {db : Database} {ids : List Int} {members : List Relay} {t t' : Table Name (List BundleRelay)}

theorem mapM_eq_some {α β : Type} {f : α → Option β} {xs : List α} {ys : List β} :
    xs.mapM f = some ys ↔ xs.map f = ys.map some := by
  induction xs generalizing ys with
  | nil => cases ys <;> simp
  | cons x rest ih =>
    rw [List.mapM_cons]
    cases ys with
    | nil => cases f x <;> cases rest.mapM f <;> simp
    | cons y ys =>
      rw [List.map_cons, List.map_cons, List.cons.injEq, ← ih]
      cases f x <;> cases rest.mapM f <;> simp

theorem mapM_isSome {α β : Type} {f : α → Option β} {xs : List α} :
    (xs.mapM f).isSome = true ↔ ∀ x ∈ xs, (f x).isSome = true := by
  induction xs with
  | nil => simp
  | cons x rest ih =>
    rw [List.mapM_cons, List.forall_mem_cons, ← ih]
    cases f x <;> cases rest.mapM f <;> simp

theorem assign_get (table : Table Name (List BundleRelay)) (relays : List BundleRelay) {name key : Name}
    (proper : key ≠ protoName) : (assign table name relays).get key = if name = key then some relays else table.get key := by
  unfold assign
  split
  · rename_i proto
    rw [if_neg fun same => proper (same.symm.trans proto)]
  · split
    · rename_i same
      rw [same, Table.get_set]
    · rename_i other
      exact Table.get_set_ne (Ne.symm other)

theorem assign_get_proto (table : Table Name (List BundleRelay)) (relays : List BundleRelay) (name : Name) :
    (assign table name relays).get protoName = table.get protoName := by
  unfold assign
  split
  · rfl
  · rename_i other
    exact Table.get_set_ne (Ne.symm other)

theorem addGroup_get {g : RelayGroup} (added : addGroup h members t g = some t') {name : Name} (proper : name ≠ protoName) :
    t'.get name = if truthy g.name = some name then groupRelays h members g else t.get name := by
  unfold addGroup at added
  cases named : truthy g.name with
  | none =>
    rw [named] at added
    cases added
    exact (if_neg (by simp)).symm
  | some name' =>
    rw [named] at added
    obtain ⟨relays, rendered, rfl⟩ := Option.map_eq_some_iff.mp added
    rw [assign_get t relays proper, rendered]
    simp only [Option.some.injEq]

theorem addGroups_get {groups : List RelayGroup} (built : groups.foldlM (addGroup h members) t = some t') {name : Name}
    (proper : name ≠ protoName) :
    t'.get name = ((groups.reverse.find? fun g => truthy g.name = some name).map (groupRelays h members)).getD (t.get name) := by
  induction groups generalizing t with
  | nil =>
    cases built
    rfl
  | cons g rest ih =>
    rw [List.foldlM_cons] at built
    obtain ⟨t₁, added, built⟩ := Option.bind_eq_some_iff.mp built
    rw [ih built, addGroup_get added proper, List.reverse_cons, List.find?_append]
    cases (rest.reverse.find? fun g => truthy g.name = some name) with
    | some g' => rfl
    | none =>
      by_cases named : truthy g.name = some name
      · simp [named]
      · simp [named]

theorem addGroups_get_proto {groups : List RelayGroup} (built : groups.foldlM (addGroup h members) t = some t') :
    t'.get protoName = t.get protoName := by
  induction groups generalizing t with
  | nil =>
    cases built
    rfl
  | cons g rest ih =>
    rw [List.foldlM_cons] at built
    obtain ⟨t₁, added, built⟩ := Option.bind_eq_some_iff.mp built
    rw [ih built]
    unfold addGroup at added
    split at added
    · cases added
      rfl
    · obtain ⟨relays, _, rfl⟩ := Option.map_eq_some_iff.mp added
      exact assign_get_proto t relays _

theorem addGroups_isSome {groups : List RelayGroup} (t : Table Name (List BundleRelay)) :
    (groups.foldlM (addGroup h members) t).isSome = true ↔
      ∀ g ∈ groups, truthy g.name ≠ none → (groupRelays h members g).isSome = true := by
  induction groups generalizing t with
  | nil => simp
  | cons g rest ih =>
    rw [List.foldlM_cons, List.forall_mem_cons]
    cases added : addGroup h members t g with
    | some t₁ =>
      have here : truthy g.name ≠ none → (groupRelays h members g).isSome = true := by
        intro named
        unfold addGroup at added
        split at added
        · contradiction
        · obtain ⟨relays, rendered, _⟩ := Option.map_eq_some_iff.mp added
          rw [rendered]
          rfl
      rw [Option.bind_eq_bind, Option.bind_some, ih t₁]
      exact ⟨fun later => ⟨here, later⟩, And.right⟩
    | none =>
      unfold addGroup at added
      split at added
      · cases added
      · rename_i name named
        have missing : groupRelays h members g = none := Option.map_eq_none_iff.mp added
        simp [missing, named]

theorem filter_members {g : RelayGroup} (db : Database) (known : g.id ∈ ids) :
    (db.relays.filter fun m => m.groupId.any (· ∈ ids)).filter (fun m => m.groupId = some g.id) = db.membersOf g := by
  rw [List.filter_filter]
  apply List.filter_congr
  intro m _
  by_cases own : m.groupId = some g.id
  · simp [own, known]
  · simp [own]

theorem groupRelays_members {g : RelayGroup} (known : g.id ∈ ids) :
    groupRelays h (db.relays.filter fun m => m.groupId.any (· ∈ ids)) g = groupRelays h db.relays g := by
  unfold groupRelays
  rw [filter_members db known]
  rfl

def isNamed (ids : List Int) (name : Name) (g : RelayGroup) : Bool := g.id ∈ ids && truthy g.name = some name

theorem relayTable_get (built : relayTable h db ids = some t) {name : Name} (proper : name ≠ protoName) :
    t.get name = (db.groups.reverse.find? (isNamed ids name)).bind (groupRelays h db.relays) := by
  unfold relayTable at built
  split at built
  · rename_i none_
    cases built
    have nobody : db.groups.reverse.find? (isNamed ids name) = none := by
      apply List.find?_eq_none.mpr
      intro g _
      simp [isNamed, none_]
    rw [nobody]
    rfl
  · rw [addGroups_get built proper, ← List.filter_reverse, List.find?_filter]
    have both : (fun g => decide (decide (g.id ∈ ids) = true ∧ decide (truthy g.name = some name) = true)) =
        isNamed ids name := by
      funext g
      simp [isNamed]
    rw [both]
    cases found : db.groups.reverse.find? (isNamed ids name) with
    | none => rfl
    | some g =>
      have known : g.id ∈ ids := by
        have named := List.find?_some found
        simp only [isNamed, Bool.and_eq_true, decide_eq_true_eq] at named
        exact named.1
      rw [Option.map_some, Option.getD_some, Option.bind_some, groupRelays_members known]

theorem relayTable_get_proto (built : relayTable h db ids = some t) : t.get protoName = none := by
  unfold relayTable at built
  split at built
  · cases built
    rfl
  · rw [addGroups_get_proto built]
    rfl

theorem groupRelays_isSome {g : RelayGroup} :
    (groupRelays h db.relays g).isSome = true ↔ ∀ m ∈ db.membersOf g, (m.bundled h).isSome = true := by
  rw [groupRelays, mapM_isSome]
  constructor
  · intro rendered m member
    exact rendered m (mem_ranked.mpr member)
  · intro rendered m member
    exact rendered m (mem_ranked.mp member)

theorem relayTable_isSome : (relayTable h db ids).isSome = true ↔
    ∀ g ∈ db.groups, g.id ∈ ids → truthy g.name ≠ none → ∀ m ∈ db.membersOf g, (m.bundled h).isSome = true := by
  unfold relayTable
  split
  · rename_i none_
    simp [none_]
  · rw [addGroups_isSome]
    constructor
    · intro rendered g member known named
      have here := rendered g (List.mem_filter.mpr ⟨member, decide_eq_true known⟩) named
      rw [groupRelays_members known] at here
      exact groupRelays_isSome.mp here
    · intro rendered g member named
      obtain ⟨member, known⟩ := List.mem_filter.mp member
      replace known := of_decide_eq_true known
      rw [groupRelays_members known]
      exact groupRelays_isSome.mpr (rendered g member known named)

end Tables

section Composing
variable {h : Host} {gatewayId : Int} {db : Database} {b : GatewayBundle} {kind : Name}

def Database.bodyOf (db : Database) (gatewayId : Int) (kind : Name) : Option Name :=
  ((db.mine gatewayId).find? (isProfileOf kind)).bind (profileBody db.profiles)

theorem profileBody_filter {a : Assignment} {ids : List Int} (profiles : List ConfigProfile)
    (known : ∀ id, a.profileId = some id → id ∈ ids) :
    profileBody (profiles.filter fun p => p.id ∈ ids) a = profileBody profiles a := by
  unfold profileBody
  cases names : a.profileId with
  | none => rfl
  | some id =>
    have named : (fun p : ConfigProfile => decide (decide (p.id ∈ ids) = true ∧ decide (p.id = id) = true)) =
        fun p => decide (p.id = id) := by
      funext p
      by_cases same : p.id = id
      · simp [same, known id names]
      · simp [same]
    simp only [List.find?_filter, named]

theorem bodyOfKind_mine : bodyOfKind (db.mine gatewayId)
    (db.profiles.filter fun p => p.id ∈ (db.mine gatewayId).filterMap Assignment.profileId) kind = db.bodyOf gatewayId kind := by
  unfold bodyOfKind Database.bodyOf
  cases found : (db.mine gatewayId).find? (isProfileOf kind) with
  | none => rfl
  | some a =>
    apply profileBody_filter
    intro id names
    exact List.mem_filterMap.mpr ⟨a, List.mem_of_find?_eq_some found, names⟩

theorem composeBundle_eq_some_iff : composeBundle h gatewayId db = some b ↔
    ∃ relays allowlist, relayTable h db (db.assigned gatewayId) = some relays ∧
      allowlistOf (db.bodyOf gatewayId "allowlist".toList) = some allowlist ∧
      b = { server := db.bodyOf gatewayId "server".toList, routing := db.bodyOf gatewayId "ruleset".toList, allowlist, relays,
            logging := loggingEndpoints h, admin := adminSettings h,
            auth := inboundAuth (db.mine gatewayId) db.credentials } := by
  have body (kind : Name) : bodyOfKind (db.mine gatewayId)
      (db.profiles.filter fun p => p.id ∈ (db.mine gatewayId).filterMap Assignment.profileId) kind = db.bodyOf gatewayId kind :=
    bodyOfKind_mine
  unfold Database.mine at body
  unfold composeBundle
  simp only [body, Option.bind_eq_bind, Option.bind_eq_some_iff, Option.pure_def, Option.some.injEq]
  constructor
  · rintro ⟨relays, built, allowlist, read, rfl⟩
    exact ⟨relays, allowlist, built, read, rfl⟩
  · rintro ⟨relays, allowlist, built, read, rfl⟩
    exact ⟨relays, built, allowlist, read, rfl⟩

theorem composeBundle_isSome : (composeBundle h gatewayId db).isSome = true ↔
    (relayTable h db (db.assigned gatewayId)).isSome = true ∧
      (allowlistOf (db.bodyOf gatewayId "allowlist".toList)).isSome = true := by
  simp only [Option.isSome_iff_exists, composeBundle_eq_some_iff]
  constructor
  · rintro ⟨_, relays, allowlist, built, read, _⟩
    exact ⟨⟨relays, built⟩, ⟨allowlist, read⟩⟩
  · rintro ⟨⟨relays, built⟩, ⟨allowlist, read⟩⟩
    exact ⟨_, relays, allowlist, built, read, rfl⟩

end Composing

end Mailgw.Central
