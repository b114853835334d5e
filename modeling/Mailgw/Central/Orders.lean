import Mailgw.Central.Reordering

namespace Mailgw.Central

open Js Json Lists Queue

variable {h : Host} {gatewayId : Int} {db db' : Database} {b : GatewayBundle} {kind name : Name}

def Database.arranged (db : Database) (assignments : List Assignment) (groups : List RelayGroup) (relays : List Relay)
    (perm : db.groups.Perm groups) : Database :=
  { db with assignments, groups, relays, groupIds := ((perm.map _).nodup_iff).mp db.groupIds }

theorem Database.arranged_reordered {assignments : List Assignment} {groups : List RelayGroup} {relays : List Relay}
    (first : db.assignments.Perm assignments) (second : db.groups.Perm groups) (third : db.relays.Perm relays) :
    db.Reordered (db.arranged assignments groups relays second) :=
  ⟨first, List.Perm.refl _, second, third, List.Perm.refl _⟩

def Readable (gatewayId : Int) (db : Database) (assignments : List Assignment) : Prop :=
  (allowlistOf (((assignments.filter fun a => a.gatewayId = gatewayId).find? (isProfileOf "allowlist".toList)).bind
    (profileBody db.profiles))).isSome = true

theorem find_head {α : Type} {xs : List α} {x : α} {wanted : α → Bool} (first : xs.head? = some x) (ok : wanted x = true) :
    xs.find? wanted = some x := by
  cases xs with
  | nil => cases first
  | cons y rest =>
    cases first
    exact List.find?_cons_of_pos ok

theorem mem_mine {a : Assignment} : a ∈ db.mine gatewayId ↔ a ∈ db.assignments ∧ a.gatewayId = gatewayId := by
  simp [Database.mine]

theorem Composable.leading (composable : Composable h gatewayId db) {a : Assignment} (member : a ∈ db.mine gatewayId)
    (readable : isProfileOf "allowlist".toList a = true → (allowlistOf (profileBody db.profiles a)).isSome = true) :
    ∃ assignments, db.assignments.Perm assignments ∧ (assignments.filter fun a => a.gatewayId = gatewayId).head? = some a ∧
      Readable gatewayId db assignments := by
  obtain ⟨here, own⟩ := mem_mine.mp member
  have front := List.perm_cons_erase here
  by_cases allows : isProfileOf "allowlist".toList a = true
  · have first : ((a :: db.assignments.erase a).filter fun a => a.gatewayId = gatewayId).head? = some a := by simp [own]
    refine ⟨a :: db.assignments.erase a, front, first, ?_⟩
    unfold Readable
    rw [find_head first allows]
    exact readable allows
  · cases composable.allowlist with
    | inl nobody =>
      refine ⟨a :: db.assignments.erase a, front, by simp [own], ?_⟩
      have none_ : ((a :: db.assignments.erase a).filter fun a => a.gatewayId = gatewayId).find?
          (isProfileOf "allowlist".toList) = none := by
        apply List.find?_eq_none.mpr
        intro a' there
        have mine := (front.filter _).mem_iff.mpr there
        exact Bool.eq_false_iff.mp (nobody a' mine)
      unfold Readable
      rw [none_]
      rfl
    | inr good =>
      obtain ⟨a', member', allows', read⟩ := good
      obtain ⟨there, own'⟩ := mem_mine.mp member'
      have other : a' ≠ a := fun same => allows (same ▸ allows')
      have next := List.perm_cons_erase ((List.mem_erase_of_ne other).mpr there)
      have kept (rest : List Assignment) : ((a :: a' :: rest).filter fun a => a.gatewayId = gatewayId) =
          a :: a' :: rest.filter fun a => a.gatewayId = gatewayId := by simp [own, own']
      refine ⟨a :: a' :: (db.assignments.erase a).erase a', front.trans (next.cons a), by rw [kept, List.head?_cons], ?_⟩
      unfold Readable
      rw [kept, List.find?_cons_of_neg allows, List.find?_cons_of_pos allows']
      exact read

theorem Composable.ordered (composable : Composable h gatewayId db) :
    ∃ assignments, db.assignments.Perm assignments ∧ Readable gatewayId db assignments := by
  cases composable.allowlist with
  | inl nobody =>
    refine ⟨db.assignments, List.Perm.refl _, ?_⟩
    have none_ : (db.mine gatewayId).find? (isProfileOf "allowlist".toList) = none :=
      List.find?_eq_none.mpr fun a member => Bool.eq_false_iff.mp (nobody a member)
    unfold Readable
    unfold Database.mine at none_
    rw [none_]
    rfl
  | inr good =>
    obtain ⟨a, member, _, read⟩ := good
    obtain ⟨assignments, perm, _, readable⟩ := composable.leading member fun _ => read
    exact ⟨assignments, perm, readable⟩

theorem Composable.composed (composable : Composable h gatewayId db) {assignments : List Assignment} {groups : List RelayGroup}
    {relays : List Relay} (first : db.assignments.Perm assignments) (second : db.groups.Perm groups)
    (third : db.relays.Perm relays) (readable : Readable gatewayId db assignments) :
    ∃ b, composeBundle h gatewayId (db.arranged assignments groups relays second) = some b := by
  have same := Database.arranged_reordered first second third
  apply Option.isSome_iff_exists.mp
  apply composeBundle_isSome.mpr
  refine ⟨?_, readable⟩
  apply relayTable_isSome.mpr
  intro g member known named m here
  exact composable.relays g (same.groups.mem_iff.mpr member) (same.assigned.mem_iff.mpr known) named m
    ((same.membersOf g).mem_iff.mpr here)

theorem Reproducible.leading (reproducible : Reproducible h gatewayId db) (composable : Composable h gatewayId db)
    {a a' : Assignment} (member : a ∈ db.mine gatewayId) (member' : a' ∈ db.mine gatewayId)
    (readable : isProfileOf "allowlist".toList a = true → (allowlistOf (profileBody db.profiles a)).isSome = true)
    (readable' : isProfileOf "allowlist".toList a' = true → (allowlistOf (profileBody db.profiles a')).isSome = true) :
    ∃ db₁ db₂ b₁ b₂, db.Reordered db₁ ∧ db.Reordered db₂ ∧ (db₁.mine gatewayId).head? = some a ∧
      (db₂.mine gatewayId).head? = some a' ∧ composeBundle h gatewayId db₁ = some b₁ ∧
      composeBundle h gatewayId db₂ = some b₂ ∧ serialiseBundle b₁ = serialiseBundle b₂ := by
  obtain ⟨assignments, perm, first, read⟩ := composable.leading member readable
  obtain ⟨assignments', perm', first', read'⟩ := composable.leading member' readable'
  have still := List.Perm.refl db.groups
  obtain ⟨b₁, composed₁⟩ := composable.composed perm still (List.Perm.refl db.relays) read
  obtain ⟨b₂, composed₂⟩ := composable.composed perm' still (List.Perm.refl db.relays) read'
  have same₁ := Database.arranged_reordered perm still (List.Perm.refl db.relays)
  have same₂ := Database.arranged_reordered perm' still (List.Perm.refl db.relays)
  exact ⟨_, _, b₁, b₂, same₁, same₂, first, first', composed₁, composed₂,
    reproducible.stable _ _ b₁ b₂ same₁ same₂ composed₁ composed₂⟩

theorem Reproducible.bodies (reproducible : Reproducible h gatewayId db) (composable : Composable h gatewayId db)
    (other : kind ≠ "allowlist".toList)
    (seen : ∀ (db₁ db₂ : Database) (b₁ b₂ : GatewayBundle), composeBundle h gatewayId db₁ = some b₁ →
      composeBundle h gatewayId db₂ = some b₂ → serialiseBundle b₁ = serialiseBundle b₂ →
        db₁.bodyOf gatewayId kind = db₂.bodyOf gatewayId kind)
    {a a' : Assignment} (member : a ∈ db.mine gatewayId) (member' : a' ∈ db.mine gatewayId)
    (wanted : isProfileOf kind a = true) (wanted' : isProfileOf kind a' = true) :
    profileBody db.profiles a = profileBody db.profiles a' := by
  have never (a : Assignment) (wanted : isProfileOf kind a = true) : isProfileOf "allowlist".toList a ≠ true := by
    intro allows
    simp only [isProfileOf, Bool.and_eq_true, decide_eq_true_eq] at wanted allows
    exact other (wanted.1.symm.trans allows.1)
  obtain ⟨db₁, db₂, b₁, b₂, same₁, same₂, first, first', composed₁, composed₂, printed⟩ :=
    reproducible.leading composable member member' (absurd · (never a wanted)) (absurd · (never a' wanted'))
  have body := seen db₁ db₂ b₁ b₂ composed₁ composed₂ printed
  unfold Database.bodyOf at body
  rw [find_head first wanted, find_head first' wanted', funext same₁.profileBody, funext same₂.profileBody] at body
  exact body

theorem Reproducible.allowlists (reproducible : Reproducible h gatewayId db) (composable : Composable h gatewayId db)
    {a a' : Assignment} (member : a ∈ db.mine gatewayId) (member' : a' ∈ db.mine gatewayId)
    (wanted : isProfileOf "allowlist".toList a = true) (wanted' : isProfileOf "allowlist".toList a' = true) {v v' : Value}
    (read : allowlistOf (profileBody db.profiles a) = some v) (read' : allowlistOf (profileBody db.profiles a') = some v') :
    printed v = printed v' := by
  obtain ⟨db₁, db₂, b₁, b₂, same₁, same₂, first, first', composed₁, composed₂, printed⟩ :=
    reproducible.leading composable member member' (fun _ => Option.isSome_of_eq_some read)
      (fun _ => Option.isSome_of_eq_some read')
  obtain ⟨_, _, lists, _, _⟩ := of_serialise printed
  obtain ⟨t₁, v₁, _, read₁, rfl⟩ := composeBundle_eq_some_iff.mp composed₁
  obtain ⟨t₂, v₂, _, read₂, rfl⟩ := composeBundle_eq_some_iff.mp composed₂
  unfold Database.bodyOf at read₁ read₂
  rw [find_head first wanted, funext same₁.profileBody, Option.bind_some, read] at read₁
  rw [find_head first' wanted', funext same₂.profileBody, Option.bind_some, read'] at read₂
  cases read₁
  cases read₂
  exact lists

theorem Reproducible.auth (reproducible : Reproducible h gatewayId db) (composable : Composable h gatewayId db)
    {a a' : Assignment} (member : a ∈ db.mine gatewayId) (member' : a' ∈ db.mine gatewayId)
    (wanted : isCredentialSet a = true) (wanted' : isCredentialSet a' = true) :
    setUsers db.credentials a = setUsers db.credentials a' := by
  have never (a : Assignment) (wanted : isCredentialSet a = true) : isProfileOf "allowlist".toList a ≠ true := by
    intro allows
    simp only [isProfileOf, isCredentialSet, Bool.and_eq_true, decide_eq_true_eq] at wanted allows
    exact absurd (wanted.1.symm.trans allows.1) (by decide)
  obtain ⟨db₁, db₂, b₁, b₂, same₁, same₂, first, first', composed₁, composed₂, printed⟩ :=
    reproducible.leading composable member member' (absurd · (never a wanted)) (absurd · (never a' wanted'))
  obtain ⟨_, _, _, _, users⟩ := of_serialise printed
  obtain ⟨t₁, v₁, _, _, rfl⟩ := composeBundle_eq_some_iff.mp composed₁
  obtain ⟨t₂, v₂, _, _, rfl⟩ := composeBundle_eq_some_iff.mp composed₂
  simp only [inboundAuth] at users
  rw [find_head first wanted, find_head first' wanted', funext same₁.setUsers, funext same₂.setUsers] at users
  exact users

theorem Composable.bundle (composable : Composable h gatewayId db) :
    ∃ db' b, db.Reordered db' ∧ composeBundle h gatewayId db' = some b := by
  obtain ⟨assignments, perm, readable⟩ := composable.ordered
  obtain ⟨b, composed⟩ := composable.composed perm (List.Perm.refl _) (List.Perm.refl _) readable
  exact ⟨_, b, Database.arranged_reordered perm (List.Perm.refl _) (List.Perm.refl _), composed⟩

theorem Reproducible.proper (reproducible : Reproducible h gatewayId db) (composable : Composable h gatewayId db)
    {g : RelayGroup} (member : g ∈ db.groups) (known : g.id ∈ db.assigned gatewayId) : truthy g.name ≠ some protoName := by
  intro proto
  obtain ⟨db', b, same, composed⟩ := composable.bundle
  obtain ⟨relays, held, _⟩ := reproducible.complete db' b same composed g member known protoName proto
  obtain ⟨t, v, built, _, rfl⟩ := composeBundle_eq_some_iff.mp composed
  have nothing := relayTable_get_proto built
  rw [held] at nothing
  cases nothing

theorem Reproducible.namesakes (reproducible : Reproducible h gatewayId db) (composable : Composable h gatewayId db)
    {g g' : RelayGroup} (member : g ∈ db.groups) (member' : g' ∈ db.groups) (known : g.id ∈ db.assigned gatewayId)
    (known' : g'.id ∈ db.assigned gatewayId) (named : truthy g.name = some name) (named' : truthy g'.name = some name) :
    ((db.membersOf g).map (Relay.bundled h)).Perm ((db.membersOf g').map (Relay.bundled h)) := by
  obtain ⟨db', b, same, composed⟩ := composable.bundle
  obtain ⟨relays, held, listed⟩ := reproducible.complete db' b same composed g member known name named
  obtain ⟨relays', held', listed'⟩ := reproducible.complete db' b same composed g' member' known' name named'
  cases held.symm.trans held'
  exact listed.symm.trans listed'

theorem relayTable_get_last {ids : List Int} {t : Table Name (List BundleRelay)} {groups : List RelayGroup} {g : RelayGroup}
    (built : relayTable h db ids = some t) (last : db.groups = groups ++ [g]) (known : g.id ∈ ids)
    (named : truthy g.name = some name) (proper : name ≠ protoName) : t.get name = groupRelays h db.relays g := by
  have found : (g :: groups.reverse).find? (isNamed ids name) = some g := List.find?_cons_of_pos (by simp [isNamed, known, named])
  rw [relayTable_get built proper, last, List.reverse_append, List.reverse_singleton, List.singleton_append, found]
  rfl

theorem filter_listed {members : List Relay} {g : RelayGroup} {relays : List BundleRelay} {k : Int}
    (listed : groupRelays h members g = some relays) :
    ((members.filter fun m => m.groupId = some g.id).filter fun m => (m.priority.getD 0).toInt = k).map (Relay.bundled h) =
      (relays.map some).filter fun r => bundledRank r = k := by
  have rendered := mapM_isSome.mp (Option.isSome_of_eq_some listed)
  rw [← mapM_eq_some.mp listed, List.filter_map, ← filter_ranked (fun m : Relay => (m.priority.getD 0).toInt)]
  apply congrArg
  apply List.filter_congr
  intro m member
  exact decide_eq_decide.mpr (by rw [bundledRank_bundled (rendered m member)])

theorem Reproducible.ties (reproducible : Reproducible h gatewayId db) (composable : Composable h gatewayId db)
    {g : RelayGroup} (member : g ∈ db.groups) (known : g.id ∈ db.assigned gatewayId) (named : truthy g.name = some name)
    {m m' : Relay} (here : m ∈ db.membersOf g) (there : m' ∈ db.membersOf g)
    (level : m.priority.getD 0 = m'.priority.getD 0) : m.bundled h = m'.bundled h := by
  by_cases same : m = m'
  · rw [same]
  obtain ⟨relay, ours⟩ := List.mem_filter.mp here
  obtain ⟨relay', theirs⟩ := List.mem_filter.mp there
  have proper : name ≠ protoName := fun proto =>
    reproducible.proper composable member known (named.trans (congrArg some proto))
  have last : db.groups.Perm (db.groups.erase g ++ [g]) :=
    (List.perm_cons_erase member).trans (List.perm_append_singleton g _).symm
  have first := List.perm_cons_erase relay
  have second := first.trans ((List.perm_cons_erase ((List.mem_erase_of_ne (Ne.symm same)).mpr relay')).cons m)
  have third := second.trans (List.Perm.swap m' m _)
  obtain ⟨assignments, perm, readable⟩ := composable.ordered
  obtain ⟨b₁, composed₁⟩ := composable.composed perm last second readable
  obtain ⟨b₂, composed₂⟩ := composable.composed perm last third readable
  have same₁ := Database.arranged_reordered perm last second
  have same₂ := Database.arranged_reordered perm last third
  obtain ⟨_, _, _, relays, _⟩ := of_serialise (reproducible.stable _ _ b₁ b₂ same₁ same₂ composed₁ composed₂)
  obtain ⟨rs, held, _⟩ := reproducible.complete _ b₁ same₁ composed₁ g member known name named
  have held' := (relays name).symm.trans held
  obtain ⟨t₁, v₁, built₁, _, rfl⟩ := composeBundle_eq_some_iff.mp composed₁
  obtain ⟨t₂, v₂, built₂, _, rfl⟩ := composeBundle_eq_some_iff.mp composed₂
  have listed := (relayTable_get_last built₁ rfl (same₁.assigned.mem_iff.mp known) named proper).symm.trans held
  have listed' := (relayTable_get_last built₂ rfl (same₂.assigned.mem_iff.mp known) named proper).symm.trans held'
  have seen := (filter_listed (k := (m.priority.getD 0).toInt) listed).trans (filter_listed listed').symm
  have heads := congrArg List.head? seen
  simpa [Database.arranged, of_decide_eq_true ours, of_decide_eq_true theirs, level] using heads

theorem Reproducible.determined (reproducible : Reproducible h gatewayId db) (composable : Composable h gatewayId db) :
    Determined h gatewayId db where
  server := by
    intro a member a' member' wanted wanted'
    apply reproducible.bodies composable (by decide) _ member member' wanted wanted'
    intro db₁ db₂ b₁ b₂ composed₁ composed₂ printed
    obtain ⟨server, _⟩ := of_serialise printed
    obtain ⟨_, _, _, _, rfl⟩ := composeBundle_eq_some_iff.mp composed₁
    obtain ⟨_, _, _, _, rfl⟩ := composeBundle_eq_some_iff.mp composed₂
    exact server
  routing := by
    intro a member a' member' wanted wanted'
    apply reproducible.bodies composable (by decide) _ member member' wanted wanted'
    intro db₁ db₂ b₁ b₂ composed₁ composed₂ printed
    obtain ⟨_, routing, _⟩ := of_serialise printed
    obtain ⟨_, _, _, _, rfl⟩ := composeBundle_eq_some_iff.mp composed₁
    obtain ⟨_, _, _, _, rfl⟩ := composeBundle_eq_some_iff.mp composed₂
    exact routing
  allowlist := by
    intro a member a' member' wanted wanted' v v' read read'
    exact reproducible.allowlists composable member member' wanted wanted' read read'
  auth := by
    intro a member a' member' wanted wanted'
    exact reproducible.auth composable member member' wanted wanted'
  proper := by
    intro g member known
    exact reproducible.proper composable member known
  namesakes := by
    intro g member g' member' known known' something named
    obtain ⟨name, here⟩ := Option.ne_none_iff_exists'.mp something
    exact reproducible.namesakes composable member member' known known' here (named.symm.trans here)
  ties := by
    intro g member known something m here m' there level
    obtain ⟨name, named⟩ := Option.ne_none_iff_exists'.mp something
    exact reproducible.ties composable member known named here there level

/-- A configuration that composes at all makes one bundle, whole, exactly when nothing is left to the order
    of its rows. -/
theorem reproducible_iff (h : Host) (gatewayId : Int) (db : Database) :
    Reproducible h gatewayId db ↔ (Composable h gatewayId db → Determined h gatewayId db) := by
  constructor
  · intro reproducible composable
    exact reproducible.determined composable
  · intro determined
    by_cases composable : Composable h gatewayId db
    · exact (determined composable).reproducible
    · exact reproducible_of_not_composable composable

def outGroup : RelayGroup := { id := 1, name := some "out".toList }

def outRelay (id : Int) (host : Name) : Relay := { id, groupId := some 1, host := some host }

def twins : Database where
  assignments := [{ gatewayId := 1, kind := "relaygroup".toList, relayGroupId := some 1 }]
  groups := [outGroup]
  relays := [outRelay 1 "a".toList, outRelay 2 "b".toList]
  profileIds := by simp
  groupIds := by simp
  usernames := by simp

def plainHost : Host where
  decrypt := some

/-- Relays of one priority stay in the order of the rows. -/
theorem twins_not_reproducible : ¬ ∀ h gatewayId db, Reproducible h gatewayId db := by
  intro always
  have composable : Composable plainHost 1 twins := by
    constructor
    · decide
    · left
      decide
  have here : outRelay 1 "a".toList ∈ twins.membersOf outGroup := by decide
  have there : outRelay 2 "b".toList ∈ twins.membersOf outGroup := by decide
  have member : outGroup ∈ twins.groups := by decide
  have same := (always plainHost 1 twins).ties composable member (by decide) rfl here there rfl
  exact absurd same (by decide)

end Mailgw.Central
