import Mailgw.Central.Bundle

namespace Mailgw.Central

open Js Json Lists Queue

section Literals
variable {ms ns : List (Name × Value)}

def valueOf (ms : List (Name × Value)) (name : Name) : Value :=
  ((ms.find? fun m => m.1 = name).map Prod.snd).getD .undefined

theorem member_literal (ms : List (Name × Value)) (name : Name) :
    member (ms.map fun m => (unitsOf m.1, m.2)) (unitsOf name) = valueOf ms name := by
  have keys : ((fun m : Units × Value => decide (m.1 = unitsOf name)) ∘ fun m : Name × Value => (unitsOf m.1, m.2)) =
      fun m => decide (m.1 = name) := by
    funext m
    exact decide_eq_decide.mpr unitsOf_injective.eq_iff
  unfold member valueOf
  rw [List.find?_map, keys, Option.map_map]
  rfl

theorem nodup_literal (distinct : (ms.map Prod.fst).Nodup) :
    ((ms.map fun m => (unitsOf m.1, m.2)).map Prod.fst).Nodup := by
  have keys : (ms.map fun m => (unitsOf m.1, m.2)).map Prod.fst = (ms.map Prod.fst).map unitsOf := by
    rw [List.map_map, List.map_map]
    rfl
  rw [keys]
  exact distinct.map unitsOf_injective

theorem printed_valueOf (distinct : (ms.map Prod.fst).Nodup) (distinct' : (ns.map Prod.fst).Nodup)
    (same : normal (literal ms) = normal (literal ns)) (name : Name) :
    printed (valueOf ms name) = printed (valueOf ns name) := by
  have each := (normal_object_iff (nodup_literal distinct) (nodup_literal distinct')).mp same (unitsOf name)
  rwa [member_literal, member_literal] at each

theorem normal_literal_perm (distinct : (ms.map Prod.fst).Nodup) (perm : ms.Perm ns) :
    normal (literal ms) = normal (literal ns) := by
  have distinct' := (perm.map Prod.fst).nodup_iff.mp distinct
  apply (normal_object_iff (nodup_literal distinct) (nodup_literal distinct')).mpr
  intro key
  have there := find_key_perm (perm.map fun m => (unitsOf m.1, m.2)) (nodup_literal distinct) key
  exact congrArg (fun found => printed ((found.map Prod.snd).getD .undefined)) there

end Literals

section Texts
variable {s t : Name} {s? t? : Option Name}

theorem printed_text_iff : printed (text s) = printed (text t) ↔ s = t := by
  rw [text, text, printed, printed, normal, normal, Option.some.injEq, Tree.str.injEq]
  exact unitsOf_injective.eq_iff
  all_goals exact Value.noConfusion

section Elim
variable {α : Type} {x? y? : Option α}

theorem printed_elim (view : α → Value) (absent : Value) (apart : ∀ x, printed (view x) ≠ printed absent)
    (injective : ∀ x y, printed (view x) = printed (view y) → x = y)
    (same : printed (x?.elim absent view) = printed (y?.elim absent view)) : x? = y? := by
  cases x? with
  | none =>
    cases y? with
    | none => rfl
    | some y => exact absurd same.symm (apart y)
  | some x =>
    cases y? with
    | none => exact absurd same (apart x)
    | some y => rw [injective x y same]

end Elim

theorem printed_optional (same : printed (optional s?) = printed (optional t?)) : s? = t? :=
  printed_elim text .undefined (fun _ => Option.some_ne_none _) (fun _ _ => printed_text_iff.mp) same

theorem printed_body (same : printed (s?.elim .null text) = printed (t?.elim .null text)) : s? = t? := by
  have apart (s : Name) : printed (text s) ≠ printed .null := by
    intro alike
    cases alike
  exact printed_elim text .null apart (fun _ _ => printed_text_iff.mp) same

theorem printed_flag {b b' : Bool} (same : printed (flag b) = printed (flag b')) : b = b' := by
  cases b <;> cases b' <;> first | rfl | cases same

theorem printed_number {m n : Int32} (same : printed (number m) = printed (number n)) : m = n := by
  have tokens : normal (number m) = normal (number n) := Option.some.inj same
  rw [number, number, normal, normal, Tree.num.injEq, Subtype.mk.injEq] at tokens
  have whole := (Numbers.Double.ofInt_equal_iff _ _).mp (Numbers.text_eq_iff.mp tokens)
  exact Int32.toInt_inj.mp whole

theorem printed_array {vs ws : List Value} (same : printed (.array vs) = printed (.array ws)) :
    vs.map normal = ws.map normal := by
  rw [← normalElements_eq, ← normalElements_eq]
  exact Tree.arr.inj (Option.some.inj same)

theorem map_injective {α : Type} {view : α → Value} (injective : ∀ x y, normal (view x) = normal (view y) → x = y)
    {xs ys : List α} (same : printed (.array (xs.map view)) = printed (.array (ys.map view))) : xs = ys := by
  have lists := printed_array same
  rw [List.map_map, List.map_map] at lists
  apply List.map_injective_iff.mpr _ lists
  intro x y alike
  exact injective x y alike

end Texts

theorem BundleRelay.distinct (r : BundleRelay) : (r.members.map Prod.fst).Nodup := by
  have keys : r.members.map Prod.fst = ["name", "exchange", "port", "priority", "auth_user", "auth_pass", "tls", "use_mx",
      "allow_insecure_auth"].map String.toList := rfl
  rw [keys]
  decide

theorem BundleRelay.normal_injective (r r' : BundleRelay) (same : normal r.toValue = normal r'.toValue) : r = r' := by
  have member := printed_valueOf r.distinct r'.distinct same
  have name : r.name = r'.name := printed_text_iff.mp (member "name".toList)
  have exchange : r.exchange = r'.exchange := printed_text_iff.mp (member "exchange".toList)
  have port : r.port = r'.port := printed_number (member "port".toList)
  have priority : r.priority = r'.priority := printed_number (member "priority".toList)
  have authUser : r.authUser = r'.authUser := printed_optional (member "auth_user".toList)
  have authPass : r.authPass = r'.authPass := printed_optional (member "auth_pass".toList)
  have tls : r.tls = r'.tls := printed_optional (member "tls".toList)
  have useMx : r.useMx = r'.useMx := printed_flag (member "use_mx".toList)
  have allowInsecureAuth : r.allowInsecureAuth = r'.allowInsecureAuth := printed_flag (member "allow_insecure_auth".toList)
  obtain ⟨⟩ := r
  obtain ⟨⟩ := r'
  simp only [BundleRelay.mk.injEq]
  exact ⟨name, exchange, port, priority, authUser, authPass, tls, useMx, allowInsecureAuth⟩

theorem userValue_injective (u u' : Name × Name) (same : normal (userValue u) = normal (userValue u')) : u = u' := by
  have keys (u : Name × Name) : ([("user".toList, text u.1), ("hash".toList, text u.2)].map Prod.fst).Nodup := by
    rw [show [("user".toList, text u.1), ("hash".toList, text u.2)].map Prod.fst = ["user".toList, "hash".toList] from rfl]
    decide
  have member := printed_valueOf (keys u) (keys u') same
  have user : u.1 = u'.1 := printed_text_iff.mp (member "user".toList)
  have hash : u.2 = u'.2 := printed_text_iff.mp (member "hash".toList)
  exact Prod.ext user hash

theorem authValue_injective {users users' : List (Name × Name)} (same : normal (authValue users) = normal (authValue users')) :
    users = users' := by
  have keys (v : Value) : ([("users".toList, v)].map Prod.fst).Nodup := List.nodup_singleton _
  have member := printed_valueOf (keys _) (keys _) same
  exact map_injective userValue_injective (member "users".toList)

theorem nodup_relaysValue (relays : Table Name (List BundleRelay)) :
    ((relays.entries.map fun e => (e.1, Value.array (e.2.map BundleRelay.toValue))).map Prod.fst).Nodup := by
  rw [List.map_map]
  exact relays.distinct

def listed (rs : List BundleRelay) : Value := .array (rs.map BundleRelay.toValue)

theorem valueOf_relays (relays : Table Name (List BundleRelay)) (name : Name) :
    valueOf (relays.entries.map fun e => (e.1, .array (e.2.map BundleRelay.toValue))) name =
      (relays.get name).elim .undefined listed := by
  have keys : ((fun m : Name × Value => decide (m.1 = name)) ∘ fun e : Name × List BundleRelay =>
      (e.1, Value.array (e.2.map BundleRelay.toValue))) = fun e => decide (e.1 = name) := rfl
  rw [valueOf, Table.get, List.find?_map, Option.map_map, keys]
  cases relays.entries.find? fun e => decide (e.1 = name) <;> rfl

theorem relaysValue_normal_iff {relays relays' : Table Name (List BundleRelay)} :
    normal (relaysValue relays) = normal (relaysValue relays') ↔ ∀ name, relays.get name = relays'.get name := by
  constructor
  · intro same name
    have here := printed_valueOf (nodup_relaysValue relays) (nodup_relaysValue relays') same name
    rw [valueOf_relays, valueOf_relays] at here
    exact printed_elim listed .undefined (fun _ => Option.some_ne_none _) (fun _ _ => map_injective BundleRelay.normal_injective) here
  · intro same
    exact normal_literal_perm (nodup_relaysValue relays) ((Table.entries_perm same).map _)

theorem GatewayBundle.distinct (b : GatewayBundle) : (b.members.map Prod.fst).Nodup := by
  have keys : b.members.map Prod.fst = ["format", "server", "routing", "allowlist", "relays", "logging", "admin",
      "auth"].map String.toList := rfl
  rw [keys]
  decide

theorem serialise_iff {b b' : GatewayBundle} :
    serialiseBundle b = serialiseBundle b' ↔ normal b.toValue = normal b'.toValue := by
  rw [serialiseBundle, serialiseBundle, stableStringify_eq, stableStringify_eq, print_injective.eq_iff]

theorem of_serialise {b b' : GatewayBundle} (same : serialiseBundle b = serialiseBundle b') :
    b.server = b'.server ∧ b.routing = b'.routing ∧ printed b.allowlist = printed b'.allowlist ∧
      (∀ name, b.relays.get name = b'.relays.get name) ∧ b.auth = b'.auth := by
  have member := printed_valueOf b.distinct b'.distinct (serialise_iff.mp same)
  have server := printed_body (member "server".toList)
  have routing := printed_body (member "routing".toList)
  have allowlist : printed b.allowlist = printed b'.allowlist := member "allowlist".toList
  have relays : normal (relaysValue b.relays) = normal (relaysValue b'.relays) := Option.some.inj (member "relays".toList)
  have auth : printed (b.auth.elim .undefined authValue) = printed (b'.auth.elim .undefined authValue) := member "auth".toList
  refine ⟨server, routing, allowlist, relaysValue_normal_iff.mp relays, ?_⟩
  exact printed_elim authValue .undefined (fun _ => Option.some_ne_none _) (fun _ _ alike => authValue_injective (Option.some.inj alike)) auth

theorem normal_literal_congr {ms ns : List (Name × Value)}
    (alike : List.Forall₂ (fun m n => m.1 = n.1 ∧ printed m.2 = printed n.2) ms ns) :
    normal (literal ms) = normal (literal ns) := by
  have members : normalMembers (ms.map fun m => (unitsOf m.1, m.2)) = normalMembers (ns.map fun m => (unitsOf m.1, m.2)) := by
    induction alike with
    | nil => rfl
    | cons head _ ih => rw [List.map_cons, List.map_cons, normalMembers_cons, normalMembers_cons, ih, head.1, head.2]
  rw [literal, literal, normal, normal, members]

theorem serialise_congr {b b' : GatewayBundle} (server : b.server = b'.server) (routing : b.routing = b'.routing)
    (allowlist : printed b.allowlist = printed b'.allowlist) (relays : ∀ name, b.relays.get name = b'.relays.get name)
    (logging : b.logging = b'.logging) (admin : b.admin = b'.admin) (auth : b.auth = b'.auth) :
    serialiseBundle b = serialiseBundle b' := by
  have table : printed (relaysValue b.relays) = printed (relaysValue b'.relays) :=
    congrArg some (relaysValue_normal_iff.mpr relays)
  apply serialise_iff.mpr
  apply normal_literal_congr
  simp only [GatewayBundle.members, List.forall₂_cons, List.forall₂_nil_left_iff, server, routing, allowlist, table, logging,
    admin, auth, and_self]

end Mailgw.Central
