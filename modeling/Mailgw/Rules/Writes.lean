import Mailgw.Rules.EarlyRouting

namespace Mailgw.Rules

open Queue

abbrev Writes := List (Name × Name)

def Writes.latest (writes : Writes) (key : Name) : Option Name := writes.reverse.lookup key

def Tags.write (tags : Tags) (writes : Writes) : Tags := writes.foldl (fun tags w => tags.set w.1 w.2) tags

def Tags.Distinct (tags : Tags) : Prop := (tags.map Prod.fst).Nodup

namespace Writes

@[simp] theorem latest_nil (key : Name) : latest [] key = none := rfl

theorem latest_append (first second : Writes) (key : Name) :
    latest (first ++ second) key = (latest second key).or (latest first key) := by
  simp [latest, List.lookup_append]

theorem latest_cons (k v : Name) (rest : Writes) (key : Name) :
    latest ((k, v) :: rest) key = (latest rest key).or (if key = k then some v else none) := by
  have single : latest [(k, v)] key = if key = k then some v else none := by
    by_cases same : key = k
    · simp [latest, same]
    · have differ : (key == k) = false := by simpa using same
      simp [latest, List.lookup_cons, same, differ]
  rw [← single, ← latest_append]
  rfl

end Writes

namespace Tags

@[simp] theorem write_nil (tags : Tags) : tags.write [] = tags := rfl

@[simp] theorem write_cons (tags : Tags) (w : Name × Name) (rest : Writes) :
    tags.write (w :: rest) = (tags.set w.1 w.2).write rest := rfl

@[simp] theorem write_append (tags : Tags) (first second : Writes) :
    tags.write (first ++ second) = (tags.write first).write second := by
  simp [write]

theorem get_write (tags : Tags) (writes : Writes) (key : Name) :
    (tags.write writes).get key = (writes.latest key).or (tags.get key) := by
  induction writes generalizing tags with
  | nil => rfl
  | cons w rest ih =>
    rw [write_cons, ih, get_set, Writes.latest_cons, Option.or_assoc]
    congr 1
    by_cases same : key = w.1 <;> simp [same]

theorem mem_keys_set (tags : Tags) (key value key' : Name) :
    key' ∈ (tags.set key value).map Prod.fst ↔ key' = key ∨ key' ∈ tags.map Prod.fst := by
  induction tags with
  | nil => simp [set]
  | cons entry rest ih =>
    obtain ⟨k, v⟩ := entry
    by_cases same : k = key
    · simp [set, same]
    · simp only [set, same, ite_false, List.map_cons, List.mem_cons, ih]
      tauto

theorem Distinct.set {tags : Tags} (distinct : tags.Distinct) (key value : Name) : (tags.set key value).Distinct := by
  induction tags with
  | nil => simp [Distinct, Tags.set]
  | cons entry rest ih =>
    obtain ⟨k, v⟩ := entry
    have split := List.nodup_cons.mp distinct
    by_cases same : k = key
    · simpa [Distinct, Tags.set, same] using distinct
    · simp only [Distinct, Tags.set, same, ite_false, List.map_cons]
      apply List.nodup_cons.mpr
      refine ⟨?_, ih split.2⟩
      intro again
      rcases (mem_keys_set rest key value k).mp again with equal | present
      · exact same equal
      · exact split.1 present

theorem Distinct.write {tags : Tags} (distinct : tags.Distinct) (writes : Writes) : (tags.write writes).Distinct := by
  induction writes generalizing tags with
  | nil => exact distinct
  | cons w rest ih => exact ih (distinct.set w.1 w.2)

theorem Distinct.latest {tags : Tags} (distinct : tags.Distinct) (key : Name) :
    Writes.latest tags key = tags.get key := by
  induction tags with
  | nil => rfl
  | cons entry rest ih =>
    obtain ⟨k, v⟩ := entry
    have split := List.nodup_cons.mp distinct
    rw [Writes.latest_cons, get_cons, ih split.2]
    by_cases same : key = k
    · have absent : Tags.get rest key = none := by
        rw [Tags.get, List.lookup_eq_none_iff]
        intro entry member
        have other : entry.1 ∈ rest.map Prod.fst := List.mem_map_of_mem member
        have differ : key ≠ entry.1 := by
          intro equal
          exact split.1 (by rw [← same, equal]; exact other)
        simpa using differ
      rw [absent]
      simp [same]
    · simp [same]

end Tags

/-- What a list of actions writes, up to the one that ends evaluation. -/
def tagWrites : List Action → Writes
  | .tag key value :: rest => (key, value) :: tagWrites rest
  | .addHeader _ _ :: rest => tagWrites rest
  | _ => []

theorem applyActions_writes (actions : List Action) (e : Env) (headers : List Header) :
    (applyActions actions e headers).1 = { e with tags := e.tags.write (tagWrites actions) } := by
  induction actions generalizing e headers with
  | nil => rfl
  | cons a rest ih =>
    cases a with
    | tag key value => exact ih _ _
    | addHeader name value => exact ih _ _
    | _ => rfl

section Walks
variable [Text.LowerCase]

def policyWrites (stage : Stage) (perRcpt : Bool) : List CompiledRule → Env → Writes
  | [], _ => []
  | r :: rest, e =>
    if r.stage ≠ stage ∨ r.rcptScoped ≠ perRcpt ∨ r.applies e = false then policyWrites stage perRcpt rest e
    else
      match applyActions r.actions e [] with
      | (_, _, some _) => tagWrites r.actions
      | (e, _, none) => tagWrites r.actions ++ policyWrites stage perRcpt rest e

theorem evalRules_writes (stage : Stage) (perRcpt : Bool) (rules : List CompiledRule) (e : Env) (headers : List Header) :
    (evalRules stage perRcpt rules e headers).1 =
      { e with tags := e.tags.write (policyWrites stage perRcpt rules e) } := by
  induction rules generalizing e headers with
  | nil => rfl
  | cons r rest ih =>
    simp only [evalRules, policyWrites]
    split
    · exact ih e headers
    · have written := applyActions_writes r.actions e headers
      have same := applyActions_fst r.actions e headers []
      have ends := applyActions_action r.actions e e headers []
      rcases walk : applyActions r.actions e headers with ⟨e₁, headers₁, action⟩
      rcases walk' : applyActions r.actions e [] with ⟨e₂, headers₂, action'⟩
      rw [walk] at written
      rw [walk, walk'] at same ends
      simp only at written same ends
      subst same ends
      cases action with
      | some a => exact written
      | none =>
        simp only
        rw [ih, written]
        simp

def policyWritesOf (rs : Option Ruleset) (e : Env) (stage : Stage) (perRcpt : Bool) : Writes :=
  rs.elim [] fun rs => policyWrites stage perRcpt rs.policy e

theorem evalPolicyOf_writes (rs : Option Ruleset) (e : Env) (stage : Stage) (perRcpt : Bool) :
    (evalPolicyOf rs e stage perRcpt).1 = { e with tags := e.tags.write (policyWritesOf rs e stage perRcpt) } := by
  cases rs with
  | none => rfl
  | some rs => exact evalRules_writes stage perRcpt rs.policy e []

def routeWrites (stage : Stage) : List CompiledRule → Env → Writes
  | [], _ => []
  | r :: rest, e =>
    if stage < r.stage then []
    else if r.applies e = false then routeWrites stage rest e
    else
      match applyActions r.actions e [] with
      | (_, _, some _) => tagWrites r.actions
      | (e, _, none) => tagWrites r.actions ++ routeWrites stage rest e

theorem routeRules_writes (default : Action) (stage : Stage) (rules : List CompiledRule) (e : Env) (headers : List Header) :
    (routeRules default stage rules e headers).1 = { e with tags := e.tags.write (routeWrites stage rules e) } := by
  induction rules generalizing e headers with
  | nil =>
    simp only [routeRules, routeWrites]
    split <;> rfl
  | cons r rest ih =>
    simp only [routeRules, routeWrites]
    split
    · rfl
    · split
      · exact ih e headers
      · have written := applyActions_writes r.actions e headers
        have same := applyActions_fst r.actions e headers []
        have ends := applyActions_action r.actions e e headers []
        rcases walk : applyActions r.actions e headers with ⟨e₁, headers₁, action⟩
        rcases walk' : applyActions r.actions e [] with ⟨e₂, headers₂, action'⟩
        rw [walk] at written
        rw [walk, walk'] at same ends
        simp only at written same ends
        subst same ends
        cases action with
        | some a => exact written
        | none =>
          simp only
          rw [ih, written]
          simp

def routeWritesOf (rs : Option Ruleset) (e : Env) (stage : Stage) : Writes :=
  rs.elim [] fun rs => routeWrites stage rs.routes e

theorem route_writes (rs : Option Ruleset) (e : Env) (stage : Stage) :
    (route rs e stage).1 = { e with tags := e.tags.write (routeWritesOf rs e stage) } := by
  cases rs with
  | none => rfl
  | some rs => exact routeRules_writes rs.default stage rs.routes e []

end Walks

end Mailgw.Rules
