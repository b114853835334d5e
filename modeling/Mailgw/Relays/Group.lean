import Mailgw.Deliver.Client
import Mailgw.Lists.Ranked
import Mailgw.Lists.Checked
import Mailgw.Lists.Table
import Mailgw.Text.Decimal

namespace Mailgw.Relays

open Calls Deliver Lists

structure Relay extends Deliver.Relay where
  priority : Int := 0
  authPassEnv : Chars := []
  useMX : Bool := false
  deriving Repr, DecidableEq

structure Relay.Keeps (m target : Relay) : Prop where
  priority : target.priority = m.priority
  port : target.port = m.port
  tls : target.tls = m.tls
  allowInsecureAuth : target.allowInsecureAuth = m.allowInsecureAuth
  authUser : target.authUser = m.authUser
  authPass : target.authPass = m.authPass

theorem Relay.Keeps.refl (m : Relay) : m.Keeps m := ⟨rfl, rfl, rfl, rfl, rfl, rfl⟩

structure Group where
  name : Chars
  members : List Relay
  sorted : members.Pairwise fun m m' => m.priority ≤ m'.priority

def newGroup (name : Chars) (members : List Relay) : Group where
  name
  members := ranked Relay.priority members
  sorted := ranked_pairwise Relay.priority members

inductive TableError where
  | noGroups
  | emptyGroup (group : Chars)
  | missingExchange (group : Chars) (member : Nat)
  | portOutOfRange (group member : Chars) (port : Nat)
  | unknownTLS (group member tls : Chars)
  | authPassEnv (group member : Chars)
  deriving Repr, DecidableEq

def checkMember (group : Chars) (i : Nat) (m : Relay) : Except TableError Unit :=
  if Text.trimSpace m.exchange = [] then .error (.missingExchange group i)
  else if m.port < 1 ∨ 65535 < m.port then .error (.portOutOfRange group m.name m.port)
  else if Text.lower m.tls ∉ [[], TLSPolicy.none.text, TLSPolicy.opportunistic.text, TLSPolicy.required.text] then
    .error (.unknownTLS group m.name m.tls)
  else if m.authPassEnv ≠ [] then .error (.authPassEnv group m.name)
  else .ok ()

def checkMembers (group : Chars) (i : Nat) : List Relay → Except TableError Unit
  | [] => .ok ()
  | m :: rest => do
    checkMember group i m
    checkMembers group (i + 1) rest

def addGroup (t : Table Chars Group) (entry : Chars × List Relay) : Except TableError (Table Chars Group) :=
  if entry.2 = [] then .error (.emptyGroup entry.1)
  else do
    checkMembers entry.1 0 entry.2
    return t.set entry.1 (newGroup entry.1 entry.2)

def newTable (byGroup : Table Chars (List Relay)) : Except TableError (Table Chars Group) :=
  if byGroup.entries = [] then .error .noGroups
  else byGroup.entries.foldlM addGroup .empty

variable {C : Type} {R : C → Type}

/-- The dial list of one attempt: members of one priority are shuffled. -/
def attempts (rnd : (n : Nat) → Prog C R (Equiv.Perm (Fin n))) : Option Group → Prog C R (List Relay)
  | none => return []
  | some g => if g.members = [] then return [] else shuffleBands rnd Relay.priority g.members

def members (g : Option Group) : List Relay := (g.map Group.members).getD []

theorem members_sorted (g : Option Group) : (members g).Pairwise fun m m' => m.priority ≤ m'.priority := by
  cases g with
  | none => exact List.Pairwise.nil
  | some g => exact g.sorted

theorem attempts_sat {W : Type} {k : Contract C R W} {kept : W → Prop} {rnd : (n : Nat) → Prog C R (Equiv.Perm (Fin n))}
    {w : W} (shuffles : ∀ n w, kept w → Sat k (fun _ w => kept w) (rnd n) w) (g : Option Group) (holds : kept w) :
    Sat k (fun order w => Shuffled Relay.priority (members g) order ∧ kept w) (attempts rnd g) w := by
  cases g with
  | none => exact ⟨.refl _ [], holds⟩
  | some g =>
    have shuffled := shuffleBands_sat shuffles Relay.priority g.members holds
    by_cases empty : g.members = []
    · have nothing : members (some g) = [] := empty
      simp only [attempts, if_pos empty, nothing]
      exact ⟨.refl _ [], holds⟩
    · simp only [attempts, if_neg empty]
      exact shuffled

section Building

variable {t t' : Table Chars Group} {entries : List (Chars × List Relay)}

theorem addGroup_ok {entry : Chars × List Relay} (added : addGroup t entry = .ok t') :
    checkMembers entry.1 0 entry.2 = .ok () ∧ t' = t.set entry.1 (newGroup entry.1 entry.2) := by
  unfold addGroup at added
  split at added
  · cases added
  · obtain ⟨_, checked, same⟩ := bind_ok added
    cases same
    exact ⟨checked, rfl⟩

theorem addGroups_get (distinct : (entries.map Prod.fst).Nodup) (built : entries.foldlM addGroup t = .ok t') :
    (∀ entry ∈ entries, t'.get entry.1 = some (newGroup entry.1 entry.2)) ∧
      ∀ name ∉ entries.map Prod.fst, t'.get name = t.get name := by
  induction entries generalizing t with
  | nil =>
    cases built
    simp
  | cons entry rest ih =>
    rw [List.foldlM_cons] at built
    obtain ⟨t₁, added, later⟩ := bind_ok built
    rw [List.map_cons, List.nodup_cons] at distinct
    obtain ⟨others, kept⟩ := ih distinct.2 later
    have own := (addGroup_ok added).2
    constructor
    · intro other member
      rcases List.mem_cons.mp member with rfl | member
      · rw [kept _ distinct.1, own, Table.get_set]
      · exact others other member
    · intro name absent
      simp only [List.map_cons, List.mem_cons, not_or] at absent
      rw [kept name absent.2, own, Table.get_set_ne absent.1]

theorem newTable_get {byGroup : Table Chars (List Relay)} (built : newTable byGroup = .ok t) (name : Chars) :
    t.get name = (byGroup.get name).map (newGroup name) := by
  unfold newTable at built
  split at built
  · cases built
  · obtain ⟨own, others⟩ := addGroups_get byGroup.distinct built
    cases found : byGroup.get name with
    | some members => exact own _ (Table.get_eq_some_iff.mp found)
    | none =>
      apply (others name _).trans Table.get_empty
      intro member
      obtain ⟨entry, here, rfl⟩ := List.mem_map.mp member
      rw [Table.get_eq_some_iff.mpr here] at found
      cases found

end Building

end Mailgw.Relays
