import Mailgw.Deliver.Mx

namespace Mailgw.Deliver

open Calls Lists

/-- The targets that the records of a domain stand for. Without any it is the domain itself. -/
def exchangers (domain : Chars) (records : List MX) : List Host :=
  if records = [] then [{ name := domain, pref := 0 }] else records.map MX.target

inductive Resolution (domain : Chars) (answer : LookupAnswer) : Except Chars (List Host) → Prop where
  | failed {text err : Chars} (failure : answer.found = .error text) : Resolution domain answer (.error err)
  | nullMX {records : List MX} {err : Chars} (found : answer.found = .ok records) (null : ∃ m ∈ records, m.name = []) :
      Resolution domain answer (.error err)
  | resolved {records : List MX} {hosts : List Host} (found : answer.found = .ok records)
      (named : ∀ m ∈ records, m.name ≠ []) (perm : hosts.Perm (exchangers domain records))
      (rising : hosts.Pairwise fun h h' => h.pref ≤ h'.pref) : Resolution domain answer (.ok hosts)

namespace Resolution

variable {domain : Chars} {answer : LookupAnswer} {hosts hosts' : List Host}

theorem sorted (came : Resolution domain answer (.ok hosts))
    (shuffled : Shuffled Host.pref (ranked Host.pref hosts) hosts') : Resolution domain answer (.ok hosts') := by
  obtain ⟨perm', rising'⟩ := shuffled.ranked
  cases came with
  | resolved found named perm rising => exact .resolved found named (perm'.trans perm) rising'

theorem ne_nil (came : Resolution domain answer (.ok hosts)) : hosts ≠ [] := by
  cases came with
  | resolved found named perm rising =>
    intro empty
    rw [empty, List.nil_perm] at perm
    unfold exchangers at perm
    split at perm
    · cases perm
    · rename_i some
      exact some (List.map_eq_nil_iff.mp perm)

end Resolution

def stored (hosts : List Host) : Option Chars → Except Chars (List Host)
  | some err => .error err
  | none => .ok hosts

section Cache
variable {cache : MxCache} {now later ttl : Int} {domain domain' : Chars} {hosts : List Host} {err : Option Chars}

theorem cached_eq_some {result : Except Chars (List Host)} (hit : cache.cached now domain = some result) :
    ∃ c, cache.get domain = some c ∧ result = stored c.hosts c.err := by
  unfold MxCache.cached at hit
  split at hit
  · cases hit
  · rename_i c found
    refine ⟨c, found, ?_⟩
    split at hit
    · cases hit
    · split at hit <;>
      · rename_i here
        rw [here]
        exact (Option.some.inj hit).symm

theorem get_store {c : CachedMX} (found : (cache.store now later domain hosts err ttl).get domain' = some c) :
    (domain' = domain ∧ c = { hosts, err, storedAt := now, ttl }) ∨ (domain' ≠ domain ∧ cache.get domain' = some c) := by
  have direct : (cache.set domain { hosts, err, storedAt := now, ttl }).get domain' = some c := by
    unfold MxCache.store at found
    simp only at found
    split at found
    · exact found
    · split at found
      · rw [Table.get_keep] at found
        exact (Option.filter_eq_some_iff.mp found).1
      · rw [Table.get_keep, Table.get_keep] at found
        exact (Option.filter_eq_some_iff.mp (Option.filter_eq_some_iff.mp found).1).1
  by_cases same : domain' = domain
  · subst same
    rw [Table.get_set] at direct
    exact .inl ⟨rfl, (Option.some.inj direct).symm⟩
  · rw [Table.get_set_ne same] at direct
    exact .inr ⟨same, direct⟩

end Cache

namespace Dns

variable {d d' : Dns}

/-- What is stored under a domain is what an answer that the DNS has given for it came to. -/
def Honest (d : Dns) : Prop :=
  ∀ domain c, d.cache.get domain = some c → ∃ answer, d.origin.get domain = some (domain, answer) ∧
    (domain, answer) ∈ d.asked ∧ Resolution domain answer (stored c.hosts c.err)

theorem honest_empty (clock : Int) : ({ clock } : Dns).Honest := by
  intro domain c found
  cases found

structure Moves (d d' : Dns) : Prop where
  asked : d.asked ⊆ d'.asked
  honest : d.Honest → d'.Honest

theorem Moves.refl (d : Dns) : d.Moves d := ⟨List.Subset.refl _, id⟩

theorem Honest.put {given : List Asking} {later ttl : Int} {domain : Chars} {answer : LookupAnswer} {hosts : List Host}
    {err : Option Chars} (honest : d.Honest) (known : (domain, answer) ∈ d.asked)
    (came : Resolution domain answer (stored hosts err)) :
    (d.put (given ++ [(domain, answer)]) later domain hosts err ttl).Honest := by
  have origin : (d.put (given ++ [(domain, answer)]) later domain hosts err ttl).origin =
      d.origin.set domain (domain, answer) := by
    simp [Dns.put]
  intro domain' c found
  rw [origin]
  rcases get_store found with ⟨rfl, rfl⟩ | ⟨other, there⟩
  · exact ⟨answer, Table.get_set, known, came⟩
  · obtain ⟨answer', old, known', came'⟩ := honest domain' c there
    exact ⟨answer', (Table.get_set_ne other).trans old, known', came'⟩

end Dns

def resolving : Contract MxCall MxCall.Answer DnsView where
  step call v answer v' := v.serve ⟨call, answer⟩ = some v'
  rely v v' := v.dns.Moves v'.dns ∧ v'.given = v.given
  guar v v' := v.dns.Moves v'.dns

section Rules
variable {α : Type} {given : List Asking} {v v' : DnsView} {r : Resolver} {domain : Chars} {answer : LookupAnswer}

structure Given (given : List Asking) (v : DnsView) : Prop where
  honest : v.dns.Honest
  same : v.given = given
  asked : given ⊆ v.dns.asked

theorem given_stable (given : List Asking) : Stable resolving (Given given) := by
  intro v v' move holds
  exact ⟨move.1.honest holds.honest, move.2.trans holds.same, List.Subset.trans holds.asked move.1.asked⟩

theorem shuffle_sat (n : Nat) (v : DnsView) (holds : Given given v) :
    Sat resolving (fun _ v => Given given v) (shuffle n) v := by
  apply Sat.call (Given given) (given_stable given) holds
  intro v holds σ v' served
  cases served
  exact ⟨.refl v.dns, holds⟩

theorem sortHosts_sat (hosts : List Host) (holds : Given given v) :
    Sat resolving (fun hosts' v => Shuffled Host.pref (ranked Host.pref hosts) hosts' ∧ Given given v) (sortHosts hosts) v :=
  shuffleBands_sat shuffle_sat Host.pref (ranked Host.pref hosts) holds

def Came (given : List Asking) (domain : Chars) (result : Except Chars (List Host)) (v : DnsView) : Prop :=
  ∃ answer, Given (given ++ [(domain, answer)]) v ∧ Resolution domain answer result

def Looked (given : List Asking) (domain : Chars) : Option (Except Chars (List Host)) → DnsView → Prop
  | none => Given given
  | some result => Came given domain result

theorem serve_cached {hit : Option (Except Chars (List Host))} (holds : Given given v)
    (served : v.serve ⟨.cached r domain, hit⟩ = some v') : v'.dns = v.dns ∧ Looked given domain hit v' := by
  cases r with
  | zero =>
    simp only [DnsView.serve] at served
    split at served
    · rename_i miss
      cases served
      rw [miss]
      exact ⟨rfl, holds⟩
    · cases served
  | shared ttl =>
    simp only [DnsView.serve] at served
    split at served
    · rename_i same
      cases served
      cases hit with
      | none => exact ⟨rfl, holds⟩
      | some result =>
        obtain ⟨c, found, rfl⟩ := cached_eq_some same.symm
        obtain ⟨answer, origin, known, came⟩ := holds.honest domain c found
        refine ⟨rfl, answer, ⟨holds.honest, ?_, ?_⟩, came⟩
        · simp [origin, holds.same]
        · exact List.append_subset.mpr ⟨holds.asked, by simpa using known⟩
    · cases served

theorem cached_sat (holds : Given given v) :
    Sat resolving (Looked given domain) (cached r domain) v := by
  unfold cached
  rw [Prog.ask_bind]
  apply Sat.call (Given given) (given_stable given) holds
  intro v holds hit v' served
  obtain ⟨same, known⟩ := serve_cached holds served
  have moves : v.dns.Moves v'.dns := by
    rw [same]
    exact .refl v.dns
  refine ⟨moves, ?_⟩
  match hit with
  | none => exact known
  | some (.error err) => exact known
  | some (.ok hosts) =>
    obtain ⟨answer, holds, came⟩ := known
    apply Sat.bind
    apply (sortHosts_sat hosts holds).mono
    intro hosts' v sorted
    exact ⟨answer, sorted.2, came.sorted sorted.1⟩

theorem store_sat {hosts : List Host} {err : Option Chars} {ttl : Int} (holds : Given (given ++ [(domain, answer)]) v)
    (came : Resolution domain answer (stored hosts err)) :
    Sat resolving (fun _ v => Given (given ++ [(domain, answer)]) v) (store r domain hosts err ttl) v := by
  apply Sat.call (Given (given ++ [(domain, answer)])) (given_stable _) holds
  intro v holds later v' step
  have served : v.serve ⟨.store r domain hosts err ttl, later⟩ = some v' := step
  simp only [DnsView.serve] at served
  split at served
  · cases served
  · cases r with
    | zero =>
      cases served
      exact ⟨⟨List.Subset.refl _, id⟩, holds.honest, holds.same, holds.asked⟩
    | shared own =>
      cases served
      rw [holds.same]
      have known : (domain, answer) ∈ v.dns.asked := holds.asked (by simp)
      have honest : (v.dns.put (given ++ [(domain, answer)]) later domain hosts err ttl).Honest :=
        holds.honest.put known came
      exact ⟨⟨List.Subset.refl _, fun _ => honest⟩, honest, rfl, holds.asked⟩

theorem lookup_sat {post : α → DnsView → Prop} {f : LookupAnswer → MxJob α} (holds : Given given v)
    (rest : ∀ answer v, Given (given ++ [(domain, answer)]) v → Sat resolving post (f answer) v) :
    Sat resolving post (Prog.ask (MxCall.lookup domain) >>= f) v := by
  rw [Prog.ask_bind]
  apply Sat.call (Given given) (given_stable given) holds
  intro v holds answer v' served
  cases served
  have more : v.dns.asked ⊆ (domain, answer) :: v.dns.asked := List.subset_cons_self _ _
  have honest : Dns.Honest { v.dns with asked := (domain, answer) :: v.dns.asked } := by
    intro domain' c found
    obtain ⟨answer', origin, known, came⟩ := holds.honest domain' c found
    exact ⟨answer', origin, more known, came⟩
  refine ⟨⟨more, fun _ => honest⟩, ?_⟩
  apply rest answer
  refine ⟨honest, ?_, ?_⟩
  · rw [holds.same]
  · exact List.append_subset.mpr ⟨List.Subset.trans holds.asked more, by simp⟩

theorem mapM_hostOf (records : List MX) :
    (records.mapM hostOf = none ∧ ∃ m ∈ records, m.name = []) ∨
      (records.mapM hostOf = some (records.map MX.target) ∧ ∀ m ∈ records, m.name ≠ []) := by
  induction records with
  | nil => exact .inr ⟨rfl, by simp⟩
  | cons m rest ih =>
    rw [List.mapM_cons]
    by_cases null : m.name = []
    · left
      simp [hostOf, null]
    · rcases ih with ⟨none, there⟩ | ⟨all, named⟩
      · left
        obtain ⟨m', member, null'⟩ := there
        refine ⟨?_, m', List.mem_cons_of_mem m member, null'⟩
        simp [hostOf, null, none]
      · right
        constructor
        · simp [hostOf, null, all]
        · exact List.forall_mem_cons.mpr ⟨null, named⟩

variable [Text.LowerCase]

def Resolved (given : List Asking) (domain : Chars) (result : Except Chars (List Host)) (v : DnsView) : Prop :=
  (domain = [] ∧ (∃ err, result = .error err) ∧ Given given v) ∨
    domain ≠ [] ∧ Came given domain result v

theorem hosts_sat (r : Resolver) (domain : Chars) (holds : Given given v) :
    Sat resolving (Resolved given (mxDomain domain)) (hosts r domain) v := by
  simp only [hosts]
  split
  · rename_i empty
    exact .inl ⟨empty, ⟨_, rfl⟩, holds⟩
  · rename_i named
    apply Sat.bind
    apply (cached_sat holds).mono
    intro hit v known
    cases hit with
    | some result => exact .inr ⟨named, known⟩
    | none =>
      apply lookup_sat known
      intro answer v holds
      cases found : answer.found with
      | error text =>
        apply Sat.bind
        apply (store_sat holds (.failed found)).mono
        intro _ v holds
        exact .inr ⟨named, answer, holds, .failed found⟩
      | ok records =>
        rcases mapM_hostOf records with ⟨none, null⟩ | ⟨all, full⟩
        · simp only [none]
          apply Sat.bind
          apply (store_sat holds (.nullMX found null)).mono
          intro _ v holds
          exact .inr ⟨named, answer, holds, .nullMX found null⟩
        · have targets : (if records.map MX.target = [] then [{ name := mxDomain domain, pref := 0 }]
              else records.map MX.target) = exchangers (mxDomain domain) records := by
            simp [exchangers]
          simp only [all, targets]
          apply Sat.bind
          apply (sortHosts_sat _ holds).mono
          intro hosts v sorted
          obtain ⟨perm, rising⟩ := sorted.1.ranked
          have came : Resolution (mxDomain domain) answer (stored hosts none) := .resolved found full perm rising
          apply Sat.bind
          apply (store_sat sorted.2 came).mono
          intro _ v holds
          exact .inr ⟨named, answer, holds, came⟩

inductive Expansion (m : Relays.Relay) : List Asking × List Relays.Relay → Prop where
  | ordinary (plain : m.useMX = false) : Expansion m ([], [m])
  | nameless (mx : m.useMX = true) (empty : mxDomain m.exchange = []) : Expansion m ([], [])
  | unresolved {answer : LookupAnswer} {err : Chars} (mx : m.useMX = true) (named : mxDomain m.exchange ≠ [])
      (came : Resolution (mxDomain m.exchange) answer (.error err)) : Expansion m ([(mxDomain m.exchange, answer)], [])
  | exchangers {answer : LookupAnswer} {hosts : List Host} (mx : m.useMX = true) (named : mxDomain m.exchange ≠ [])
      (came : Resolution (mxDomain m.exchange) answer (.ok hosts)) :
      Expansion m ([(mxDomain m.exchange, answer)], hosts.map fun h => viaHost m h.name)

theorem Expansion.keeps {m : Relays.Relay} {step : List Asking × List Relays.Relay} (expansion : Expansion m step) :
    ∀ target ∈ step.2, m.Keeps target := by
  cases expansion with
  | ordinary plain => simpa using Relays.Relay.Keeps.refl m
  | nameless mx empty => simp
  | unresolved mx named came => simp
  | exchangers mx named came =>
    intro target member
    obtain ⟨h, _, rfl⟩ := List.mem_map.mp member
    exact ⟨rfl, rfl, rfl, rfl, rfl, rfl⟩

theorem expand_sat (r : Option Resolver) (m : Relays.Relay) (holds : Given given v) :
    Sat resolving (fun result v => ∃ more, Given (given ++ more) v ∧ match result with
      | .ok block => Expansion m (more, block) ∧ block ≠ []
      | .error _ => Expansion m (more, [])) (expand r m) v := by
  have same : given ++ [] = given := List.append_nil given
  unfold expand
  split
  · rename_i plain
    exact ⟨[], same.symm ▸ holds, .ordinary plain, List.cons_ne_nil m []⟩
  · rename_i mx
    have mx : m.useMX = true := by simpa using mx
    apply Sat.bind
    apply (hosts_sat (r.getD .zero) m.exchange holds).mono
    intro result v resolved
    rcases resolved with ⟨empty, ⟨err, rfl⟩, holds⟩ | ⟨named, answer, holds, came⟩
    · exact ⟨[], same.symm ▸ holds, .nameless mx empty⟩
    · cases result with
      | error err => exact ⟨_, holds, .unresolved mx named came⟩
      | ok hosts =>
        have some : (hosts.map fun h => viaHost m h.name) ≠ [] := by
          simpa using came.ne_nil
        exact ⟨_, holds, .exchangers mx named came, some⟩

end Rules

end Mailgw.Deliver
