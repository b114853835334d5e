import Mailgw.Calls.Runs
import Mailgw.Deliver.Exchangers

namespace Mailgw.Deliver

open Calls Lists

/-- An entry as it was put into the cache, and the question and answer of the DNS it was made of. -/
structure Kept where
  domain : Chars
  asked : Chars
  answer : LookupAnswer
  entry : CachedMX

/-- A resolver with everything it has ever stored, of which the code keeps the cache. -/
structure Memory where
  cache : MxCache := .empty
  clock : Int := 0
  kept : List Kept := []

/-- What a lookup has been given so far: an answer of the DNS and what it had asked for, or an entry and the
    time it was read at. -/
inductive Source where
  | nothing
  | dns (asked : Chars) (answer : LookupAnswer)
  | cache (entry : CachedMX) (time : Int)

structure Asker where
  memory : Memory
  began : Int
  source : Source

def Memory.put (m : Memory) (source : Source) (later : Int) (domain : Chars) (hosts : List Host) (err : Option Chars)
    (ttl : Int) : Memory where
  cache := m.cache.store m.clock later domain hosts err ttl
  clock := later
  kept :=
    match source with
    | .dns asked answer => { domain, asked, answer, entry := { hosts, err, storedAt := m.clock, ttl } } :: m.kept
    | _ => m.kept

def Asker.serve (a : Asker) : MxEvent → Option Asker
  | ⟨.shuffle _, _⟩ => some a
  | ⟨.cached _ domain, hit⟩ =>
    if hit = a.memory.cache.cached a.memory.clock domain then
      match hit, a.memory.cache.get domain with
      | some _, some entry => some { a with source := .cache entry a.memory.clock }
      | _, _ => some a
    else none
  | ⟨.lookup domain, answer⟩ => some { a with source := .dns domain answer }
  | ⟨.store _ domain hosts err ttl, later⟩ =>
    if later < a.memory.clock then none
    else some { a with memory := a.memory.put a.source later domain hosts err ttl }

example (a : Asker) (answer : LookupAnswer) (domain : Chars) :
    a.serve ⟨.lookup domain, answer⟩ = some { a with source := .dns domain answer } := by simp [Asker.serve]

/-- How long the entry made of an answer lasts. A failure is the short-lived one. -/
def lifetime (r : Resolver) (answer : LookupAnswer) : Int :=
  match answer.found with
  | .error _ => negativeTTL
  | .ok _ => r.ttl

structure Kept.Genuine (r : Resolver) (k : Kept) : Prop where
  asked : k.asked = k.domain
  came : Resolution k.domain k.answer (stored k.entry.hosts k.entry.err)
  ttl : k.entry.ttl = lifetime r k.answer

namespace Memory

variable {r : Resolver} {m m' : Memory}

structure Sound (r : Resolver) (m : Memory) : Prop where
  bounded : m.cache.size ≤ maxCacheEntries
  known : ∀ domain c, m.cache.get domain = some c → ∃ k ∈ m.kept, k.domain = domain ∧ k.entry = c
  genuine : ∀ k ∈ m.kept, k.Genuine r

structure Moves (r : Resolver) (m m' : Memory) : Prop where
  clock : m.clock ≤ m'.clock
  kept : m.kept ⊆ m'.kept
  sound : m.Sound r → m'.Sound r

theorem Moves.refl (r : Resolver) (m : Memory) : m.Moves r m := ⟨le_refl m.clock, List.Subset.refl _, id⟩

theorem sound_empty (r : Resolver) (clock : Int) : ({ clock } : Memory).Sound r := by
  constructor
  · simp [Table.size, Table.empty]
  · intro domain c found
    cases found
  · simp

end Memory

section Cache
variable {cache : MxCache} {now later ttl : Int} {domain : Chars} {hosts : List Host} {err : Option Chars}

theorem size_store_le : (cache.store now later domain hosts err ttl).size ≤ maxCacheEntries := by
  unfold MxCache.store
  simp only
  split
  · assumption
  · split
    · assumption
    · apply Nat.le_trans (Table.size_keep_of_alike domain (by simp))
      decide

theorem alive_of_cached {result : Except Chars (List Host)} (hit : cache.cached now domain = some result) :
    ∃ c, cache.get domain = some c ∧ now - c.storedAt ≤ c.ttl ∧ result = stored c.hosts c.err := by
  obtain ⟨c, found, same⟩ := cached_eq_some hit
  refine ⟨c, found, ?_, same⟩
  by_contra old
  have outlived : c.ttl < now - c.storedAt := by omega
  simp [MxCache.cached, found, outlived] at hit

end Cache

namespace Memory

variable {r : Resolver} {m : Memory} {later ttl : Int} {domain : Chars} {hosts : List Host} {err : Option Chars}

theorem moves_put {answer : LookupAnswer} (after : m.clock ≤ later) (came : Resolution domain answer (stored hosts err)) :
    m.Moves r (m.put (.dns domain answer) later domain hosts err (lifetime r answer)) := by
  refine ⟨after, List.subset_cons_self _ _, fun sound => ⟨size_store_le, ?_, ?_⟩⟩
  · intro domain' c found
    rcases get_store found with ⟨rfl, rfl⟩ | ⟨_, there⟩
    · exact ⟨_, List.mem_cons_self, rfl, rfl⟩
    · obtain ⟨k, member, same⟩ := sound.known domain' c there
      exact ⟨k, List.mem_cons_of_mem _ member, same⟩
  · exact List.forall_mem_cons.mpr ⟨⟨rfl, came, rfl⟩, sound.genuine⟩

end Memory

def caching (r : Resolver) : Contract MxCall MxCall.Answer Asker where
  step call a answer a' := a.serve ⟨call, answer⟩ = some a'
  rely a a' := a.memory.Moves r a'.memory ∧ a'.began = a.began ∧ a'.source = a.source
  guar a a' := a.memory.Moves r a'.memory

/-- What an entry may give: its failure, or its hosts with those of one preference in any order. -/
def CachedMX.Gives (c : CachedMX) : Except Chars (List Host) → Prop
  | .error err => c.err = some err
  | .ok hosts => c.err = none ∧ Shuffled Host.pref c.hosts hosts

/-- The lookup was served from an entry that had been kept for its domain, and that was alive at a
    time while it was under way. -/
structure Hit (domain : Chars) (a : Asker) (k : Kept) (time : Int) (result : Except Chars (List Host)) : Prop where
  source : a.source = .cache k.entry time
  kept : k ∈ a.memory.kept
  domain : k.domain = domain
  alive : time - k.entry.storedAt ≤ k.entry.ttl
  within : a.began ≤ time ∧ time ≤ a.memory.clock
  gives : k.entry.Gives result

inductive Served (domain : Chars) (result : Except Chars (List Host)) (a : Asker) : Prop where
  | nameless (empty : domain = []) (failed : ∃ err, result = .error err)
  | asked {answer : LookupAnswer} (source : a.source = .dns domain answer) (came : Resolution domain answer result)
  | cached {k : Kept} {time : Int} (hit : Hit domain a k time result)

section Rules
variable {α : Type} {r : Resolver} {a a' : Asker} {domain : Chars} {result : Except Chars (List Host)} {kept : Asker → Prop}

structure Standing (r : Resolver) (source : Source) (began : Int) (a : Asker) : Prop where
  sound : a.memory.Sound r
  given : a.source = source
  since : a.began = began
  later : began ≤ a.memory.clock

theorem standing_stable (r : Resolver) (source : Source) (began : Int) : Stable (caching r) (Standing r source began) := by
  intro a a' move holds
  obtain ⟨moves, sameBegan, sameSource⟩ := move
  exact ⟨moves.sound holds.sound, sameSource.trans holds.given, sameBegan.trans holds.since,
    holds.later.trans moves.clock⟩

theorem Hit.stable {k : Kept} {time : Int} : Stable (caching r) fun a => Hit domain a k time result := by
  intro a a' move hit
  obtain ⟨moves, began, source⟩ := move
  exact ⟨source.trans hit.source, moves.kept hit.kept, hit.domain, hit.alive,
    ⟨began ▸ hit.within.1, hit.within.2.trans moves.clock⟩, hit.gives⟩

theorem served_stable : Stable (caching r) (Served domain result) := by
  intro a a' move served
  cases served with
  | nameless empty failed => exact .nameless empty failed
  | asked source came => exact .asked (move.2.2.trans source) came
  | cached hit => exact .cached (Hit.stable a a' move hit)

theorem shuffle_keeps (stable : Stable (caching r) kept) (n : Nat) (a : Asker) (holds : kept a) :
    Sat (caching r) (fun _ a => kept a) (shuffle n) a := by
  apply Sat.call kept stable holds
  intro a holds σ a' served
  cases served
  exact ⟨.refl r a.memory, holds⟩

theorem sortHosts_keeps (stable : Stable (caching r) kept) (hosts : List Host) (holds : kept a) :
    Sat (caching r) (fun hosts' a => Shuffled Host.pref (ranked Host.pref hosts) hosts' ∧ kept a) (sortHosts hosts) a :=
  shuffleBands_sat (shuffle_keeps stable) Host.pref (ranked Host.pref hosts) holds

def Probed (r : Resolver) (began : Int) (domain : Chars) : Option (Except Chars (List Host)) → Asker → Prop
  | none => Standing r .nothing began
  | some result => Served domain result

variable {began : Int}

theorem serve_probed {hit : Option (Except Chars (List Host))} (holds : Standing r .nothing began a)
    (served : a.serve ⟨.cached r domain, hit⟩ = some a') :
    a'.memory = a.memory ∧ match hit with
      | none => Standing r .nothing began a'
      | some result => ∃ k time, Hit domain a' k time result ∧ k.Genuine r ∧ result = stored k.entry.hosts k.entry.err := by
  simp only [Asker.serve] at served
  split at served
  · rename_i same
    cases hit with
    | none =>
      cases served
      exact ⟨rfl, holds⟩
    | some result =>
      obtain ⟨c, found, alive, came⟩ := alive_of_cached same.symm
      obtain ⟨k, member, named, rfl⟩ := holds.sound.known domain c found
      simp only [found] at served
      cases served
      have gives : k.entry.Gives result := by
        rw [came]
        cases fails : k.entry.err with
        | some err => exact fails
        | none => exact ⟨fails, .refl Host.pref k.entry.hosts⟩
      have within : a.began ≤ a.memory.clock := holds.since.symm ▸ holds.later
      exact ⟨rfl, k, a.memory.clock, ⟨rfl, member, named, alive, ⟨within, le_refl _⟩, gives⟩,
        holds.sound.genuine k member, came⟩
  · cases served

theorem Kept.Genuine.ranked {k : Kept} {hosts : List Host} (genuine : k.Genuine r)
    (came : .ok hosts = stored k.entry.hosts k.entry.err) : Lists.ranked Host.pref hosts = hosts := by
  have resolved := genuine.came
  rw [← came] at resolved
  cases resolved with
  | resolved found named perm rising => exact ranked_of_pairwise rising

theorem cached_probes (holds : Standing r .nothing began a) :
    Sat (caching r) (Probed r began domain) (cached r domain) a := by
  unfold cached
  rw [Prog.ask_bind]
  apply Sat.call (Standing r .nothing began) (standing_stable r .nothing began) holds
  intro a holds hit a' step
  obtain ⟨same, known⟩ := serve_probed holds step
  have moves : a.memory.Moves r a'.memory := by
    rw [same]
    exact .refl r a.memory
  refine ⟨moves, ?_⟩
  match hit with
  | none => exact known
  | some (.error err) =>
    obtain ⟨k, time, hit, _⟩ := known
    exact Served.cached hit
  | some (.ok hosts) =>
    obtain ⟨k, time, hit, genuine, came⟩ := known
    apply Sat.bind
    apply (sortHosts_keeps Hit.stable hosts hit).mono
    intro hosts' a sorted
    obtain ⟨shuffled, hit⟩ := sorted
    rw [genuine.ranked came] at shuffled
    exact Served.cached { hit with gives := ⟨hit.gives.1, hit.gives.2.trans shuffled⟩ }

theorem lookup_asks {post : α → Asker → Prop} {f : LookupAnswer → MxJob α} (holds : Standing r .nothing began a)
    (rest : ∀ answer a, Standing r (.dns domain answer) began a → Sat (caching r) post (f answer) a) :
    Sat (caching r) post (Prog.ask (MxCall.lookup domain) >>= f) a := by
  rw [Prog.ask_bind]
  apply Sat.call (Standing r .nothing began) (standing_stable r .nothing began) holds
  intro a holds answer a' served
  cases served
  exact ⟨.refl r a.memory, rest answer _ ⟨holds.sound, rfl, holds.since, holds.later⟩⟩

theorem store_keeps {answer : LookupAnswer} {hosts : List Host} {err : Option Chars} {ttl : Int}
    (holds : Standing r (.dns domain answer) began a) (came : Resolution domain answer (stored hosts err))
    (lasts : ttl = lifetime r answer) :
    Sat (caching r) (fun _ a => Standing r (.dns domain answer) began a) (store r domain hosts err ttl) a := by
  apply Sat.call (Standing r (.dns domain answer) began) (standing_stable r (.dns domain answer) began) holds
  intro a holds later a' step
  have served : a.serve ⟨.store r domain hosts err ttl, later⟩ = some a' := step
  simp only [Asker.serve] at served
  split at served
  · cases served
  · rename_i forward
    cases served
    have after : a.memory.clock ≤ later := not_lt.mp forward
    have moves : a.memory.Moves r (a.memory.put (.dns domain answer) later domain hosts err ttl) := by
      rw [lasts]
      exact Memory.moves_put after came
    rw [holds.given]
    exact ⟨moves, moves.sound holds.sound, rfl, holds.since, holds.later.trans moves.clock⟩

theorem hosts_served [Text.LowerCase] (name : Chars) (holds : Standing r .nothing began a) :
    Sat (caching r) (Served (mxDomain name)) (hosts r name) a := by
  simp only [hosts]
  split
  · rename_i empty
    exact .nameless empty ⟨_, rfl⟩
  · apply Sat.bind
    apply (cached_probes holds).mono
    intro hit a known
    cases hit with
    | some result => exact known
    | none =>
      apply lookup_asks known
      intro answer a holds
      cases found : answer.found with
      | error text =>
        apply Sat.bind
        apply (store_keeps holds (.failed found) (by simp [lifetime, found])).mono
        intro _ a holds
        exact Served.asked holds.given (.failed found)
      | ok records =>
        have lasts : r.ttl = lifetime r answer := by simp [lifetime, found]
        rcases mapM_hostOf records with ⟨none, null⟩ | ⟨all, full⟩
        · simp only [none]
          apply Sat.bind
          apply (store_keeps holds (.nullMX found null) lasts).mono
          intro _ a holds
          exact Served.asked holds.given (.nullMX found null)
        · have targets : (if records.map MX.target = [] then [{ name := mxDomain name, pref := 0 }]
              else records.map MX.target) = exchangers (mxDomain name) records := by
            simp [exchangers]
          simp only [all, targets]
          apply Sat.bind
          apply (sortHosts_keeps (standing_stable r (.dns (mxDomain name) answer) began) _ holds).mono
          intro hosts a sorted
          obtain ⟨perm, rising⟩ := sorted.1.ranked
          have came : Resolution (mxDomain name) answer (stored hosts none) := .resolved found full perm rising
          apply Sat.bind
          apply (store_keeps sorted.2 came lasts).mono
          intro _ a holds
          exact Served.asked holds.given came

theorem serve_began {event : MxEvent} (served : a.serve event = some a') : a'.began = a.began := by
  obtain ⟨call, answer⟩ := event
  cases call with
  | shuffle n =>
    cases served
    rfl
  | cached own domain =>
    simp only [Asker.serve] at served
    split at served
    · split at served <;>
      · cases served
        rfl
    · cases served
  | lookup domain =>
    cases served
    rfl
  | store own domain hosts err ttl =>
    simp only [Asker.serve] at served
    split at served
    · cases served
    · cases served
      rfl

end Rules

section Lookups
variable [Text.LowerCase]

structure Lookup where
  name : Chars
  began : Int
  source : Source := .nothing
  job : MxJob (Except Chars (List Host))

structure Lookups where
  memory : Memory := {}
  lookups : List Lookup := []

inductive LookupMove where
  | start (name : Chars)
  | work (i : Nat) (event : MxEvent)
  | tick (clock : Int)

def Lookups.next (r : Resolver) (s : Lookups) : LookupMove → Option Lookups
  | .start name => some { s with lookups := { name, began := s.memory.clock, job := hosts r name } :: s.lookups }
  | .work i event => do
    let l ← s.lookups[i]?
    let job ← l.job.step event
    let a ← Asker.serve ⟨s.memory, l.began, l.source⟩ event
    some { memory := a.memory, lookups := s.lookups.set i { l with source := a.source, job } }
  | .tick clock => if clock < s.memory.clock then none else some { s with memory := { s.memory with clock } }

namespace Lookups

variable {r : Resolver} {s s' : Lookups}

/-- Every lookup will be served rightly, whatever the others do in between. -/
structure Sound (r : Resolver) (s : Lookups) : Prop where
  memory : s.memory.Sound r
  lookups : ∀ l ∈ s.lookups, Sat (caching r) (Served (mxDomain l.name)) l.job ⟨s.memory, l.began, l.source⟩

theorem Sound.others {memory : Memory} (sound : s.Sound r) (moves : s.memory.Moves r memory) :
    ∀ l ∈ s.lookups, Sat (caching r) (Served (mxDomain l.name)) l.job ⟨memory, l.began, l.source⟩ := by
  intro l member
  exact (sound.lookups l member).stable (fun _ => served_stable) ⟨moves, rfl, rfl⟩

theorem Sound.next (sound : s.Sound r) {move : LookupMove} (next : s.next r move = some s') : s'.Sound r := by
  cases move with
  | start name =>
    cases next
    have holds : Standing r .nothing s.memory.clock ⟨s.memory, s.memory.clock, .nothing⟩ :=
      ⟨sound.memory, rfl, rfl, le_refl _⟩
    exact ⟨sound.memory, List.forall_mem_cons.mpr ⟨hosts_served name holds, sound.lookups⟩⟩
  | tick clock =>
    simp only [Lookups.next] at next
    split at next
    · cases next
    · rename_i forward
      cases next
      have moves : s.memory.Moves r { s.memory with clock } :=
        ⟨not_lt.mp forward, List.Subset.refl _, fun sound => ⟨sound.bounded, sound.known, sound.genuine⟩⟩
      exact ⟨moves.sound sound.memory, sound.others moves⟩
  | work i event =>
    simp only [Lookups.next, Option.bind_eq_bind, Option.bind_eq_some_iff] at next
    obtain ⟨l, here, job, step, a, served, same⟩ := next
    cases same
    obtain ⟨moves, continued⟩ := (sound.lookups l (List.mem_of_getElem? here)).step step served
    refine ⟨moves.sound sound.memory, ?_⟩
    intro l' member
    rcases List.mem_or_eq_of_mem_set member with other | rfl
    · exact sound.others moves l' other
    · have began : a.began = l.began := serve_began served
      rw [← began]
      exact continued

end Lookups

/-- Whatever is looked up in whatever order, and whatever the DNS answers, the cache stays bounded, every
    entry is what an answer for its domain came to, and a lookup that is not answered by the DNS itself
    gets what was kept for its own domain and was not yet too old. -/
theorem lookups_fresh (ttl clock : Int) (s : Lookups)
    (reachable : Reachable (Lookups.next (.shared ttl)) (fun _ _ => True) { memory := { clock } } s) :
    s.memory.cache.size ≤ maxCacheEntries ∧ (∀ k ∈ s.memory.kept, k.Genuine (.shared ttl)) ∧
      ∀ l ∈ s.lookups, ∀ result, l.job = .done result →
        Served (mxDomain l.name) result ⟨s.memory, l.began, l.source⟩ := by
  have sound : s.Sound (.shared ttl) := by
    apply reachable.invariant (Lookups.Sound (.shared ttl))
    · refine ⟨Memory.sound_empty (.shared ttl) clock, ?_⟩
      intro l none
      cases none
    · intro s move s' sound _ next
      exact sound.next next
  refine ⟨sound.memory.bounded, sound.memory.genuine, ?_⟩
  intro l member result done
  have served := sound.lookups l member
  rw [done] at served
  exact served

end Lookups

section Sample

def Lookup.returned (l : Lookup) : Option (Except Chars (List Host) × Bool) :=
  match l.job, l.source with
  | .done result, .cache _ _ => some (result, true)
  | .done result, _ => some (result, false)
  | .call _ _, _ => none

theorem Lookup.done_of_returned {l : Lookup} {result : Except Chars (List Host)} {hit : Bool}
    (returned : l.returned = some (result, hit)) : l.job = .done result := by
  unfold Lookup.returned at returned
  split at returned <;> cases returned <;> assumption

def twinAnswer : LookupAnswer where
  records := [⟨"b.example.".toList, 10⟩, ⟨"a.example.".toList, 10⟩]

def twinHosts : List Host := [⟨"b.example".toList, 10⟩, ⟨"a.example".toList, 10⟩]

/-- The answer to the first question is served to the second one at the end of its life. -/
def twoLookups : List LookupMove :=
  [.start "Twin.example.".toList, .work 0 ⟨.cached (.shared 0) "twin.example".toList, none⟩,
    .work 0 ⟨.lookup "twin.example".toList, twinAnswer⟩, .work 0 ⟨.shuffle 2, Equiv.refl (Fin 2)⟩,
    .work 0 ⟨.store (.shared 0) "twin.example".toList twinHosts none defaultTTL, 1⟩, .tick defaultTTL,
    .start " TWIN.EXAMPLE".toList, .work 0 ⟨.cached (.shared 0) "twin.example".toList, some (.ok twinHosts)⟩,
    .work 0 ⟨.shuffle 2, Equiv.swap 0 1⟩]

open scoped Text.Ascii in
theorem lookups_fresh_sample : ∃ s l, play (Lookups.next (.shared 0)) (fun _ _ => true) {} twoLookups = some s ∧
    l ∈ s.lookups ∧ l.returned = some (.ok twinHosts.reverse, true) ∧ s.memory.cache.size ≤ maxCacheEntries ∧
    Served (mxDomain l.name) (.ok twinHosts.reverse) ⟨s.memory, l.began, l.source⟩ := by
  have held : (play (Lookups.next (.shared 0)) (fun _ _ => true) {} twoLookups).any (fun s =>
      s.lookups.any fun l => decide (l.returned = some (.ok twinHosts.reverse, true))) = true := by decide
  obtain ⟨s, played, checked⟩ := (Option.any_eq_true _ _).mp held
  obtain ⟨l, member, finished⟩ := List.any_eq_true.mp checked
  have returned : l.returned = some (.ok twinHosts.reverse, true) := of_decide_eq_true finished
  have reachable : Reachable (Lookups.next (.shared 0)) (fun _ _ => True) { memory := { clock := 0 } } s :=
    reachable_of_play (fun _ _ _ => trivial) twoLookups played
  obtain ⟨bounded, _, served⟩ := lookups_fresh 0 0 s reachable
  exact ⟨s, l, played, member, returned, bounded, served l member _ (Lookup.done_of_returned returned)⟩

end Sample

end Mailgw.Deliver
