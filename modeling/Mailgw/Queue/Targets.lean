import Mailgw.Calls.Runs
import Mailgw.Deliver.Exchangers

namespace Mailgw.Queue

open Calls Deliver Lists
open Relays (Group members)

def joinErrors (errs : List Chars) : Option Chars :=
  if errs = [] then none else some (['\n'].intercalate errs)

section Targets
variable [Text.LowerCase]

def expandAll (mx : Option Resolver) : List Relays.Relay → MxJob (List Relays.Relay × List Chars)
  | [] => return ([], [])
  | m :: rest => do
    match ← expand mx m with
    | .error err =>
      let (out, errs) ← expandAll mx rest
      return (out, err :: errs)
    | .ok hosts =>
      let (out, errs) ← expandAll mx rest
      return (hosts ++ out, errs)

def targets (mx : Option Resolver) (group : Option Group) : MxJob (List Relays.Relay × Option Chars) := do
  let members ← Relays.attempts shuffle group
  let needsMX := members.any Relays.Relay.useMX
  if !needsMX then return (members, none)
  else
    let (out, errs) ← expandAll mx members
    return (out, joinErrors errs)

structure Dialling where
  group : Option Group
  given : List Asking := []
  job : MxJob (List Relays.Relay × Option Chars)

structure Fleet where
  dns : Dns := {}
  dialling : List Dialling := []

inductive FleetMove where
  | start (group : Option Group)
  | work (i : Nat) (event : MxEvent)
  | tick (clock : Int)

def Fleet.next (mx : Option Resolver) (s : Fleet) : FleetMove → Option Fleet
  | .start group => some { s with dialling := { group, job := targets mx group } :: s.dialling }
  | .work i event => do
    let a ← s.dialling[i]?
    let job ← a.job.step event
    let v ← DnsView.serve ⟨s.dns, a.given⟩ event
    some { dns := v.dns, dialling := s.dialling.set i { a with given := v.given, job } }
  | .tick clock => if clock < s.dns.clock then none else some { s with dns := { s.dns with clock } }

/-- The members by rising priority, each replaced in its place by what it stands for, and an error
    where nothing is left of them. Every answer that was given went into the place of its member. -/
structure DialList (given : List Asking) (members targets : List Relays.Relay) (err : Option Chars) : Prop where
  replaced : ∃ order steps, order.Perm members ∧ (order.Pairwise fun m m' => m.priority ≤ m'.priority) ∧
    List.Forall₂ (fun m step => Expansion m step ∧ ∀ target ∈ step.2, m.Keeps target) order steps ∧
    given = steps.flatMap Prod.fst ∧ targets = steps.flatMap Prod.snd
  rising : targets.Pairwise fun t t' => t.priority ≤ t'.priority
  told : members ≠ [] → targets = [] → err ≠ none

variable {given : List Asking} {ms out : List Relays.Relay} {errs : List Chars}

def Replaced (given : List Asking) (ms out : List Relays.Relay) (errs : List Chars) : Prop :=
  ∃ steps, List.Forall₂ Expansion ms steps ∧ given = steps.flatMap Prod.fst ∧ out = steps.flatMap Prod.snd ∧
    (errs = [] → ∀ step ∈ steps, step.2 ≠ [])

theorem DialList.of_replaced {order : List Relays.Relay} (shuffled : Shuffled Relays.Relay.priority ms order)
    (sorted : ms.Pairwise fun m m' => m.priority ≤ m'.priority) (came : Replaced given order out errs) :
    DialList given ms out (joinErrors errs) := by
  obtain ⟨steps, each, took, rfl, whole⟩ := came
  have rising : order.Pairwise fun m m' => m.priority ≤ m'.priority := shuffled.pairwise (r := (· ≤ ·)) sorted
  refine ⟨⟨order, steps, shuffled.perm, rising, ?_, took, rfl⟩, ?_, ?_⟩
  · exact each.imp fun m step expansion => ⟨expansion, expansion.keeps⟩
  · apply pairwise_replaced rising
    exact each.imp fun m step expansion target member => (expansion.keeps target member).priority
  · intro some none silent
    have clear : errs = [] := by
      unfold joinErrors at silent
      split at silent
      · assumption
      · cases silent
    cases each with
    | nil => exact some (List.perm_nil.mp shuffled.perm.symm)
    | cons first later =>
      have empty := List.flatMap_eq_nil_iff.mp none _ List.mem_cons_self
      exact whole clear _ List.mem_cons_self empty

theorem replaced_ordinary (plain : ∀ m ∈ ms, m.useMX = false) : Replaced [] ms ms [] := by
  refine ⟨ms.map fun m => ([], [m]), ?_, ?_, ?_, ?_⟩
  · apply List.forall₂_map_right_iff.mpr
    apply List.forall₂_same.mpr
    intro m member
    exact .ordinary (plain m member)
  · simp [List.flatMap_map]
  · simp [List.flatMap_map]
  · simp

theorem expandAll_sat (mx : Option Resolver) (ms : List Relays.Relay) {v : DnsView} (holds : Given given v) :
    Sat resolving (fun result v => ∃ more, Given (given ++ more) v ∧ Replaced more ms result.1 result.2)
      (expandAll mx ms) v := by
  induction ms generalizing given v with
  | nil => exact ⟨[], (List.append_nil given).symm ▸ holds, [], .nil, rfl, rfl, by simp⟩
  | cons m rest ih =>
    apply Sat.bind
    apply (expand_sat mx m holds).mono
    intro result v first
    obtain ⟨own, holds, replaced⟩ := first
    cases result with
    | error err =>
      apply Sat.bind
      apply (ih holds).mono
      intro later v others
      obtain ⟨more, holds, steps, each, took, flat, _⟩ := others
      refine ⟨own ++ more, ?_, (own, []) :: steps, .cons replaced each, ?_, ?_, by simp⟩
      · rw [← List.append_assoc]
        exact holds
      · rw [List.flatMap_cons, ← took]
      · exact flat
    | ok block =>
      apply Sat.bind
      apply (ih holds).mono
      intro later v others
      obtain ⟨more, holds, steps, each, took, flat, whole⟩ := others
      refine ⟨own ++ more, ?_, (own, block) :: steps, .cons replaced.1 each, ?_, ?_, ?_⟩
      · rw [← List.append_assoc]
        exact holds
      · rw [List.flatMap_cons, ← took]
      · rw [List.flatMap_cons, ← flat]
      · intro clear
        exact List.forall_mem_cons.mpr ⟨replaced.2, whole clear⟩

def Dialled (group : Option Group) (result : List Relays.Relay × Option Chars) (v : DnsView) : Prop :=
  ∃ given, Given given v ∧ DialList given (members group) result.1 result.2

theorem dialled_stable (group : Option Group) (result : List Relays.Relay × Option Chars) :
    Stable resolving (Dialled group result) := by
  intro v v' move dialled
  obtain ⟨given, holds, list⟩ := dialled
  exact ⟨given, given_stable given v v' move holds, list⟩

theorem targets_sat (mx : Option Resolver) (group : Option Group) {v : DnsView} (holds : Given [] v) :
    Sat resolving (Dialled group) (targets mx group) v := by
  apply Sat.bind
  apply (Relays.attempts_sat shuffle_sat group holds).mono
  intro order v first
  obtain ⟨shuffled, holds⟩ := first
  have sorted := Relays.members_sorted group
  cases needsMX : order.any Relays.Relay.useMX with
  | false =>
    have plain : ∀ m ∈ order, m.useMX = false := by simpa using needsMX
    exact ⟨[], holds, .of_replaced shuffled sorted (replaced_ordinary plain)⟩
  | true =>
    apply Sat.bind
    apply (expandAll_sat mx order holds).mono
    intro result v came
    obtain ⟨more, holds, replaced⟩ := came
    exact ⟨more, holds, .of_replaced shuffled sorted replaced⟩

namespace Fleet

variable {mx : Option Resolver} {s s' : Fleet}

structure Sound (s : Fleet) : Prop where
  honest : s.dns.Honest
  dialling : ∀ a ∈ s.dialling, Sat resolving (Dialled a.group) a.job ⟨s.dns, a.given⟩

theorem Sound.others {dns : Dns} (sound : s.Sound) (moves : s.dns.Moves dns) :
    ∀ a ∈ s.dialling, Sat resolving (Dialled a.group) a.job ⟨dns, a.given⟩ := by
  intro a member
  exact (sound.dialling a member).stable (dialled_stable a.group) ⟨moves, rfl⟩

theorem Sound.next (sound : s.Sound) {move : FleetMove} (next : s.next mx move = some s') : s'.Sound := by
  cases move with
  | start group =>
    cases next
    have holds : Given [] ⟨s.dns, []⟩ := ⟨sound.honest, rfl, List.nil_subset _⟩
    exact ⟨sound.honest, List.forall_mem_cons.mpr ⟨targets_sat mx group holds, sound.dialling⟩⟩
  | tick clock =>
    simp only [Fleet.next] at next
    split at next
    · cases next
    · cases next
      have moves : s.dns.Moves { s.dns with clock } := ⟨List.Subset.refl _, id⟩
      exact ⟨sound.honest, sound.others moves⟩
  | work i event =>
    simp only [Fleet.next, Option.bind_eq_bind, Option.bind_eq_some_iff] at next
    obtain ⟨a, here, job, step, v, served, same⟩ := next
    cases same
    obtain ⟨moves, continued⟩ := (sound.dialling a (List.mem_of_getElem? here)).step step served
    refine ⟨moves.honest sound.honest, ?_⟩
    intro a' member
    rcases List.mem_or_eq_of_mem_set member with other | rfl
    · exact sound.others moves a' other
    · exact continued

end Fleet

/-- Whatever the shuffles come to, whatever the DNS answers, and whatever other attempts do with the
    resolver in between, an attempt tries its members by rising priority, each replaced in its place by
    what it stands for. -/
theorem targets_dial_list (mx : Option Resolver) (clock : Int) (s : Fleet)
    (reachable : Reachable (Fleet.next mx) (fun _ _ => True) { dns := { clock } } s) (group : Option Group)
    (given : List Asking) (out : List Relays.Relay) (err : Option Chars)
    (done : ⟨group, given, .done (out, err)⟩ ∈ s.dialling) :
    given ⊆ s.dns.asked ∧ DialList given (members group) out err := by
  have sound : s.Sound := by
    apply reachable.invariant Fleet.Sound
    · refine ⟨Dns.honest_empty clock, ?_⟩
      intro a none
      cases none
    · intro s move s' sound _ next
      exact sound.next next
  have dialled : Dialled group (out, err) ⟨s.dns, given⟩ := sound.dialling _ done
  obtain ⟨given', holds, list⟩ := dialled
  have same : given = given' := holds.same
  rw [same]
  exact ⟨holds.asked, list⟩

end Targets

section Sample

def Dialling.dialled (a : Dialling) : Option (List Chars × Option Chars) :=
  match a.job with
  | .done result => some (result.1.map fun m => m.exchange, result.2)
  | .call _ _ => none

theorem Dialling.done_of_dialled {a : Dialling} {names : List Chars} {err : Option Chars}
    (dialled : a.dialled = some (names, err)) : ∃ out, a.job = .done (out, err) ∧ (out.map fun m => m.exchange) = names := by
  unfold Dialling.dialled at dialled
  split at dialled
  · rename_i result finished
    cases dialled
    exact ⟨result.1, finished, rfl⟩
  · cases dialled

def smartHost : Relays.Relay := { name := "smart".toList, exchange := "smart.example".toList, port := 587, priority := 10 }

def brokenDomain : Relays.Relay := { name := "broken".toList, exchange := "broken.example".toList, port := 25, useMX := true }

def partnerDomain : Relays.Relay := { name := "partner".toList, exchange := "Partner.example.".toList, port := 25, useMX := true }

def outboundGroup : Group := Relays.newGroup "Outbound".toList [smartHost, brokenDomain, partnerDomain]

def partnerAnswer : LookupAnswer where
  records := [⟨"backup.example.".toList, 20⟩, ⟨"mx1.example.".toList, 10⟩, ⟨"mx2.example.".toList, 10⟩]

def servFail : LookupAnswer where
  err := some { text := "server misbehaving".toList }

def partnerHosts : List Host :=
  [⟨"mx2.example".toList, 10⟩, ⟨"mx1.example".toList, 10⟩, ⟨"backup.example".toList, 20⟩]

def servFailText : Chars := "mx broken.example: server misbehaving".toList

def swapped : Equiv.Perm (Fin 2) := Equiv.swap ⟨0, Nat.two_pos⟩ ⟨1, Nat.one_lt_two⟩

/-- The first attempt asks the DNS, and the second one finds both answers in the cache. -/
def twoAttempts : List FleetMove :=
  [.start (some outboundGroup), .work 0 ⟨.shuffle 2, swapped⟩,
    .work 0 ⟨.cached (.shared 0) "partner.example".toList, none⟩,
    .work 0 ⟨.lookup "partner.example".toList, partnerAnswer⟩, .work 0 ⟨.shuffle 2, swapped⟩,
    .work 0 ⟨.store (.shared 0) "partner.example".toList partnerHosts none defaultTTL, 5⟩,
    .work 0 ⟨.cached (.shared 0) "broken.example".toList, none⟩,
    .work 0 ⟨.lookup "broken.example".toList, servFail⟩,
    .work 0 ⟨.store (.shared 0) "broken.example".toList [] (some servFailText) negativeTTL, 6⟩,
    .start (some outboundGroup), .work 0 ⟨.shuffle 2, Equiv.refl (Fin 2)⟩,
    .work 0 ⟨.cached (.shared 0) "broken.example".toList, some (.error servFailText)⟩,
    .work 0 ⟨.cached (.shared 0) "partner.example".toList, some (.ok partnerHosts)⟩, .work 0 ⟨.shuffle 2, swapped⟩]

open scoped Text.Ascii in
theorem targets_dial_list_sample : ∃ s a out, play (Fleet.next (some (.shared 0))) (fun _ _ => true) {} twoAttempts = some s ∧
    a ∈ s.dialling ∧ a.job = .done (out, some servFailText) ∧
    (out.map fun m => m.exchange) =
      ["mx1.example".toList, "mx2.example".toList, "backup.example".toList, "smart.example".toList] ∧
    DialList a.given (members a.group) out (some servFailText) := by
  have held : (play (Fleet.next (some (.shared 0))) (fun _ _ => true) {} twoAttempts).any (fun s =>
      s.dialling.any fun a => decide (a.dialled = some (["mx1.example".toList, "mx2.example".toList,
        "backup.example".toList, "smart.example".toList], some servFailText))) = true := by decide +kernel
  obtain ⟨s, played, checked⟩ := (Option.any_eq_true _ _).mp held
  obtain ⟨a, member, finished⟩ := List.any_eq_true.mp checked
  obtain ⟨out, done, names⟩ := Dialling.done_of_dialled (of_decide_eq_true finished)
  have reachable : Reachable (Fleet.next (some (.shared 0))) (fun _ _ => True) { dns := { clock := 0 } } s :=
    reachable_of_play (fun _ _ _ => trivial) twoAttempts played
  have here : ⟨a.group, a.given, .done (out, some servFailText)⟩ ∈ s.dialling := by
    rw [← done]
    exact member
  obtain ⟨_, list⟩ := targets_dial_list (some (.shared 0)) 0 s reachable a.group a.given out (some servFailText) here
  exact ⟨s, a, out, played, member, done, names, list⟩

end Sample

end Mailgw.Queue
