import Mailgw.Lists.Replace
import Mailgw.Node.Spooling

namespace Mailgw.Node

open Calls Deliver Queue Smtp Text Lists

structure Rooted (roots : List Name) (taken : List Grant) : Prop where
  distinct : taken.Nodup
  below : ∀ entry ∈ taken, ∃ root ∈ roots, Within '.' root entry.2
  plain : ∀ root ∈ roots, '.' ∉ root
  shallow : ∀ entry ∈ taken, entry.2.count '.' ≤ 3
  deep : ∀ u, (.envelope, u) ∈ taken → 2 ≤ u.count '.'

/-- What is named after a transaction has been named by its DATA, or after an envelope of it. -/
def Owned (txn : Name) (own taken : List Grant) : Prop :=
  ∀ entry ∈ taken, Within '.' txn entry.2 → entry ∈ own ∨ ∃ u, (.envelope, u) ∈ own ∧ Within '.' u entry.2

/-- The transactions of a connection are numbered, and nothing is named after one before its DATA. -/
structure Talk.Sound (roots : List Name) (taken : List Grant) (t : Talk) : Prop where
  root : t.session.connUUID ∈ roots
  seq : ∀ entry ∈ taken, ∀ k, Within '.' (childID t.session.connUUID k) entry.2 → k ≤ t.session.txnSeq
  idle : t.filing = none → t.session.haveMail = true →
    t.session.txnUUID = childID t.session.connUUID t.session.txnSeq ∧
      ∀ entry ∈ taken, ¬ Within '.' t.session.txnUUID entry.2
  busy : ∀ p, t.filing = some p → (∃ result, p = .done result ∧ t.session.SameTxn result.1) ∨
    t.session.txnUUID = childID t.session.connUUID t.session.txnSeq ∧
      ∃ own, Follows (naming t.session.txnUUID) (fun result _ => t.session.SameTxn result.1) p own ∧
        Owned t.session.txnUUID own taken

/-- A file is that of an envelope that was named once. Only mail is answered. -/
structure Known (taken : List Grant) (e : Envelope) : Prop where
  named : (.envelope, e.uuid) ∈ taken
  mail : suppress e = false → e.uuid.count '.' = 2

def Counted (taken : List Grant) (e : Envelope) : Prop :=
  suppress e = false → ∀ label k, (label, childID e.uuid k) ∈ taken → k ≤ e.dsnSeq

/-- The notifications about an envelope are those it counted when it was claimed, and those of the
    attempt on it. -/
def Tallied (taken : List Grant) (e : Envelope) (n : Numbers) : Prop :=
  suppress e = false → ∀ label k, (label, childID e.uuid k) ∈ taken → k ≤ e.dsnSeq ∨ (label, childID e.uuid k) ∈ n.taken

structure Worker.Sound (taken : List Grant) (w : Worker) : Prop where
  known : Known taken w.file
  silent : w.saved = true → ∀ job, w.job = some job → job.All fun c => ¬ c.Tells
  numbers : w.saved = false → ∀ job, w.job = some job → ∃ n,
    Follows (numbering w.file.uuid (suppress w.file) w.file.dsnSeq) (fun _ _ => True) job n ∧ Tallied taken w.file n

def Worker.live (w : Worker) : List Name := if w.saved || w.job.isNone then [] else [w.file.uuid]

def Gateway.live (g : Gateway) : List Name := g.ready.map Envelope.uuid ++ g.workers.flatMap Worker.live

structure Sound (g : Gateway) : Prop where
  rooted : Rooted g.roots g.taken
  talks : ∀ t ∈ g.talks, t.Sound g.roots g.taken
  apart : (g.talks.map fun t => t.session.connUUID).Nodup
  ready : ∀ e ∈ g.ready, Known g.taken e
  counted : g.recovering = none → ∀ e ∈ g.ready, Counted g.taken e
  workers : ∀ w ∈ g.workers, w.Sound g.taken
  live : g.live.Nodup
  idle : g.recovering.isSome = true → ∀ w ∈ g.workers, w.job = none

section Names
variable {roots : List Name} {taken own : List Grant} {t : Talk} {v x : Name} {label : Label}

theorem root_unique {r r' : Name} (plain : '.' ∉ r) (plain' : '.' ∉ r') (first : Within '.' r x)
    (second : Within '.' r' x) : r = r' := by
  have flat {p q : Name} (none : '.' ∉ q) (within : Within '.' p q) : p = q := by
    rcases within with same | ⟨rest, rfl⟩
    · exact same.symm
    · exact absurd (by simp) none
  rcases first.tree second with outer | inner
  · exact flat plain' outer
  · exact (flat plain inner).symm

theorem Talk.Sound.count_txn (rooted : Rooted roots taken) (sound : t.Sound roots taken) (k : Nat) :
    (childID t.session.connUUID k).count '.' = 1 := by
  rw [count_childID, List.count_eq_zero.mpr (rooted.plain _ sound.root)]

theorem Talk.Sound.notice (rooted : Rooted roots taken) (sound : t.Sound roots taken) (parent : (.envelope, v) ∈ taken)
    (k : Nat) : t.Sound roots ((label, childID v k) :: taken) := by
  have deep := rooted.deep v parent
  have above : ∀ {txn : Name}, txn.count '.' = 1 → Within '.' txn (childID v k) → Within '.' txn v := by
    intro txn count within
    rcases within_of_childID within with same | outer
    · rw [same, count_childID] at count
      omega
    · exact outer
  constructor
  · exact sound.root
  · intro entry member j within
    rcases List.mem_cons.mp member with rfl | old
    · exact sound.seq _ parent j (above (sound.count_txn rooted j) within)
    · exact sound.seq entry old j within
  · intro free mail
    obtain ⟨txn, unnamed⟩ := sound.idle free mail
    refine ⟨txn, fun entry member within => ?_⟩
    rcases List.mem_cons.mp member with rfl | old
    · exact unnamed _ parent (above (by rw [txn]; exact sound.count_txn rooted _) within)
    · exact unnamed entry old within
  · intro p filing
    rcases sound.busy p filing with done | ⟨txn, own, follows, owned⟩
    · exact .inl done
    · refine .inr ⟨txn, own, follows, fun entry member within => ?_⟩
      rcases List.mem_cons.mp member with rfl | old
      · rcases owned _ parent (above (by rw [txn]; exact sound.count_txn rooted _) within) with mine | ⟨u, mine, outer⟩
        · exact .inr ⟨v, mine, within_childID v k⟩
        · exact .inr ⟨u, mine, outer.trans (within_childID v k)⟩
      · exact owned entry old within

theorem Talk.Sound.foreign (rooted : Rooted roots taken) (sound : t.Sound roots taken) {root : Name}
    (theirs : root ∈ roots) (other : root ≠ t.session.connUUID) (within : Within '.' root x) :
    t.Sound roots ((label, x) :: taken) := by
  have outside : ∀ {k : Nat}, ¬ Within '.' (childID t.session.connUUID k) x := by
    intro k inside
    have mine := (within_childID t.session.connUUID k).trans inside
    exact other (root_unique (rooted.plain _ theirs) (rooted.plain _ sound.root) within mine)
  constructor
  · exact sound.root
  · intro entry member j inside
    rcases List.mem_cons.mp member with rfl | old
    · exact (outside inside).elim
    · exact sound.seq entry old j inside
  · intro free mail
    obtain ⟨txn, unnamed⟩ := sound.idle free mail
    refine ⟨txn, fun entry member inside => ?_⟩
    rcases List.mem_cons.mp member with rfl | old
    · rw [txn] at inside
      exact outside inside
    · exact unnamed entry old inside
  · intro p filing
    rcases sound.busy p filing with done | ⟨txn, own, follows, owned⟩
    · exact .inl done
    · refine .inr ⟨txn, own, follows, fun entry member inside => ?_⟩
      rcases List.mem_cons.mp member with rfl | old
      · rw [txn] at inside
        exact (outside inside).elim
      · exact owned entry old inside

theorem Talk.Sound.grow (sound : t.Sound roots taken) (root : Name) : t.Sound (root :: roots) taken :=
  ⟨List.mem_cons_of_mem _ sound.root, sound.seq, sound.idle, sound.busy⟩

theorem Known.cons {e : Envelope} (known : Known taken e) (entry : Grant) : Known (entry :: taken) e :=
  ⟨List.mem_cons_of_mem _ known.named, known.mail⟩

theorem Owned.apart {txn : Name} (owned : Owned txn own taken) (fits : Fits txn own label x) (known : (.envelope, v) ∈ taken)
    (deeper : txn.count '.' < v.count '.') : ¬ Within '.' v x := by
  intro within
  rcases fits.within.tree within with outer | inner
  · rcases owned _ known outer with mine | ⟨u, mine, above⟩
    · exact fits.apart v mine within
    · exact fits.apart u mine (above.trans within)
  · have less := inner.count_le
    omega

theorem Owned.fresh {txn : Name} (owned : Owned txn own taken) (fits : Fits txn own label x) : (label, x) ∉ taken := by
  intro member
  rcases owned _ member fits.within with mine | ⟨u, mine, above⟩
  · exact fits.fresh mine
  · exact fits.apart u mine above

theorem Owned.give {txn : Name} (owned : Owned txn own taken) (entry : Grant) :
    Owned txn (own ++ [entry]) (entry :: taken) := by
  intro entry' member within
  rcases List.mem_cons.mp member with rfl | old
  · exact .inl (by simp)
  · rcases owned entry' old within with mine | ⟨u, mine, above⟩
    · exact .inl (by simp [mine])
    · exact .inr ⟨u, by simp [mine], above⟩

theorem Counted.cons {e : Envelope} (counted : Counted taken e) (apart : ∀ k, x ≠ childID e.uuid k) :
    Counted ((label, x) :: taken) e := by
  intro answerable label' k member
  rcases List.mem_cons.mp member with same | old
  · exact (apart k (Prod.mk.inj same).2.symm).elim
  · exact counted answerable label' k old

theorem Tallied.cons {e : Envelope} {n : Numbers} (tallied : Tallied taken e n) (apart : ∀ k, x ≠ childID e.uuid k) :
    Tallied ((label, x) :: taken) e n := by
  intro answerable label' k member
  rcases List.mem_cons.mp member with same | old
  · exact (apart k (Prod.mk.inj same).2.symm).elim
  · exact tallied answerable label' k old

theorem Worker.Sound.cons {w : Worker} (sound : w.Sound taken)
    (apart : w.saved = false → w.job.isSome = true → ∀ k, x ≠ childID w.file.uuid k) :
    w.Sound ((label, x) :: taken) where
  known := sound.known.cons _
  silent := sound.silent
  numbers unsaved job working := by
    obtain ⟨n, follows, tallied⟩ := sound.numbers unsaved job working
    exact ⟨n, follows, tallied.cons (apart unsaved (by rw [working]; rfl))⟩

theorem Rooted.cons (rooted : Rooted roots taken) {entry : Grant} (fresh : entry ∉ taken)
    (below : ∃ root ∈ roots, Within '.' root entry.2) (shallow : entry.2.count '.' ≤ 3)
    (deep : entry.1 = .envelope → 2 ≤ entry.2.count '.') : Rooted roots (entry :: taken) where
  distinct := List.nodup_cons.mpr ⟨fresh, rooted.distinct⟩
  below entry' member := by
    rcases List.mem_cons.mp member with rfl | old
    · exact below
    · exact rooted.below entry' old
  plain := rooted.plain
  shallow entry' member := by
    rcases List.mem_cons.mp member with rfl | old
    · exact shallow
    · exact rooted.shallow entry' old
  deep u member := by
    rcases List.mem_cons.mp member with rfl | old
    · exact deep rfl
    · exact rooted.deep u old

end Names

section Steps
variable {g : Gateway} {i : Nat} {w w' : Worker}

theorem live_mem {e : Envelope} (member : e ∈ g.ready) : e.uuid ∈ g.live :=
  List.mem_append_left _ (List.mem_map_of_mem member)

theorem live_working (member : w ∈ g.workers) (unsaved : w.saved = false) (working : w.job.isSome = true) :
    w.file.uuid ∈ g.live := by
  have alive : w.file.uuid ∈ w.live := by simp [Worker.live, unsaved, Option.isSome_iff_ne_none.mp working]
  exact List.mem_append_right _ (List.mem_flatMap.mpr ⟨w, member, alive⟩)

theorem Sound.live_named (sound : Sound g) {u : Name} (member : u ∈ g.live) : (.envelope, u) ∈ g.taken := by
  rcases List.mem_append.mp member with queued | working
  · obtain ⟨e, there, rfl⟩ := List.mem_map.mp queued
    exact (sound.ready e there).named
  · obtain ⟨w, there, alive⟩ := List.mem_flatMap.mp working
    simp only [Worker.live] at alive
    split at alive
    · cases alive
    · rw [List.mem_singleton.mp alive]
      exact (sound.workers w there).known.named

theorem Sound.named (sound : Sound g) {entry : Grant} (talks : List Talk)
    (conns : talks.map (fun t => t.session.connUUID) = g.talks.map fun t => t.session.connUUID)
    (rooted : Rooted g.roots (entry :: g.taken)) (heard : ∀ t ∈ talks, t.Sound g.roots (entry :: g.taken))
    (apart : ∀ u ∈ g.live, ∀ k, entry.2 ≠ childID u k) : Sound { g with talks, taken := entry :: g.taken } where
  rooted := rooted
  talks := heard
  apart := conns ▸ sound.apart
  ready e member := (sound.ready e member).cons entry
  counted free e member := (sound.counted free e member).cons (apart _ (live_mem member))
  workers w member :=
    (sound.workers w member).cons fun unsaved working => apart _ (live_working member unsaved working)
  live := sound.live
  idle := sound.idle

theorem Sound.queued (sound : Sound g) {e : Envelope} (known : Known g.taken e) (counted : Counted g.taken e)
    (fresh : e.uuid ∉ g.live) : Sound { g with ready := e :: g.ready } where
  rooted := sound.rooted
  talks := sound.talks
  apart := sound.apart
  ready e' member := by
    rcases List.mem_cons.mp member with rfl | old
    · exact known
    · exact sound.ready e' old
  counted free e' member := by
    rcases List.mem_cons.mp member with rfl | old
    · exact counted
    · exact sound.counted free e' old
  workers := sound.workers
  live := List.nodup_cons.mpr ⟨fresh, sound.live⟩
  idle := sound.idle

theorem Sound.set_worker (sound : Sound g) (new : w'.Sound g.taken) (live : Gateway.live { g with workers := g.workers.set i w' } |>.Nodup)
    (idle : g.recovering.isSome = true → w'.job = none) : Sound { g with workers := g.workers.set i w' } where
  rooted := sound.rooted
  talks := sound.talks
  apart := sound.apart
  ready := sound.ready
  counted := sound.counted
  workers w member := by
    rcases mem_replace member with rfl | old
    · exact new
    · exact sound.workers w old
  live := live
  idle recovering w member := by
    rcases mem_replace member with rfl | old
    · exact idle recovering
    · exact sound.idle recovering w old

theorem Sound.set_talk (sound : Sound g) {t t' : Talk} (at_ : g.talks[i]? = some t)
    (conn : t'.session.connUUID = t.session.connUUID) (new : t'.Sound g.roots g.taken) :
    Sound { g with talks := g.talks.set i t' } where
  rooted := sound.rooted
  talks t member := by
    rcases mem_replace member with rfl | old
    · exact new
    · exact sound.talks t old
  apart := by
    rw [map_replace _ at_ conn]
    exact sound.apart
  ready := sound.ready
  counted := sound.counted
  workers := sound.workers
  live := sound.live
  idle := sound.idle

theorem count_live (at_ : g.workers[i]? = some w) (w' : Worker) (u : Name) :
    (Gateway.live { g with workers := g.workers.set i w' }).count u + w.live.count u = g.live.count u + w'.live.count u := by
  have replaced := count_flatMap_replace (y := w') Worker.live at_ u
  simp only [Gateway.live, List.count_append]
  omega

theorem live_replace (at_ : g.workers[i]? = some w) (same : w'.live = w.live) :
    Gateway.live { g with workers := g.workers.set i w' } = g.live := by
  simp only [Gateway.live]
  rw [flatMap_replace _ at_ same]

/-- A notification of an attempt. The name is a new one, and only the attempt itself writes about
    the envelope. -/
theorem Sound.notified (sound : Sound g) (at_ : g.workers[i]? = some w) (unsaved : w.saved = false)
    (working : w.job.isSome = true) (answerable : suppress w.file = false) {label : Label} {k : Nat}
    (fresh : (label, childID w.file.uuid k) ∉ g.taken) (same : w'.live = w.live)
    (new : w'.Sound ((label, childID w.file.uuid k) :: g.taken)) (idle : g.recovering.isSome = true → w'.job = none) :
    Sound { g with workers := g.workers.set i w', taken := (label, childID w.file.uuid k) :: g.taken } := by
  have member : w ∈ g.workers := List.mem_of_getElem? at_
  have known := (sound.workers w member).known
  have level := known.mail answerable
  have alive : w.live = [w.file.uuid] := by simp [Worker.live, unsaved, Option.isSome_iff_ne_none.mp working]
  -- without its job, the attempt is not among those that may still write about the envelope
  let w₀ : Worker := { w with job := none }
  have gone : w₀.live = [] := by simp [w₀, Worker.live]
  have sole := List.nodup_iff_count_le_one.mp sound.live
  have left : ∀ u, (Gateway.live { g with workers := g.workers.set i w₀ }).count u + [w.file.uuid].count u = g.live.count u := by
    intro u
    have counts := count_live at_ w₀ u
    rw [alive, gone, List.count_nil] at counts
    exact counts
  have resting : w₀.Sound g.taken := by
    refine ⟨known, fun _ job missing => ?_, fun _ job missing => ?_⟩ <;> cases missing
  have still : Sound { g with workers := g.workers.set i w₀ } := by
    apply sound.set_worker resting _ fun _ => rfl
    apply List.nodup_iff_count_le_one.mpr
    intro u
    have counts := left u
    have most := sole u
    omega
  have rooted : Rooted g.roots ((label, childID w.file.uuid k) :: g.taken) := by
    apply sound.rooted.cons fresh
    · obtain ⟨root, there, within⟩ := sound.rooted.below _ known.named
      exact ⟨root, there, within.trans (within_childID _ _)⟩
    · rw [count_childID]
      omega
    · rw [count_childID]
      omega
  have heard : ∀ t ∈ g.talks, t.Sound g.roots ((label, childID w.file.uuid k) :: g.taken) :=
    fun t there => (sound.talks t there).notice sound.rooted known.named k
  have apart : ∀ u ∈ Gateway.live { g with workers := g.workers.set i w₀ }, ∀ j, childID w.file.uuid k ≠ childID u j := by
    intro u there j clash
    obtain ⟨rfl, -⟩ := childID_inj clash
    have counts := left w.file.uuid
    have most := sole w.file.uuid
    have some := List.count_pos_iff.mpr there
    rw [List.count_singleton_self] at counts
    omega
  have told := still.named g.talks rfl rooted heard apart
  have back := told.set_worker (i := i) new (by
    show (Gateway.live { g with workers := (g.workers.set i w₀).set i w' }).Nodup
    rw [List.set_set, live_replace at_ same]
    exact sound.live) idle
  rwa [List.set_set] at back

theorem record_untold {event : Happening} (untold : ¬ event.1.Tells) (despite : Bool) :
    g.record despite (Calls.left event) = g := by
  obtain ⟨request, answer⟩ := event
  cases request <;> first | rfl | exact (untold trivial).elim

theorem Tallied.fresh {taken : List Grant} {e : Envelope} {n : Numbers} (tallied : Tallied taken e n)
    (answerable : suppress e = false) {label : Label} {k : Nat} (later : e.dsnSeq < k)
    (highest : ∀ j, (label, childID e.uuid j) ∈ n.taken → j < k) : (label, childID e.uuid k) ∉ taken := by
  intro member
  rcases tallied answerable label k member with early | given
  · omega
  · exact lt_irrefl k (highest k given)

theorem Tallied.give {taken : List Grant} {e : Envelope} {n : Numbers} (tallied : Tallied taken e n) (entry : Grant)
    (ended : Bool) : Tallied (entry :: taken) e ⟨n.taken ++ [entry], ended⟩ := by
  intro answerable label k member
  rcases List.mem_cons.mp member with same | old
  · exact .inr (List.mem_append_right _ (by simp [same]))
  · rcases tallied answerable label k old with early | given
    · exact .inl early
    · exact .inr (List.mem_append_left _ given)

theorem Sound.work (sound : Sound g) (at_ : g.workers[i]? = some w) {job left : Job Unit} (working : w.job = some job)
    {event : Happening} (step : job.step event = some left) (filed despite : Bool) :
    Sound (({ g with workers := g.workers.set i { w with job := some left, filed } } : Gateway).record despite
      (Calls.left event)) := by
  have member : w ∈ g.workers := List.mem_of_getElem? at_
  obtain ⟨known, silent, numbers⟩ := sound.workers w member
  have busy : w.job.isSome = true := by rw [working]; rfl
  have up : g.recovering.isSome = true → (some left : Option (Job Unit)) = none := by
    intro recovering
    have idle := sound.idle recovering w member
    rw [working] at idle
    cases idle
  generalize replaced : ({ w with job := some left, filed } : Worker) = w'
  have same : w'.live = w.live := by simp [← replaced, Worker.live, working]
  have up' : g.recovering.isSome = true → w'.job = none := by
    rw [← replaced]
    exact up
  have live : (Gateway.live { g with workers := g.workers.set i w' }).Nodup := by
    rw [live_replace at_ same]
    exact sound.live
  cases saved : w.saved with
  | true =>
    obtain ⟨next, rfl, rfl⟩ := Prog.step_inv step
    have quiet := silent saved _ working
    rw [record_untold quiet.1]
    apply sound.set_worker _ live up'
    rw [← replaced]
    refine ⟨known, fun _ job' went => ?_, fun unsaved => ?_⟩
    · cases went
      exact quiet.2 event.2
    · rw [saved] at unsaved
      cases unsaved
  | false =>
    obtain ⟨n, follows, tallied⟩ := numbers saved job working
    obtain ⟨may, onward⟩ := follows.step trivial step
    have sound' : ∀ {taken : List Grant} {n' : Numbers}, Known taken w.file → Tallied taken w.file n' →
        Follows (numbering w.file.uuid (suppress w.file) w.file.dsnSeq) (fun _ _ => True) left n' → w'.Sound taken := by
      intro taken n' known' tallied' follows'
      rw [← replaced]
      refine ⟨known', fun already => ?_, fun _ job' went => ?_⟩
      · rw [saved] at already
        cases already
      · cases went
        exact ⟨n', follows', tallied'⟩
    obtain ⟨request, answer⟩ := event
    cases request with
    | writeBody id content =>
      obtain ⟨goes, answerable, k, rfl, later, highest⟩ := may
      exact sound.notified at_ saved busy answerable (tallied.fresh answerable later highest) same
        (sound' (known.cons _) (tallied.give _ _) onward) up'
    | enqueue note =>
      obtain ⟨goes, answerable, mute, k, named, later, highest⟩ := may
      have fresh := tallied.fresh answerable later highest
      have onward' : Follows (numbering w.file.uuid (suppress w.file) w.file.dsnSeq) (fun _ _ => True) left
          ⟨n.taken ++ [(.envelope, note.uuid)], n.ended⟩ := onward
      rw [named] at onward'
      have told := sound.notified at_ saved busy answerable fresh same
        (sound' (known.cons _) (tallied.give _ _) onward') up'
      have filed : (.envelope, note.uuid) ∈ (.envelope, childID w.file.uuid k) :: g.taken := by simp [named]
      have unanswered : suppress note = false → False := by simp [mute]
      have new : note.uuid ∉ Gateway.live { g with workers := g.workers.set i w' } := by
        rw [live_replace at_ same, named]
        exact fun alive => fresh (sound.live_named alive)
      show Sound { g with
        workers := g.workers.set i w', taken := (.envelope, note.uuid) :: g.taken
        ready := if Option.isNone answer || despite then note :: g.ready else g.ready }
      rw [named]
      split
      · exact told.queued ⟨filed, fun unmuted => (unanswered unmuted).elim⟩ (fun unmuted => (unanswered unmuted).elim) new
      · exact told
    | reschedule | complete | bury =>
      have ended : Tallied g.taken w.file { n with ended := true } := tallied
      rw [record_untold id]
      exact sound.set_worker (sound' known ended onward) live up'
    | _ =>
      rw [record_untold id]
      exact sound.set_worker (sound' known tallied onward) live up'

theorem untold_of_over {uuid : Name} {muted : Bool} {first : Nat} {post : Unit → Numbers → Prop} {p : Job Unit}
    {n : Numbers} (follows : Follows (numbering uuid muted first) post p n) (ended : n.ended = true) :
    p.All fun c => ¬ c.Tells := by
  induction p generalizing n with
  | done value => exact trivial
  | call c next ih =>
    obtain ⟨may, onward⟩ := follows
    cases c with
    | writeBody | enqueue | reschedule | complete | bury =>
      have open_ := may.1
      rw [ended] at open_
      cases open_
    | _ => exact ⟨id, fun answer => ih answer (onward answer trivial) ended⟩

theorem Sound.shelve (sound : Sound g) (shelved : List Name) : Sound { g with shelved } :=
  ⟨sound.rooted, sound.talks, sound.apart, sound.ready, sound.counted, sound.workers, sound.live, sound.idle⟩

theorem Sound.save (sound : Sound g) {g' : Gateway} (at_ : g.workers[i]? = some w) (unsaved : w.saved = false)
    {request : Effect} {next : request.Answer → Job Unit} (working : w.job = some (.call request next))
    (published : g.publish i w request = some g') : Sound g' := by
  have member : w ∈ g.workers := List.mem_of_getElem? at_
  obtain ⟨known, -, numbers⟩ := sound.workers w member
  obtain ⟨n, follows, tallied⟩ := numbers unsaved _ working
  obtain ⟨may, onward⟩ := follows
  let w' : Worker := { w with saved := true }
  have up : g.recovering.isSome = true → w'.job = none := by
    intro recovering
    have idle := sound.idle recovering w member
    rw [working] at idle
    cases idle
  have left : ∀ u, (Gateway.live { g with workers := g.workers.set i w' }).count u + [w.file.uuid].count u = g.live.count u := by
    intro u
    have counts := count_live at_ w' u
    have alive : w.live = [w.file.uuid] := by simp [Worker.live, unsaved, working]
    have gone : w'.live = [] := by simp [w', Worker.live]
    rw [alive, gone, List.count_nil] at counts
    exact counts
  have sole := List.nodup_iff_count_le_one.mp sound.live
  have live : (Gateway.live { g with workers := g.workers.set i w' }).Nodup := by
    apply List.nodup_iff_count_le_one.mpr
    intro u
    have counts := left u
    have most := sole u
    omega
  have resting (untold : ¬ request.Tells) (ended : ∀ answer, ((numbering w.file.uuid (suppress w.file) w.file.dsnSeq).after
      request answer n).ended = true) : w'.Sound g.taken := by
    refine ⟨known, fun _ job went => ?_, fun clash => by cases clash⟩
    rw [show w'.job = w.job from rfl, working] at went
    cases went
    exact ⟨untold, fun answer => untold_of_over (onward answer trivial) (ended answer)⟩
  cases request with
  | reschedule inflight e due =>
    obtain ⟨goes, named, mute, first, highest⟩ := may
    cases published
    have still := sound.set_worker (resting id fun _ => rfl) live up
    have fresh : (e.dueAt (Instant.ofNanos due)).uuid ∉ Gateway.live { g with workers := g.workers.set i w' } := by
      rw [Envelope.dueAt_uuid, named]
      intro there
      have counts := left w.file.uuid
      have most := sole w.file.uuid
      have some := List.count_pos_iff.mpr there
      rw [List.count_singleton_self] at counts
      omega
    apply still.queued _ _ fresh
    · refine ⟨by rw [Envelope.dueAt_uuid, named]; exact known.named, fun answerable => ?_⟩
      rw [Envelope.dueAt_uuid, named]
      exact known.mail (mute.symm.trans answerable)
    · intro answerable label k taken
      rw [Envelope.dueAt_uuid, named] at taken
      rcases tallied (mute.symm.trans answerable) label k taken with early | given
      · exact le_trans early first
      · exact highest label k given
  | bury inflight e =>
    cases published
    exact (sound.set_worker (resting id fun _ => rfl) live up).shelve _
  | _ => cases published

theorem Sound.talk_unique (sound : Sound g) {t t' : Talk} {j : Nat} (at_ : g.talks[j]? = some t) (at_' : g.talks[i]? = some t')
    (same : t.session.connUUID = t'.session.connUUID) : j = i := by
  have short := (List.getElem?_eq_some_iff.mp at_).1
  apply (List.getElem?_inj (by simpa using short) sound.apart).mp
  rw [List.getElem?_map, List.getElem?_map, at_, at_', Option.map_some, Option.map_some, same]

theorem Sound.file (sound : Sound g) {t : Talk} (at_ : g.talks[i]? = some t) {p left : Filing (Session × Smtp.Reply)}
    (filing : t.filing = some p) {event : Filed} (step : p.step event = some left) (despite : Bool) :
    Sound (({ g with talks := g.talks.set i { t with filing := some left } } : Gateway).record despite event) := by
  have member : t ∈ g.talks := List.mem_of_getElem? at_
  have own := sound.talks t member
  rcases own.busy p filing with ⟨result, rfl, -⟩ | ⟨txn, names, follows, owned⟩
  · cases step
  obtain ⟨may, onward⟩ := follows.step trivial step
  let t' : Talk := { t with filing := some left }
  have root := own.root
  have plain := sound.rooted.plain _ root
  have level : t.session.txnUUID.count '.' = 1 := by
    rw [txn]
    exact own.count_txn sound.rooted _
  have conns : (g.talks.set i t').map (fun t => t.session.connUUID) = g.talks.map fun t => t.session.connUUID :=
    map_replace _ at_ rfl
  have next {taken names' : List Grant} (seq : ∀ entry ∈ taken, ∀ k,
      Within '.' (childID t.session.connUUID k) entry.2 → k ≤ t.session.txnSeq) (owned' : Owned t.session.txnUUID names' taken)
      (follows' : Follows (naming t.session.txnUUID) (fun result _ => t.session.SameTxn result.1) left names') :
      t'.Sound g.roots taken := by
    constructor
    · exact root
    · exact seq
    · intro free
      cases free
    · intro p' went
      cases went
      exact .inr ⟨txn, names', follows', owned'⟩
  have named {label : Label} {id : Name} (fits : Fits t.session.txnUUID names label id)
      (deep : label = .envelope → t.session.txnUUID.count '.' < id.count '.')
      (follows' : Follows (naming t.session.txnUUID) (fun result _ => t.session.SameTxn result.1) left (names ++ [(label, id)])) :
      Sound { g with talks := g.talks.set i t', taken := (label, id) :: g.taken } := by
    have inner : Within '.' (childID t.session.connUUID t.session.txnSeq) id := txn ▸ fits.within
    have below : Within '.' t.session.connUUID id := (within_childID _ _).trans inner
    apply sound.named _ conns
    · apply sound.rooted.cons (owned.fresh fits) ⟨_, root, below⟩
      · have shallow := fits.shallow
        dsimp only
        omega
      · intro same
        have deeper := deep same
        dsimp only
        omega
    · intro t'' there
      obtain ⟨j, at_'⟩ := List.mem_iff_getElem?.mp there
      rcases getElem?_replace at_' with ⟨-, rfl⟩ | ⟨elsewhere, old⟩
      · apply next _ (owned.give _) follows'
        intro entry listed k inside
        rcases List.mem_cons.mp listed with rfl | earlier
        · exact le_of_eq (childID_branch inside inner)
        · exact own.seq entry earlier k inside
      · apply (sound.talks t'' (List.mem_of_getElem? old)).foreign sound.rooted root _ below
        intro same
        exact elsewhere (sound.talk_unique old at_ same.symm)
    · intro u alive k same
      have hangs : id = childID u k := same
      have logged := sound.live_named alive
      have deeper := sound.rooted.deep u logged
      apply owned.apart fits logged (by omega)
      rw [hangs]
      exact within_childID u k
  have unnamed (follows' : Follows (naming t.session.txnUUID) (fun result _ => t.session.SameTxn result.1) left names) :
      Sound { g with talks := g.talks.set i t' } := sound.set_talk at_ rfl (next own.seq owned follows')
  have filed {env : Envelope} (files : Files t.session.txnUUID names env) (follows' : Follows (naming t.session.txnUUID)
      (fun result _ => t.session.SameTxn result.1) left (names ++ [(.envelope, env.uuid)])) :
      Sound { g with talks := g.talks.set i t', taken := (.envelope, env.uuid) :: g.taken } :=
    named files.fits (fun _ => files.below) follows'
  obtain ⟨call, answer⟩ := event
  cases call with
  | inr env =>
    have sound' := filed may onward
    show Sound { g with
      talks := g.talks.set i t', taken := (.envelope, env.uuid) :: g.taken
      shelved := if Option.isNone answer || despite then env.uuid :: g.shelved else g.shelved }
    split
    · exact sound'.shelve _
    · exact sound'
  | inl request =>
    cases request with
    | writeBody id content =>
      apply named may _ onward
      intro clash
      cases clash
    | enqueue env =>
      have files : Files t.session.txnUUID names env := may
      have sound' := filed files onward
      show Sound { g with
        talks := g.talks.set i t', taken := (.envelope, env.uuid) :: g.taken
        ready := if Option.isNone answer || despite then env :: g.ready else g.ready }
      split
      · apply sound'.queued
        · constructor
          · exact List.mem_cons_self
          · intro mail
            rw [(files.mail mail).1, level]
        · -- nothing hangs off the envelope yet
          intro mail label k taken
          have within := within_childID env.uuid k
          rcases List.mem_cons.mp taken with same | old
          · rw [← (Prod.mk.inj same).2] at within
            have longer := count_childID env.uuid k
            rw [(Prod.mk.inj same).2] at longer
            omega
          · rcases owned _ old (files.fits.within.trans within) with mine | ⟨u, mine, above⟩
            · exact ((files.mail mail).2 _ mine within).elim
            · rcases above.tree within with outer | inner
              · exact (files.fits.apart u mine outer).elim
              · exact ((files.mail mail).2 _ mine inner).elim
        · intro alive
          exact owned.fresh files.fits (sound.live_named alive)
      · exact sound'
    | reschedule | complete | bury => exact may.elim
    | _ => exact unnamed onward

theorem Sound.heard (sound : Sound g) {talks : List Talk} {roots : List Name} (rooted : Rooted roots g.taken)
    (heard : ∀ t ∈ talks, t.Sound roots g.taken) (apart : (talks.map fun t => t.session.connUUID).Nodup) :
    Sound { g with talks, roots } :=
  ⟨rooted, heard, apart, sound.ready, sound.counted, sound.workers, sound.live, sound.idle⟩

theorem Sound.command (sound : Sound g) {t : Talk} (at_ : g.talks[i]? = some t) (free : t.filing = none) {s : Session}
    (turns : t.session.Turns s) : Sound { g with talks := g.talks.set i { session := s } } := by
  have own := sound.talks t (List.mem_of_getElem? at_)
  apply sound.set_talk at_ turns.conn
  have seq : ∀ entry ∈ g.taken, ∀ k, Within '.' (childID s.connUUID k) entry.2 → k ≤ t.session.txnSeq := by
    rw [turns.conn]
    exact own.seq
  constructor
  · show s.connUUID ∈ g.roots
    rw [turns.conn]
    exact own.root
  · exact fun entry member k within => le_trans (seq entry member k within) turns.seq
  · intro _ mail
    show s.txnUUID = childID s.connUUID s.txnSeq ∧ ∀ entry ∈ g.taken, ¬ Within '.' s.txnUUID entry.2
    rcases turns.mail mail with ⟨same, txn, mail'⟩ | ⟨later, txn⟩
    · rw [turns.conn, same, txn]
      exact own.idle free mail'
    · rw [turns.conn]
      refine ⟨txn, fun entry member within => ?_⟩
      rw [txn, ← turns.conn] at within
      have early := seq entry member _ within
      omega
  · intro p busy
    cases busy

theorem Sound.reply (sound : Sound g) {t : Talk} (at_ : g.talks[i]? = some t) {result : Session × Smtp.Reply}
    (busy : t.filing = some (.done result)) :
    Sound { g with talks := g.talks.set i { session := result.1.resetTxn } } := by
  have own := sound.talks t (List.mem_of_getElem? at_)
  have same : t.session.SameTxn result.1 := by
    rcases own.busy _ busy with ⟨result', done, same⟩ | ⟨-, own, follows, -⟩
    · cases done
      exact same
    · exact follows
  have conn : result.1.resetTxn.connUUID = t.session.connUUID := same.conn
  have seq : result.1.resetTxn.txnSeq = t.session.txnSeq := same.seq
  apply sound.set_talk at_ conn
  constructor
  · show result.1.resetTxn.connUUID ∈ g.roots
    rw [conn]
    exact own.root
  · show ∀ entry ∈ g.taken, ∀ k, Within '.' (childID result.1.resetTxn.connUUID k) entry.2 → k ≤ result.1.resetTxn.txnSeq
    rw [conn, seq]
    exact own.seq
  · intro _ mail
    cases mail
  · intro p busy'
    cases busy'

theorem Sound.connect (sound : Sound g) {root : Name} (plain : '.' ∉ root) (fresh : root ∉ g.roots) :
    Sound { g with roots := root :: g.roots } := by
  have rooted : Rooted (root :: g.roots) g.taken := by
    have old := sound.rooted
    refine ⟨old.distinct, fun entry member => ?_, fun r member => ?_, old.shallow, old.deep⟩
    · obtain ⟨r, there, within⟩ := old.below entry member
      exact ⟨r, List.mem_cons_of_mem _ there, within⟩
    · rcases List.mem_cons.mp member with rfl | there
      · exact plain
      · exact old.plain r there
  exact sound.heard rooted (fun t member => (sound.talks t member).grow root) sound.apart

theorem Sound.hangUp (sound : Sound g) (i : Nat) : Sound { g with talks := g.talks.eraseIdx i } := by
  have fewer := g.talks.eraseIdx_sublist i
  apply sound.heard sound.rooted
  · exact fun t member => sound.talks t (fewer.subset member)
  · exact (fewer.map _).nodup sound.apart

theorem Sound.claim [CaseFolding] (sound : Sound g) {e : Envelope} (at_ : g.ready[i]? = some e) (steady : g.recovering = none)
    (cfg : RunnerConfig) (inflight : Name) :
    Sound { g with
      ready := g.ready.eraseIdx i, workers := { file := e, job := some (attempt cfg inflight e) } :: g.workers } := by
  have fewer := g.ready.eraseIdx_sublist i
  have member : e ∈ g.ready := List.mem_of_getElem? at_
  have alive : Gateway.live { g with
      ready := g.ready.eraseIdx i, workers := { file := e, job := some (attempt cfg inflight e) } :: g.workers } =
      (g.ready.eraseIdx i).map Envelope.uuid ++ e.uuid :: g.workers.flatMap Worker.live := rfl
  have same : (Gateway.live { g with
      ready := g.ready.eraseIdx i, workers := { file := e, job := some (attempt cfg inflight e) } :: g.workers }).Perm
      g.live := by
    rw [alive]
    apply List.perm_middle.trans
    exact ((perm_eraseIdx at_).map Envelope.uuid).append_right _
  constructor
  · exact sound.rooted
  · exact sound.talks
  · exact sound.apart
  · exact fun e' there => sound.ready e' (fewer.subset there)
  · exact fun free e' there => sound.counted free e' (fewer.subset there)
  · intro w there
    rcases List.mem_cons.mp there with rfl | old
    · constructor
      · exact sound.ready e member
      · intro saved
        cases saved
      · intro _ job begun
        cases begun
        refine ⟨{}, attempt_numbers cfg inflight e, fun answerable label k taken => ?_⟩
        exact .inl (sound.counted steady e member answerable label k taken)
    · exact sound.workers w old
  · exact same.nodup_iff.mpr sound.live
  · intro recovering
    rw [show g.recovering = none from steady] at recovering
    cases recovering

theorem live_idle {workers : List Worker} (idle : ∀ w ∈ workers, w.job = none) : workers.flatMap Worker.live = [] := by
  apply List.flatMap_eq_nil_iff.mpr
  intro w member
  simp [Worker.live, idle w member]

theorem Sound.crash (sound : Sound g) (committed : List Name) :
    Sound { g with
      talks := [], workers := g.workers.map fun w => { w with job := none }, recovering := some committed } := by
  have idle : ∀ w ∈ g.workers.map fun w => { w with job := none }, w.job = none := by
    intro w member
    obtain ⟨w', -, rfl⟩ := List.mem_map.mp member
    rfl
  constructor
  · exact sound.rooted
  · intro t member
    cases member
  · exact List.nodup_nil
  · exact sound.ready
  · intro free
    cases free
  · intro w member
    obtain ⟨w', there, rfl⟩ := List.mem_map.mp member
    refine ⟨(sound.workers w' there).known, fun _ job went => ?_, fun _ job went => ?_⟩ <;> cases went
  · simp only [Gateway.live, live_idle idle, List.append_nil]
    exact (List.nodup_append.mp sound.live).1
  · exact fun _ => idle

/-- While the files are recovered nothing is claimed, so nobody counts on what an envelope counts. -/
theorem Sound.recover (sound : Sound g) {committed : List Name} (recovering : g.recovering = some committed)
    (at_ : g.workers[i]? = some w) :
    Sound (({ g with workers := g.workers.eraseIdx i } : Gateway).restore w.file committed) := by
  have fewer := g.workers.eraseIdx_sublist i
  have member : w ∈ g.workers := List.mem_of_getElem? at_
  have idle : ∀ w ∈ g.workers.eraseIdx i, w.job = none :=
    fun w there => sound.idle (by rw [recovering]; rfl) w (fewer.subset there)
  have queued : (g.ready.map Envelope.uuid).Nodup := (List.nodup_append.mp sound.live).1
  have dropped : Sound { g with workers := g.workers.eraseIdx i } := by
    constructor
    · exact sound.rooted
    · exact sound.talks
    · exact sound.apart
    · exact sound.ready
    · exact sound.counted
    · exact fun w there => sound.workers w (fewer.subset there)
    · simp only [Gateway.live, live_idle idle, List.append_nil]
      exact queued
    · exact fun _ => idle
  unfold Gateway.restore
  split
  · exact dropped
  · constructor
    · exact sound.rooted
    · exact sound.talks
    · exact sound.apart
    · intro e there
      rcases List.mem_cons.mp there with rfl | old
      · exact (sound.workers w member).known
      · exact sound.ready e (List.mem_of_mem_filter old)
    · intro free
      rw [show g.recovering = none from free] at recovering
      cases recovering
    · exact dropped.workers
    · simp only [Gateway.live, live_idle idle, List.append_nil, List.map_cons]
      apply List.nodup_cons.mpr
      refine ⟨fun there => ?_, (List.filter_sublist.map _).nodup queued⟩
      obtain ⟨e, other, same⟩ := List.mem_map.mp there
      exact absurd same (by simpa using List.of_mem_filter other)
    · exact fun _ => idle

theorem Sound.started (sound : Sound g) (counted : ∀ e ∈ g.ready, Counted g.taken e) :
    Sound { g with recovering := none } :=
  ⟨sound.rooted, sound.talks, sound.apart, sound.ready, fun _ => counted, sound.workers, sound.live,
    fun recovering => by cases recovering⟩

section Commands
variable [Text.LowerCase]

theorem obey_turns {b : Backend} {s s' : Session} {cmd : Command} (step : obey b s cmd = some s') : s.Turns s' := by
  cases cmd with
  | auth user mech =>
    cases step
    exact ⟨rfl, le_refl _, fun mail => .inl ⟨rfl, rfl, mail⟩⟩
  | regreet hostname =>
    cases step
    exact ⟨rfl, le_refl _, fun mail => by cases mail⟩
  | reset =>
    cases step
    exact ⟨rfl, le_refl _, fun mail => by cases mail⟩
  | mail w fromAddr opts =>
    cases step
    exact s.mail_turns b w fromAddr opts
  | rcpt w toAddr opts =>
    cases step
    exact s.rcpt_turns w toAddr opts
  | data w bodyName scan => cases step

theorem Sound.greeted (sound : Sound g) {root hostname : Name} {tls : Option TLSState} {conn : Rules.ConnEnv}
    {rules : Option Rules.Ruleset} {session : Session} (plain : '.' ∉ root) (fresh : root ∉ g.roots)
    (greeted : newSession root hostname tls conn rules = .ok session) :
    Sound { g with roots := root :: g.roots, talks := { session } :: g.talks } := by
  have grown := sound.connect plain fresh
  obtain ⟨same, mail⟩ := Session.greetPolicy_sameTxn greeted
  have named : session.connUUID = root := same.conn
  have unnamed : ∀ entry ∈ g.taken, ¬ Within '.' root entry.2 := by
    intro entry member within
    obtain ⟨r, there, within'⟩ := sound.rooted.below entry member
    rw [root_unique plain (sound.rooted.plain r there) within within'] at fresh
    exact fresh there
  apply grown.heard grown.rooted
  · intro t member
    rcases List.mem_cons.mp member with rfl | old
    · constructor
      · simp [named]
      · intro entry there k within
        refine (unnamed entry there ?_).elim
        rw [← named]
        exact (within_childID _ k).trans within
      · intro _ begun
        rw [show session.haveMail = false from mail] at begun
        cases begun
      · intro p busy
        cases busy
    · exact grown.talks t old
  · rw [List.map_cons]
    apply List.nodup_cons.mpr
    refine ⟨fun taken => ?_, sound.apart⟩
    obtain ⟨t, there, same'⟩ := List.mem_map.mp taken
    have rooted := (sound.talks t there).root
    rw [same', named] at rooted
    exact fresh rooted

variable [AuthTexts] [CaseFolding]

theorem Sound.data (sound : Sound g) {t : Talk} (at_ : g.talks[i]? = some t) (free : t.filing = none) (b : Backend)
    (w : Smtp.World) (fault : Chars → BodyFault) (body : Reader) (scan : Scan) :
    Sound { g with talks := g.talks.set i { t with filing := some (t.session.data b w fault body scan) } } := by
  have own := sound.talks t (List.mem_of_getElem? at_)
  let t' : Talk := { t with filing := some (t.session.data b w fault body scan) }
  apply sound.set_talk (show g.talks[i]? = some t from at_) (show t'.session.connUUID = t.session.connUUID from rfl)
  constructor
  · exact own.root
  · exact own.seq
  · intro idle
    cases idle
  · intro p busy
    cases busy
    show (∃ result, t.session.data b w fault body scan = .done result ∧ t.session.SameTxn result.1) ∨ _
    cases mail : t.session.haveMail with
    | false =>
      refine .inl ⟨(t.session, needMail), ?_, .refl _⟩
      simp [Session.data, mail]
    | true =>
      obtain ⟨txn, unnamed⟩ := own.idle free mail
      refine .inr ⟨txn, [], data_names b w fault body scan t.session, fun entry member within => ?_⟩
      exact (unnamed entry member within).elim

/-- When the gateway has recovered, every envelope it found counts the notifications about it. -/
def Timely (g : Gateway) : Move → Prop
  | .started => ∀ e ∈ g.ready, Counted g.taken e
  | _ => True

theorem Sound.next (sound : Sound g) {move : Move} (timely : Timely g move) {g' : Gateway} (step : g.next move = some g') :
    Sound g' := by
  cases move with
  | connect root hostname tls conn rules =>
    simp only [Gateway.next] at step
    split at step
    · cases step
    · rename_i new
      obtain ⟨plain, fresh⟩ := not_or.mp new
      split at step
      · cases step
        exact sound.connect plain fresh
      · rename_i session greeted
        cases step
        exact sound.greeted plain fresh greeted
  | command i b cmd =>
    obtain ⟨t, at_, step⟩ := Option.bind_eq_some_iff.mp step
    split at step
    · cases step
    · rename_i free
      obtain ⟨s, obeyed, step⟩ := Option.bind_eq_some_iff.mp step
      cases step
      exact sound.command at_ (Option.not_isSome_iff_eq_none.mp free) (obey_turns obeyed)
  | data i b w fault body scan =>
    obtain ⟨t, at_, step⟩ := Option.bind_eq_some_iff.mp step
    split at step
    · cases step
    · rename_i free
      cases step
      exact sound.data at_ (Option.not_isSome_iff_eq_none.mp free) b w fault body scan
  | file i event despite =>
    obtain ⟨t, at_, step⟩ := Option.bind_eq_some_iff.mp step
    obtain ⟨left, filed, step⟩ := Option.bind_eq_some_iff.mp step
    obtain ⟨filing, busy, filed⟩ := Option.bind_eq_some_iff.mp filed
    cases step
    exact sound.file at_ busy filed despite
  | reply i =>
    obtain ⟨t, at_, step⟩ := Option.bind_eq_some_iff.mp step
    split at step
    · rename_i session answer done
      cases step
      exact sound.reply at_ done
    · cases step
  | hangUp i =>
    obtain ⟨t, at_, step⟩ := Option.bind_eq_some_iff.mp step
    split at step
    · cases step
    · cases step
      exact sound.hangUp i
  | claim i cfg inflight =>
    obtain ⟨e, at_, step⟩ := Option.bind_eq_some_iff.mp step
    split at step
    · cases step
    · rename_i steady
      cases step
      exact sound.claim at_ (Option.not_isSome_iff_eq_none.mp steady) cfg inflight
  | work i event despite =>
    obtain ⟨w, at_, step⟩ := Option.bind_eq_some_iff.mp step
    obtain ⟨left, worked, step⟩ := Option.bind_eq_some_iff.mp step
    obtain ⟨job, working, worked⟩ := Option.bind_eq_some_iff.mp worked
    cases step
    exact sound.work at_ working worked _ despite
  | save i =>
    obtain ⟨w, at_, step⟩ := Option.bind_eq_some_iff.mp step
    split at step
    · rename_i request rest working
      split at step
      · cases step
      · rename_i unsaved
        exact sound.save at_ (by simpa using unsaved) working step
    · cases step
  | crash =>
    cases step
    exact sound.crash _
  | recover i =>
    obtain ⟨committed, recovering, step⟩ := Option.bind_eq_some_iff.mp step
    obtain ⟨w, at_, step⟩ := Option.bind_eq_some_iff.mp step
    split at step
    · cases step
      exact sound.recover recovering at_
    · cases step
  | started =>
    simp only [Gateway.next] at step
    split at step
    · cases step
      exact sound.started timely
    · cases step

end Commands

end Steps

/-- As long as no recovery loses count of the notifications about an envelope, no two bodies have the
    same file name and no two envelopes the same uuid, over all runs. -/
theorem names_distinct [Text.LowerCase] [AuthTexts] [CaseFolding] {g : Gateway}
    (run : Reachable Gateway.next Timely {} g) : g.bodies.Nodup ∧ g.uuids.Nodup := by
  have start : Sound {} := by
    have rooted : Rooted [] [] :=
      ⟨List.nodup_nil, by simp, by simp, by simp, by simp⟩
    exact ⟨rooted, by simp, by simp, by simp, by simp, by simp, by simp [Gateway.live], by simp⟩
  have sound : Sound g := run.invariant Sound start fun _ _ _ held timely step => held.next timely step
  have named (label : Label) : (g.taken.filter fun entry => entry.1 = label).map Prod.snd |>.Nodup := by
    apply (sound.rooted.distinct.filter _).map_on
    intro entry member entry' member' same
    have kind : entry.1 = label := by simpa using List.of_mem_filter member
    have kind' : entry'.1 = label := by simpa using List.of_mem_filter member'
    exact Prod.ext (kind.trans kind'.symm) same
  constructor
  · have files := (named .body).map (f := fun id => id ++ suffixEml) fun _ _ => List.append_cancel_right
    rw [List.map_map] at files
    exact files
  · exact named .envelope

section Sample
open scoped Smtp.Ascii

def byDefault : Rules.File := { defaultAction := some (.relay "g".toList) }

def sampleGateway : Backend := { hostname := "gw".toList }

def claimed : List Move :=
  [.connect "a".toList "client".toList none {} (Rules.compile byDefault none).toOption,
    .command 0 sampleGateway (.mail {} "a@b".toList none), .command 0 sampleGateway (.rcpt {} "e@f".toList none),
    .data 0 sampleGateway {} (fun _ => .spool) (Reader.ofBytes []) Conversation.emptyBody,
    .file 0 ⟨.inl (.writeBody "a.1".toList (.message (Reader.ofBytes []))), .ok ("a.1.eml".toList, 0)⟩ false,
    .file 0 ⟨.inl (.enqueue (plainEnvelope ["e@f"])), none⟩ false, .reply 0,
    .claim 0 warningConfig "1.x".toList]

/-- The gateway ends, and the next one recovers the only file in inflight/. -/
def restarted : List Move := [.crash, .recover 0, .started, .claim 0 warningConfig "1.x".toList]

def worked (events : List Happening) : List Move := events.dropLast.map fun event => .work 0 event false

def forgetful : List Move := claimed ++ worked lateEvents ++ restarted ++ worked lateEvents

theorem forgotten : ∃ g, Reachable Gateway.next (fun _ _ => True) {} g ∧ ¬ g.bodies.Nodup ∧ ¬ g.uuids.Nodup := by
  have ended : (play Gateway.next (fun _ _ => true) {} forgetful).any
      (fun g => !decide g.bodies.Nodup && !decide g.uuids.Nodup) := by
    decide
  obtain ⟨g, played, facts⟩ := (Option.any_eq_true _ _).mp ended
  simp only [Bool.and_eq_true, Bool.not_eq_true', decide_eq_false_iff_not] at facts
  exact ⟨g, reachable_of_play (fun _ _ _ => trivial) forgetful played, facts⟩

def unwritten (g : Gateway) : Move → Bool
  | .started => g.ready.all fun e => g.taken.all fun entry => !(e.uuid ++ ['.']).isPrefixOf entry.2
  | _ => true

theorem timely_of_unwritten {g : Gateway} {move : Move} (none : unwritten g move = true) : Timely g move := by
  cases move with
  | started =>
    intro e member _ label k taken
    have outside := List.all_eq_true.mp (List.all_eq_true.mp none e member) _ taken
    have inside : e.uuid ++ ['.'] <+: childID e.uuid k := ⟨Nat.toDigits 10 k, by simp [childID]⟩
    rw [List.isPrefixOf_iff_prefix.mpr inside] at outside
    cases outside
  | _ => exact trivial

/-- Restarted before the first attempt, a message is warned about and then given up. -/
def remembered : List Move :=
  claimed ++ restarted ++ worked lateEvents ++ [.save 0, .claim 0 warningConfig "2.x".toList] ++
    worked tooLateEvents ++ [.save 0]

theorem names_distinct_sample : ∃ g, Reachable Gateway.next Timely {} g ∧ g.bodies.Nodup ∧ g.uuids.Nodup ∧
    g.bodies = ["a.1.1.2.eml", "a.1.1.1.eml", "a.1.eml"].map String.toList := by
  have ended : (play Gateway.next unwritten {} remembered).any
      (fun g => decide (g.bodies = ["a.1.1.2.eml", "a.1.1.1.eml", "a.1.eml"].map String.toList)) := by
    decide
  obtain ⟨g, played, facts⟩ := (Option.any_eq_true _ _).mp ended
  have run := reachable_of_play (fun _ _ => timely_of_unwritten) remembered played
  exact ⟨g, run, (names_distinct run).1, (names_distinct run).2, of_decide_eq_true facts⟩

end Sample

end Mailgw.Node
