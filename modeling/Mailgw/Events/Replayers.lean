import Mailgw.Calls.Runs
import Mailgw.Calls.Stages
import Mailgw.Events.Client
import Mailgw.Events.SpillDir

namespace Mailgw.Events

open Calls Files

/-- The claim a replayer has taken: where the file is now, what it was called, when it was taken,
    what was read from it, and what became of the POST. -/
structure Holding where
  path : Chars
  name : Chars
  time : Nat
  content : Option SpillRecord := none
  answered : Bool := false
  acked : Bool := false
  deriving Repr, DecidableEq

structure Progress where
  pid : Nat
  read : Nat := 0
  claim : Option Holding := none
  deriving Repr, DecidableEq

namespace Progress

/-- A replayer without a claim may take one or return an abandoned one; with a claim it only
    releases, rejects or, once the record is accepted, removes what it claimed. -/
def may : ReplayCall → Progress → Prop
  | .rename src .spill dst, g =>
    match g.claim with
    | some h => src = h.path ∧ dst = h.name
    | none => isPending src = true ∧ dst = claimName g.pid g.read src ∨
        ∃ time : Int, parseClaim src = some (dst, time) ∧ time + claimGrace < g.read
  | .rename src .rejected dst, g => ∃ h, g.claim = some h ∧ src = h.path ∧ dst = h.name
  | .remove .spill path, g => ∃ h, g.claim = some h ∧ path = h.path ∧ h.acked = true
  | .post _ body, g => ∃ h record, g.claim = some h ∧ h.content = some record ∧ body = record.body
  | .readFile path, g => ∃ h, g.claim = some h ∧ path = h.path
  | _, _ => True

def after : (c : ReplayCall) → c.Answer → Progress → Progress
  | .clock, time, g => { g with read := time }
  | .rename src .spill dst, moved, g =>
    match g.claim with
    | some _ => { g with claim := none }
    | none =>
      if moved && isPending src then { g with claim := some { path := dst, name := src, time := g.read } } else g
  | .rename _ .rejected _, _, g => { g with claim := none }
  | .remove .spill _, _, g => { g with claim := none }
  | .makeRejected, false, g => { g with claim := none }
  | .readFile _, some (.record record), g => { g with claim := g.claim.map fun h => { h with content := some record } }
  | .readFile _, _, g => { g with claim := g.claim.map fun h => { h with content := none } }
  | .post _ _, answer, g =>
    { g with claim := g.claim.map fun h => { h with answered := true, acked := isAccepted answer } }
  | _, _, g => g

example (g : Progress) (path : Chars) (gone : Bool) : (g.after (.remove .spill path) gone).claim = none := by
  simp [after]

end Progress

def replayStages : Stages ReplayCall ReplayCall.Answer Progress := ⟨Progress.may, fun _ _ => True, Progress.after⟩

section Programs
variable {g : Progress} {r : Replayer} {h : Holding}

def Free (g g' : Progress) : Prop := g'.claim = none ∧ g'.pid = g.pid

theorem unclaim_follows (held : g.claim = some h) :
    Follows replayStages (fun _ g' => Free g g') (Replayer.unclaim h.path h.name) g := by
  apply Follows.ask
  · simp [replayStages, Progress.may, held]
  · intro moved _
    have freed : replayStages.after (.rename h.path .spill h.name) moved g = { g with claim := none } := by
      simp [replayStages, Progress.after, held]
    rw [freed]
    exact ⟨rfl, rfl⟩

theorem reject_follows (held : g.claim = some h) :
    Follows replayStages (fun _ g' => Free g g') (Replayer.reject h.path h.name) g := by
  refine Follows.ask trivial ?_
  intro made _
  cases made with
  | false => exact ⟨rfl, rfl⟩
  | true =>
    apply Follows.ask
    · exact ⟨h, held, rfl, rfl⟩
    · intro moved _
      cases moved with
      | false => exact ⟨rfl, rfl⟩
      | true =>
        refine Follows.ask trivial ?_
        intro now _
        refine Follows.ask trivial ?_
        intro _ _
        exact ⟨rfl, rfl⟩

theorem handleUnparseable_follows (held : g.claim = some h) :
    Follows replayStages (fun _ g' => Free g g') (Replayer.handleUnparseable h.path h.name) g := by
  refine Follows.ask trivial ?_
  intro modified _
  cases modified with
  | none => exact reject_follows held
  | some modified =>
    refine Follows.ask trivial ?_
    intro now _
    have held' : ({ g with read := now } : Progress).claim = some h := held
    split
    · exact Follows.bind (unclaim_follows held')
    · exact reject_follows held'

theorem deliver_follows_claim (record : SpillRecord) (held : g.claim = some h) (known : h.content = some record) :
    Follows replayStages (fun _ g' => Free g g') (r.deliver h.path h.name record) g := by
  simp only [Replayer.deliver]
  split
  · exact reject_follows held
  · apply Follows.ask
    · exact ⟨h, record, held, known, rfl⟩
    · intro answer _
      let h' : Holding := { h with answered := true, acked := isAccepted answer }
      have held' : (replayStages.after (.post (r.endpoint record) record.body) answer g).claim = some h' := by
        simp [replayStages, Progress.after, held, h']
      cases answer with
      | none => exact Follows.bind (unclaim_follows (h := h') held')
      | some status =>
        dsimp only
        split
        · rename_i success
          apply Follows.ask
          · exact ⟨h', held', rfl, by simp [h', isAccepted, success]⟩
          · intro _ _
            exact ⟨rfl, rfl⟩
        · split
          · exact reject_follows (h := h') held'
          · exact Follows.bind (unclaim_follows (h := h') held')

theorem one_follows {name : Chars} (pending : isPending name = true) (free : g.claim = none) (own : g.pid = r.pid) :
    Follows replayStages (fun _ g' => Free g g') (r.one name) g := by
  simp only [Replayer.one]
  refine Follows.ask trivial ?_
  intro now _
  apply Follows.ask
  · have claims : Progress.may (.rename name .spill (claimName r.pid now name)) { g with read := now } := by
      simp [Progress.may, free, pending, own]
    exact claims
  · intro claimed _
    cases claimed with
    | false =>
      have stays : replayStages.after (.rename name .spill (claimName r.pid now name)) false { g with read := now } =
          { g with read := now } := by simp [replayStages, Progress.after, free]
      exact stays ▸ ⟨free, rfl⟩
    | true =>
      let h : Holding := { path := claimName r.pid now name, name, time := now }
      have takes : replayStages.after (.rename name .spill (claimName r.pid now name)) true
          (replayStages.after .clock now g) = { g with read := now, claim := some h } := by
        simp [replayStages, Progress.after, free, pending, h]
      refine Follows.ask (Exists.intro h ?_) ?_
      · exact ⟨congrArg Progress.claim takes, rfl⟩
      · intro content _
        rw [takes]
        cases content with
        | none =>
          exact Follows.bind (unclaim_follows (h := { h with content := none }) rfl)
        | some content =>
          cases content with
          | garbage => exact handleUnparseable_follows (h := { h with content := none }) rfl
          | record record =>
            dsimp only
            split
            · exact handleUnparseable_follows (h := { h with content := some record }) rfl
            · exact deliver_follows_claim (h := { h with content := some record })
                (g := { g with read := now, claim := some { h with content := some record } }) record rfl rfl

theorem reclaimEach_follows {names : List Chars} (free : g.claim = none) {cutoff : Int}
    (late : cutoff + claimGrace ≤ g.read) :
    Follows replayStages (fun _ g' => g' = g) (Replayer.reclaimEach cutoff names) g := by
  induction names with
  | nil => rfl
  | cons name names ih =>
    simp only [Replayer.reclaimEach]
    split
    · exact ih
    · rename_i orig time parsed
      split
      · rename_i old
        apply Follows.bind
        apply Follows.ask
        · have returns : Progress.may (.rename name .spill orig) g := by
            simp only [Progress.may, free]
            exact .inr ⟨time, parsed, by omega⟩
          exact returns
        · intro moved _
          have plain : isPending name = false := by
            cases pending : isPending name with
            | false => rfl
            | true =>
              rw [parseClaim_of_pending pending] at parsed
              cases parsed
          have stays : replayStages.after (.rename name .spill orig) moved g = g := by
            simp [replayStages, Progress.after, free, plain]
          rw [stays]
          exact ih
      · exact ih

theorem reclaim_follows (free : g.claim = none) :
    Follows replayStages (fun _ g' => Free g g') Replayer.reclaim g := by
  refine Follows.ask trivial ?_
  intro names _
  cases names with
  | none => exact ⟨free, rfl⟩
  | some names =>
    refine Follows.ask trivial ?_
    intro now _
    have late : ((now : Int) - claimGrace) + claimGrace ≤ now := by omega
    have free' : (replayStages.after .clock now g).claim = none := free
    apply (reclaimEach_follows free' late).mono
    intro _ g' same
    rw [same]
    exact ⟨free, rfl⟩

theorem replayEach_follows {names : List Chars} (pending : ∀ name ∈ names, isPending name = true) (free : g.claim = none)
    (own : g.pid = r.pid) (fails : Nat) (tally : Replayer.Tally) :
    Follows replayStages (fun _ g' => g'.claim = none) (r.replayEach fails tally names) g := by
  induction names generalizing g fails tally with
  | nil => exact free
  | cons name names ih =>
    have later : ∀ name' ∈ names, isPending name' = true := fun name' member => pending name' (List.mem_cons_of_mem _ member)
    simp only [Replayer.replayEach]
    refine Follows.ask trivial ?_
    intro cancelled _
    cases cancelled with
    | true => exact free
    | false =>
      apply Follows.bind
      apply (one_follows (pending name List.mem_cons_self) free own).mono
      intro outcome g' freed
      cases outcome with
      | replayed => exact ih later freed.1 (freed.2.trans own) _ _
      | rejected => exact ih later freed.1 (freed.2.trans own) _ _
      | deferred =>
        dsimp only
        split
        · exact freed.1
        · exact ih later freed.1 (freed.2.trans own) _ _

theorem runOnce_follows (free : g.claim = none) (own : g.pid = r.pid) :
    Follows replayStages (fun _ g' => g'.claim = none) r.runOnce g := by
  apply Follows.bind
  apply (reclaim_follows free).mono
  intro _ g' freed
  apply Follows.bind
  refine Follows.ask trivial ?_
  intro names _
  cases names with
  | none => exact freed.1
  | some names =>
    apply Follows.bind
    apply replayEach_follows _ freed.1 (freed.2.trans own)
    intro name member
    exact (List.mem_filter.mp ((List.perm_insertionSort _ _).mem_iff.mp member)).2

theorem sweepEach_follows {names : List Chars} (free : g.claim = none) (cutoff : Int) :
    Follows replayStages (fun _ g' => g'.claim = none) (Replayer.sweepEach cutoff names) g := by
  induction names generalizing g with
  | nil => exact free
  | cons name names ih =>
    simp only [Replayer.sweepEach]
    split
    · refine Follows.ask trivial ?_
      intro modified _
      cases modified with
      | none => exact ih free
      | some modified =>
        dsimp only
        split
        · refine Follows.ask trivial ?_
          intro _ _
          exact ih free
        · exact ih free
    · exact ih free

theorem sweepRejected_follows (free : g.claim = none) :
    Follows replayStages (fun _ g' => g'.claim = none) r.sweepRejected g := by
  simp only [Replayer.sweepRejected]
  split
  · exact free
  · refine Follows.ask trivial ?_
    intro names _
    cases names with
    | none => exact free
    | some names =>
      refine Follows.ask trivial ?_
      intro now _
      have free' : (replayStages.after .clock now g).claim = none := free
      exact sweepEach_follows free' _

end Programs

end Mailgw.Events
