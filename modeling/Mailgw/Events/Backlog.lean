import Mailgw.Events.SpillDir
import Mailgw.Lists.Streaks

namespace Mailgw.Events

open Calls Files Lists

/-- A file system that refuses nothing, a clock, and the bodies the log service has accepted, each
    with the endpoint it was posted to. -/
structure Station where
  dir : SpillDir
  readings : Nat := 0
  accepted : List (Chars × Chars) := []

/-- The log service answers a record always the same way; `none` is a timeout. -/
abbrev Service := Chars → Chars → Option Nat

def isRefused (answer : Option Nat) : Bool := answer.any fun status => 400 ≤ status ∧ status < 500

def serve (clock : Nat → Nat) (service : Service) : (c : ReplayCall) → Station → c.Answer × Station
  | .clock, s => (clock s.readings, { s with readings := s.readings + 1 })
  | .readDir dir, s => (some (s.dir.list dir), s)
  | .readFile name, s => ((s.dir.get .spill name).map SpillFile.content, s)
  | .stat dir name, s => ((s.dir.get dir name).map SpillFile.modified, s)
  | .makeRejected, s => (true, s)
  | .rename name dir name', s =>
    match s.dir.get .spill name with
    | some file => (true, { s with dir := s.dir.move .spill name dir name' file })
    | none => (false, s)
  | .touch name time, s =>
    match s.dir.get .rejected name with
    | some file => (true, { s with dir := s.dir.put .rejected name { file with modified := time } })
    | none => (false, s)
  | .remove dir name, s =>
    match s.dir.get dir name with
    | some _ => (true, { s with dir := s.dir.del dir name })
    | none => (false, s)
  | .post url body, s =>
    (service url body, if isAccepted (service url body) then { s with accepted := (url, body) :: s.accepted } else s)
  | .cancelled, s => (false, s)

def Usable (dir : SpillDir) : Prop := ∀ name file, dir.get .spill name = some file →
  isPending name = true ∧ ∃ record, file.content = .record record ∧ record.kind ≠ []

structure Backlog where
  dir : SpillDir
  usable : Usable dir

namespace Replayer

def verdict (r : Replayer) (service : Service) (record : SpillRecord) : Outcome :=
  if r.endpoint record = [] then .rejected
  else if isAccepted (service (r.endpoint record) record.body) then .replayed
  else if isRefused (service (r.endpoint record) record.body) then .rejected
  else .deferred

end Replayer

variable {clock : Nat → Nat} {service : Service} {r : Replayer}

structure Handled (service : Service) (r : Replayer) (name : Chars) (record : SpillRecord) (s s' : Station) :
    Prop where
  spill : ∀ name', s'.dir.get .spill name' =
    if name' = name ∧ r.verdict service record ≠ .deferred then none else s.dir.get .spill name'
  accepted : s'.accepted =
    if r.verdict service record = .replayed then (r.endpoint record, record.body) :: s.accepted else s.accepted

theorem get_released {dir : SpillDir} {name claim : Chars} {file : SpillFile} (found : dir.get .spill name = some file)
    (free : dir.get .spill claim = none) (other : claim ≠ name) (name' : Chars) :
    ((dir.move .spill name .spill claim file).move .spill claim .spill name file).get .spill name' =
      dir.get .spill name' := by
  rw [Folders.get_move, Folders.get_move]
  by_cases own : name' = name
  · subst own
    simp [found]
  · by_cases claimed : name' = claim
    · subst claimed
      simp [own, free]
    · simp [own, claimed]

theorem run_unclaim (clock : Nat → Nat) (service : Service) {s : Station} {claim : Chars} (name : Chars)
    {file : SpillFile} (held : s.dir.get .spill claim = some file) :
    ((Replayer.unclaim claim name).run (serve clock service) s).2 =
      { s with dir := s.dir.move .spill claim .spill name file } := by
  simp only [Replayer.unclaim, query, Prog.ask_bind, Prog.run, serve, held, Prog.pure_eq]

theorem run_reject (clock : Nat → Nat) (service : Service) {s : Station} {claim : Chars} (name : Chars)
    {file : SpillFile} (held : s.dir.get .spill claim = some file) :
    ((Replayer.reject claim name).run (serve clock service) s).1 = .rejected ∧
      ((Replayer.reject claim name).run (serve clock service) s).2.accepted = s.accepted ∧
      ∀ name', ((Replayer.reject claim name).run (serve clock service) s).2.dir.get .spill name' =
        if name' = claim then none else s.dir.get .spill name' := by
  have filed : (s.dir.move .spill claim .rejected name file).get .rejected name = some file := by
    simp [Folders.get_move]
  simp only [Replayer.reject, query, Prog.ask_bind, Prog.run, serve, held, filed, Bool.not_true, Bool.false_eq_true,
    ite_false, Prog.pure_eq, true_and]
  intro name'
  rw [Folders.get_put, Folders.get_move]
  simp

theorem run_deliver (clock : Nat → Nat) (service : Service) (r : Replayer) (s : Station) {claim : Chars} (name : Chars)
    {file : SpillFile} (record : SpillRecord) (held : s.dir.get .spill claim = some file) :
    ((r.deliver claim name record).run (serve clock service) s).1 = r.verdict service record ∧
      ((r.deliver claim name record).run (serve clock service) s).2.accepted =
        (if r.verdict service record = .replayed then (r.endpoint record, record.body) :: s.accepted else s.accepted) ∧
      ∀ name', ((r.deliver claim name record).run (serve clock service) s).2.dir.get .spill name' =
        if r.verdict service record = .deferred then (s.dir.move .spill claim .spill name file).get .spill name'
        else if name' = claim then none else s.dir.get .spill name' := by
  by_cases nowhere : r.endpoint record = []
  · have kept := run_reject clock service name held
    simpa [Replayer.deliver, Replayer.verdict, nowhere] using kept
  · simp only [Replayer.deliver, nowhere, ite_false, query, Prog.ask_bind, Prog.run, serve]
    cases answer : service (r.endpoint record) record.body with
    | none =>
      have back := run_unclaim clock service name held
      simp [Replayer.verdict, nowhere, answer, isAccepted, isRefused, Prog.run_bind, Prog.run, back]
    | some status =>
      by_cases success : 200 ≤ status ∧ status < 300
      · simp [Replayer.verdict, nowhere, answer, isAccepted, success, Prog.run, serve, held, Folders.get_del]
      · by_cases refusal : 400 ≤ status ∧ status < 500
        · have kept := run_reject clock service name held
          simpa [Replayer.verdict, nowhere, answer, isAccepted, isRefused, success, refusal] using kept
        · have back := run_unclaim clock service name held
          simp [Replayer.verdict, nowhere, answer, isAccepted, isRefused, success, refusal, Prog.run_bind, Prog.run,
            back]

theorem Usable.free {dir : SpillDir} (usable : Usable dir) (pid time : Nat) (name : Chars) :
    dir.get .spill (claimName pid time name) = none := by
  cases present : dir.get .spill (claimName pid time name) with
  | none => rfl
  | some file =>
    have pending := (usable _ _ present).1
    rw [claimName_not_pending] at pending
    cases pending

theorem Handled.usable {name : Chars} {record : SpillRecord} {s s' : Station} (handled : Handled service r name record s s')
    (usable : Usable s.dir) : Usable s'.dir := by
  intro name' file present
  rw [handled.spill] at present
  split at present
  · cases present
  · exact usable name' file present

theorem run_one (clock : Nat → Nat) (service : Service) (r : Replayer) {s : Station} (usable : Usable s.dir) {name : Chars} {record : SpillRecord} {modified : Nat}
    (found : s.dir.get .spill name = some ⟨.record record, modified⟩) :
    ((r.one name).run (serve clock service) s).1 = r.verdict service record ∧
      Handled service r name record s ((r.one name).run (serve clock service) s).2 := by
  have known : record.kind ≠ [] := by
    obtain ⟨-, record', same, known⟩ := usable _ _ found
    cases same
    exact known
  have free := usable.free r.pid (clock s.readings) name
  have other : claimName r.pid (clock s.readings) name ≠ name := by
    intro same
    rw [same, found] at free
    cases free
  simp only [Replayer.one, query, Prog.ask_bind, Prog.run, serve, found, Bool.not_true, Bool.false_eq_true, ite_false]
  have held : (s.dir.move .spill name .spill (claimName r.pid (clock s.readings) name) ⟨.record record, modified⟩).get
      .spill (claimName r.pid (clock s.readings) name) = some ⟨.record record, modified⟩ := by
    simp [Folders.get_move]
  simp only [held, Option.map_some, known, ite_false]
  obtain ⟨outcome, accepted, spill⟩ := run_deliver clock service r
    { s with dir := s.dir.move .spill name .spill (claimName r.pid (clock s.readings) name) ⟨.record record, modified⟩
             readings := s.readings + 1 } name record held
  refine ⟨outcome, ?_, accepted⟩
  intro name'
  rw [spill]
  by_cases deferred : r.verdict service record = .deferred
  · simp only [deferred, ite_true, ne_eq, not_true_eq_false, and_false, ite_false]
    exact get_released found free other name'
  · simp only [deferred, ite_false, ne_eq, not_false_eq_true, and_true]
    rw [Folders.get_move]
    by_cases claimed : name' = claimName r.pid (clock s.readings) name
    · subst claimed
      simp [other, free]
    · simp [claimed]

def recordAt (dir : SpillDir) (name : Chars) : Option SpillRecord :=
  match dir.get .spill name with
  | some ⟨.record record, _⟩ => some record
  | _ => none

def stalls (r : Replayer) (service : Service) (dir : SpillDir) (name : Chars) : Bool :=
  (recordAt dir name).any fun record => r.verdict service record = .deferred

def pendingNames (dir : SpillDir) : List Chars := ((dir.list .spill).filter isPending).insertionSort (· ≤ ·)

theorem stalls_eq {dir : SpillDir} {name : Chars} {record : SpillRecord} (found : recordAt dir name = some record) :
    stalls r service dir name = decide (r.verdict service record = .deferred) := by
  simp [stalls, found]

theorem Usable.found {dir : SpillDir} (usable : Usable dir) {name : Chars} {file : SpillFile}
    (present : dir.get .spill name = some file) :
    ∃ record modified, file = ⟨.record record, modified⟩ ∧ recordAt dir name = some record := by
  obtain ⟨content, modified⟩ := file
  obtain ⟨-, record, rfl, -⟩ := usable _ _ present
  exact ⟨record, modified, rfl, by simp [recordAt, present]⟩

theorem mem_pendingNames {dir : SpillDir} (usable : Usable dir) {name : Chars} :
    name ∈ pendingNames dir ↔ ∃ file, dir.get .spill name = some file := by
  have same : name ∈ pendingNames dir ↔ name ∈ (dir.list .spill).filter isPending :=
    (List.perm_insertionSort _ _).mem_iff
  rw [same, List.mem_filter, Folders.mem_list]
  constructor
  · intro present
    exact present.1
  · intro present
    obtain ⟨file, found⟩ := present
    exact ⟨⟨file, found⟩, (usable name file found).1⟩

theorem pendingNames_nodup (dir : SpillDir) : (pendingNames dir).Nodup :=
  (List.perm_insertionSort _ _).nodup_iff.mpr ((Folders.list_nodup dir .spill).filter _)

theorem pendingNames_sorted (dir : SpillDir) : (pendingNames dir).Pairwise (· ≤ ·) :=
  List.pairwise_insertionSort _ _

/-- What a pass over some names leaves behind, given what `dir` held under them. -/
structure Passed (service : Service) (r : Replayer) (dir : SpillDir) (fails : Nat) (names : List Chars) (s s' : Station) :
    Prop where
  spill : ∀ name, s'.dir.get .spill name =
    if name ∈ names ∧ name ∉ leftover (stalls r service dir) maxConsecutiveFailures fails names then none
    else s.dir.get .spill name
  kept : ∀ entry ∈ s.accepted, entry ∈ s'.accepted
  accepted : ∀ name ∈ names, name ∉ leftover (stalls r service dir) maxConsecutiveFailures fails names →
    ∀ record, recordAt dir name = some record → r.verdict service record = .replayed →
      (r.endpoint record, record.body) ∈ s'.accepted

theorem Passed.nil {dir : SpillDir} {fails : Nat} (s : Station) : Passed service r dir fails [] s s := by
  constructor
  · simp
  · simp
  · simp

theorem Passed.cons {dir : SpillDir} {fails fails' : Nat} {name : Chars} {names : List Chars} {record : SpillRecord}
    {s s₁ s' : Station} (handled : Handled service r name record s s₁) (found : recordAt dir name = some record)
    (fresh : name ∉ names) (rest : Passed service r dir fails' names s₁ s')
    (left : leftover (stalls r service dir) maxConsecutiveFailures fails (name :: names) =
      if r.verdict service record = .deferred then
        name :: leftover (stalls r service dir) maxConsecutiveFailures fails' names
      else leftover (stalls r service dir) maxConsecutiveFailures fails' names) :
    Passed service r dir fails (name :: names) s s' := by
  have gone : name ∉ leftover (stalls r service dir) maxConsecutiveFailures fails' names :=
    fun member => fresh ((leftover_sublist _ _).subset member)
  constructor
  · intro name'
    rw [rest.spill, handled.spill, left]
    by_cases own : name' = name
    · subst own
      by_cases deferred : r.verdict service record = .deferred
      · simp [fresh, deferred]
      · simp [fresh, deferred, gone]
    · by_cases deferred : r.verdict service record = .deferred <;> simp [own, deferred]
  · intro entry member
    apply rest.kept
    rw [handled.accepted]
    split
    · exact List.mem_cons_of_mem _ member
    · exact member
  · intro name' member notLeft record' at_ good
    rw [left] at notLeft
    rcases List.mem_cons.mp member with rfl | later
    · rw [found] at at_
      cases at_
      apply rest.kept
      rw [handled.accepted, good]
      simp
    · apply rest.accepted name' later _ record' at_ good
      intro still
      split at notLeft
      · exact notLeft (List.mem_cons_of_mem _ still)
      · exact notLeft still

theorem Passed.stop {dir : SpillDir} {fails : Nat} {name : Chars} {names : List Chars} {record : SpillRecord}
    {s s₁ : Station} (handled : Handled service r name record s s₁)
    (deferred : r.verdict service record = .deferred)
    (left : leftover (stalls r service dir) maxConsecutiveFailures fails (name :: names) = name :: names) :
    Passed service r dir fails (name :: names) s s₁ := by
  constructor
  · intro name'
    have same : s₁.dir.get .spill name' = s.dir.get .spill name' := by
      rw [handled.spill]
      simp [deferred]
    rw [same, left, if_neg fun both => both.2 both.1]
  · intro entry member
    rw [handled.accepted, deferred]
    exact member
  · intro name' member notLeft
    rw [left] at notLeft
    exact absurd member notLeft

theorem run_replayEach {dir : SpillDir} {fails : Nat} {tally : Replayer.Tally} {names : List Chars} {s : Station}
    (usable : Usable s.dir) (nodup : names.Nodup)
    (present : ∀ name ∈ names, s.dir.get .spill name = dir.get .spill name ∧ ∃ file, dir.get .spill name = some file) :
    Passed service r dir fails names s ((r.replayEach fails tally names).run (serve clock service) s).2 := by
  induction names generalizing fails tally s with
  | nil => exact .nil s
  | cons name names ih =>
    obtain ⟨same, file, at_⟩ := present name List.mem_cons_self
    rw [at_] at same
    obtain ⟨record, modified, rfl, found⟩ := usable.found same
    have found' : recordAt dir name = some record := by simp [recordAt, at_]
    have fresh := (List.nodup_cons.mp nodup).1
    obtain ⟨outcome, handled⟩ := run_one clock service r usable same
    have usable' := handled.usable usable
    have present' : ∀ name' ∈ names, ((r.one name).run (serve clock service) s).2.dir.get .spill name' =
        dir.get .spill name' ∧ ∃ file, dir.get .spill name' = some file := by
      intro name' member
      have other : name' ≠ name := fun same => fresh (same ▸ member)
      rw [handled.spill]
      simpa [other] using present name' (List.mem_cons_of_mem _ member)
    have stalled : stalls r service dir name = decide (r.verdict service record = .deferred) := stalls_eq found'
    simp only [Replayer.replayEach, query, Prog.ask_bind, Prog.run, serve, Bool.false_eq_true, ite_false, Prog.run_bind]
    rw [outcome]
    cases verdict : r.verdict service record with
    | replayed =>
      apply Passed.cons handled found' fresh (ih usable' (List.nodup_cons.mp nodup).2 present')
      simp [leftover, stalled, verdict]
    | rejected =>
      apply Passed.cons handled found' fresh (ih usable' (List.nodup_cons.mp nodup).2 present')
      simp [leftover, stalled, verdict]
    | deferred =>
      dsimp only
      split
      · rename_i giveUp
        apply Passed.stop handled verdict
        simp [leftover, stalled, verdict, giveUp]
      · rename_i goOn
        apply Passed.cons handled found' fresh (ih usable' (List.nodup_cons.mp nodup).2 present')
        simp [leftover, stalled, verdict, goOn]

theorem run_reclaimEach {names : List Chars} (pending : ∀ name ∈ names, isPending name = true) (cutoff : Int)
    (s : Station) : ((Replayer.reclaimEach cutoff names).run (serve clock service) s).2 = s := by
  induction names with
  | nil => rfl
  | cons name names ih =>
    simp only [Replayer.reclaimEach, parseClaim_of_pending (pending name List.mem_cons_self)]
    exact ih fun name' member => pending name' (List.mem_cons_of_mem _ member)

theorem run_reclaim {s : Station} (usable : Usable s.dir) :
    (Replayer.reclaim.run (serve clock service) s).2 = { s with readings := s.readings + 1 } := by
  simp only [Replayer.reclaim, query, Prog.ask_bind, Prog.run, serve]
  apply run_reclaimEach
  intro name member
  obtain ⟨file, present⟩ := Folders.mem_list.mp member
  exact (usable name file present).1

theorem run_runOnce (clock : Nat → Nat) (service : Service) (r : Replayer) {s : Station} (usable : Usable s.dir) :
    Passed service r s.dir 0 (pendingNames s.dir) s (r.runOnce.run (serve clock service) s).2 := by
  simp only [Replayer.runOnce, Prog.run_bind, run_reclaim usable, Replayer.pending, query, Prog.ask_bind, Prog.run, serve,
    Prog.pure_eq, Prog.map_eq_bind]
  have present : ∀ name ∈ pendingNames s.dir,
      s.dir.get .spill name = s.dir.get .spill name ∧ ∃ file, s.dir.get .spill name = some file :=
    fun name member => ⟨rfl, (mem_pendingNames usable).mp member⟩
  let later : Station := { s with readings := s.readings + 1 }
  have passed : Passed service r s.dir 0 (pendingNames s.dir) later
      ((r.replayEach 0 {} (pendingNames s.dir)).run (serve clock service) later).2 :=
    run_replayEach usable (pendingNames_nodup s.dir) present
  exact ⟨passed.spill, passed.kept, passed.accepted⟩

def passes (clock : Nat → Nat) (service : Service) (r : Replayer) (b : Backlog) (count : Nat) : Station :=
  (fun s => (r.runOnce.run (serve clock service) s).2)^[count] { dir := b.dir }

/-- After finitely many passes every record the service takes has been taken. -/
def Drained (clock : Nat → Nat) (service : Service) (r : Replayer) (b : Backlog) : Prop :=
  ∃ count, ∀ name record, recordAt b.dir name = some record → r.verdict service record = .replayed →
    (passes clock service r b count).dir.get .spill name = none ∧
      (r.endpoint record, record.body) ∈ (passes clock service r b count).accepted

/-- No record the service takes stands behind three in a row that it fails. -/
def Unobstructed (service : Service) (r : Replayer) (b : Backlog) : Prop :=
  ∀ name record, recordAt b.dir name = some record → r.verdict service record = .replayed →
    ¬ Behind (stalls r service b.dir) maxConsecutiveFailures (pendingNames b.dir) name

structure Remaining (service : Service) (r : Replayer) (b : Backlog) (count : Nat) (s : Station) : Prop where
  usable : Usable s.dir
  names : pendingNames s.dir = (leftover (stalls r service b.dir) maxConsecutiveFailures 0)^[count] (pendingNames b.dir)
  same : ∀ name ∈ pendingNames s.dir, s.dir.get .spill name = b.dir.get .spill name

theorem Passed.usable {dir : SpillDir} {fails : Nat} {names : List Chars} {s s' : Station}
    (passed : Passed service r dir fails names s s') (usable : Usable s.dir) : Usable s'.dir := by
  intro name file present
  rw [passed.spill] at present
  split at present
  · cases present
  · exact usable name file present

theorem Passed.names {s s' : Station} (passed : Passed service r s.dir 0 (pendingNames s.dir) s s')
    (usable : Usable s.dir) :
    pendingNames s'.dir = leftover (stalls r service s.dir) maxConsecutiveFailures 0 (pendingNames s.dir) := by
  have sub : (leftover (stalls r service s.dir) maxConsecutiveFailures 0 (pendingNames s.dir)).Sublist
      (pendingNames s.dir) := leftover_sublist 0 _
  apply Folders.eq_of_mem_iff (pendingNames_sorted _) ((pendingNames_sorted s.dir).sublist sub) (pendingNames_nodup _)
    (sub.nodup (pendingNames_nodup s.dir))
  intro name
  rw [mem_pendingNames (passed.usable usable), passed.spill]
  constructor
  · intro present
    obtain ⟨file, present⟩ := present
    split at present
    · cases present
    · rename_i stays
      have listed : name ∈ pendingNames s.dir := (mem_pendingNames usable).mpr ⟨file, present⟩
      by_contra dropped
      exact stays ⟨listed, dropped⟩
  · intro left
    obtain ⟨file, present⟩ := (mem_pendingNames usable).mp (sub.subset left)
    exact ⟨file, by simp [left, present]⟩

theorem remaining_passes (clock : Nat → Nat) (service : Service) (r : Replayer) (b : Backlog) (count : Nat) :
    Remaining service r b count (passes clock service r b count) := by
  induction count with
  | zero => exact ⟨b.usable, rfl, fun _ _ => rfl⟩
  | succ count ih =>
    have passed := run_runOnce clock service r ih.usable
    have stalled : ∀ name ∈ pendingNames (passes clock service r b count).dir,
        stalls r service (passes clock service r b count).dir name = stalls r service b.dir name := by
      intro name member
      simp only [stalls, recordAt, ih.same name member]
    have names := passed.names ih.usable
    rw [leftover_congr 0 stalled] at names
    have next : passes clock service r b (count + 1) =
        (r.runOnce.run (serve clock service) (passes clock service r b count)).2 :=
      Function.iterate_succ_apply' _ _ _
    rw [next]
    constructor
    · exact passed.usable ih.usable
    · rw [names, ih.names, Function.iterate_succ_apply']
    · intro name member
      have left := member
      rw [names] at left
      have before := (leftover_sublist _ _).subset left
      rw [← ih.same name before, passed.spill, if_neg]
      intro both
      rw [leftover_congr 0 stalled] at both
      exact both.2 left

/-- A pass gives up after three failures in a row and finds them in front again the next time. -/
theorem pending_of_behind {b : Backlog} {name : Chars}
    (behind : Behind (stalls r service b.dir) maxConsecutiveFailures (pendingNames b.dir) name) (count : Nat) :
    (passes clock service r b count).dir.get .spill name ≠ none := by
  have remaining := remaining_passes clock service r b count
  have pending : name ∈ pendingNames (passes clock service r b count).dir := by
    rw [remaining.names]
    exact (behind.iterate (by decide) count).mem
  obtain ⟨file, present⟩ := (mem_pendingNames remaining.usable).mp pending
  rw [present]
  exact Option.some_ne_none file

/-- The passes get at exactly the records that stand behind no three failures in a row. -/
theorem drained_iff (clock : Nat → Nat) (service : Service) (r : Replayer) (b : Backlog) :
    Drained clock service r b ↔ Unobstructed service r b := by
  constructor
  · intro drained name record found good behind
    obtain ⟨count, drained⟩ := drained
    exact pending_of_behind behind count (drained name record found good).1
  · intro clear
    have passed := run_runOnce clock service r (s := { dir := b.dir }) b.usable
    apply Exists.intro 1
    intro name record found good
    have stalled : stalls r service b.dir name = false := by simp [stalls_eq found, good]
    have listed : name ∈ pendingNames b.dir := by
      apply (mem_pendingNames b.usable).mpr
      simp only [recordAt] at found
      split at found
      · exact ⟨_, by assumption⟩
      · cases found
    have dropped : name ∉ leftover (stalls r service b.dir) maxConsecutiveFailures 0 (pendingNames b.dir) := by
      intro left
      exact clear name record found good ((mem_leftover_iff stalled (by decide)).mp left)
    refine ⟨?_, passed.accepted name listed dropped record found good⟩
    have gone := passed.spill name
    rwa [if_pos ⟨listed, dropped⟩] at gone

section Sample

def eventOf (body : String) : SpillRecord where
  kind := "queue".toList
  url := "http://log/api/queue".toList
  body := body.toList

def eventFile (body : String) : SpillFile := ⟨.record (eventOf body), 0⟩

/-- Three events the log service chokes on, spilled before one that it takes. -/
def chokedDir : SpillDir :=
  ((((Folders.empty.put .spill "1.queue.0001.json".toList (eventFile "bad")).put
    .spill "2.queue.0002.json".toList (eventFile "bad")).put
    .spill "3.queue.0003.json".toList (eventFile "bad")).put
    .spill "4.queue.0004.json".toList (eventFile "good"))

theorem chokedDir_usable : Usable chokedDir := by
  intro name file present
  simp only [chokedDir, Folders.get_put, true_and, Folders.get_empty] at present
  split at present
  · rename_i same
    cases present
    rw [same]
    exact ⟨by decide, _, rfl, by decide⟩
  · split at present
    · rename_i same
      cases present
      rw [same]
      exact ⟨by decide, _, rfl, by decide⟩
    · split at present
      · rename_i same
        cases present
        rw [same]
        exact ⟨by decide, _, rfl, by decide⟩
      · split at present
        · rename_i same
          cases present
          rw [same]
          exact ⟨by decide, _, rfl, by decide⟩
        · cases present

def choked : Backlog := ⟨chokedDir, chokedDir_usable⟩

def pickyService : Service := fun _ body => if body = "good".toList then some 200 else some 500

def plainReplayer : Replayer := { pid := 1, urlFor := fun _ => [] }

/-- Three events that keep failing hold up the good one behind them for ever. -/
theorem choked_never_drained : ¬ Drained (fun _ => 0) pickyService plainReplayer choked := by
  intro drained
  obtain ⟨count, drained⟩ := drained
  have listed : pendingNames chokedDir = ["1.queue.0001.json".toList, "2.queue.0002.json".toList,
      "3.queue.0003.json".toList] ++ ["4.queue.0004.json".toList] := by decide
  have behind : Behind (stalls plainReplayer pickyService choked.dir) maxConsecutiveFailures (pendingNames choked.dir)
      "4.queue.0004.json".toList :=
    ⟨[], ["1.queue.0001.json".toList, "2.queue.0002.json".toList, "3.queue.0003.json".toList],
      ["4.queue.0004.json".toList], listed, by decide, by decide, by decide⟩
  have found : recordAt choked.dir "4.queue.0004.json".toList = some (eventOf "good") := by decide
  exact pending_of_behind behind count (drained _ _ found (by decide)).1

end Sample

end Mailgw.Events
