import Mailgw.Events.ReplaySafety

namespace Mailgw.Events

open Calls Files Lists

/-- Watches a program for the rename of one file: the listings it gets show the file, and the
    clock says that a claim taken at `time` is past the grace. -/
def lookout (file name : Chars) (time : Nat) : Stages ReplayCall ReplayCall.Answer Bool where
  may := fun _ _ => True
  can
    | .readDir .spill, names => ∃ list, names = some list ∧ file ∈ list
    | .clock, now => time + claimGrace < now
    | _, _ => True
  after c _ made := made || decide (c = .rename file .spill name)

section Programs
variable {file name : Chars} {time : Nat}

theorem looked {α : Type} (p : Replay α) : Follows (lookout file name time) (fun _ made => made = true) p true := by
  induction p with
  | done value => rfl
  | call c next ih => exact ⟨trivial, fun answer _ => ih answer⟩

theorem reclaimEach_looks (parsed : parseClaim file = some (name, (time : Int))) {cutoff : Int} (late : (time : Int) < cutoff)
    {names : List Chars} (listed : file ∈ names) :
    Follows (lookout file name time) (fun _ made => made = true) (Replayer.reclaimEach cutoff names) false := by
  induction names with
  | nil => cases listed
  | cons first names ih =>
    simp only [Replayer.reclaimEach]
    by_cases own : first = file
    · subst own
      simp only [parsed, late, ite_true]
      apply Follows.bind
      refine Follows.ask trivial ?_
      intro moved _
      have made : (lookout first name time).after (.rename first .spill name) moved false = true := by simp [lookout]
      rw [made]
      exact looked _
    · have later : file ∈ names := (List.mem_cons.mp listed).resolve_left fun same => own same.symm
      split
      · exact ih later
      · split
        · apply Follows.bind
          refine Follows.ask trivial ?_
          intro moved _
          rename_i orig _ _ _ _
          have unmade : (lookout file name time).after (.rename first .spill orig) moved false = false := by
            simp [lookout, own]
          rw [unmade]
          exact ih later
        · exact ih later

theorem replay_looks (r : Replayer) (parsed : parseClaim file = some (name, (time : Int))) :
    Follows (lookout file name time) (fun _ made => made = true) (Chore.replay.prog r) false := by
  apply Follows.bind
  apply Follows.bind
  have reclaims : Follows (lookout file name time) (fun _ made => made = true) Replayer.reclaim false := by
    refine Follows.ask trivial ?_
    intro names listed
    obtain ⟨list, rfl, member⟩ := listed
    refine Follows.ask trivial ?_
    intro now late
    have late' : time + claimGrace < now := late
    exact reclaimEach_looks parsed (by omega) member
  apply reclaims.mono
  intro _ made same
  subst same
  apply (looked _).mono
  intro _ made same
  subst same
  rfl

end Programs

namespace FailedEvents

variable {s : FailedEvents}

def Abandoned (s : FailedEvents) (file : Chars) : Prop :=
  s.dir.get .spill file ≠ none ∧ ∀ p ∈ s.procs, ∀ h, p.progress.claim = some h → h.path ≠ file

theorem Abandoned.step (inv : Inv s) {file name : Chars} {time : Int} (abandoned : s.Abandoned file)
    (parsed : parseClaim file = some (name, time)) {i : Nat} {c : ReplayCall} {rest : c.Answer → Replay Unit} {g : Progress}
    (at_ : s.procs[i]? = some ⟨.call c rest, g⟩) (luck : Luck) {s' : FailedEvents}
    (after : s' = { s.note g c (exec luck s.now s.dir c).1 with
      dir := (exec luck s.now s.dir c).2
      procs := s.procs.set i ⟨rest (exec luck s.now s.dir c).1, g.after c (exec luck s.now s.dir c).1⟩ })
    (inv' : Inv s') : s'.moved = (file, name) :: s.moved ∨ s'.Abandoned file := by
  have member : (⟨.call c rest, g⟩ : Process) ∈ s.procs := List.mem_of_getElem? at_
  have may : Progress.may c g := (inv.follows _ member).1
  have plain : isPending file = false := by
    cases pending : isPending file with
    | false => rfl
    | true =>
      rw [parseClaim_of_pending pending] at parsed
      cases parsed
  have foreign : ∀ h, g.claim = some h → file ≠ h.path := fun h held same => abandoned.2 _ member h held same.symm
  obtain ⟨entry, present⟩ := Option.ne_none_iff_exists'.mp abandoned.1
  have inside : i < s.procs.length := (List.getElem?_eq_some_iff.mp at_).1
  have unheld : ∀ p ∈ s'.procs, ∀ h, p.progress.claim = some h → h.path ≠ file := by
    intro p started h held same
    have started' := started
    rw [after] at started
    rcases mem_replace started with rfl | old
    · rcases after_claim luck s.now s.dir c held with ⟨h₀, held₀, path, -, -⟩ | ⟨-, -, -, ⟨entry', found⟩, -⟩
      · exact foreign h₀ held₀ (same.symm.trans path)
      · have sound := inv'.claims _ started' h held
        have own := sound.origin inv'.now
        rw [same] at own
        have sole := (inv.shelf.alone _ _ _ _ _ _ _ found present (origin_pending sound.pending) own).2
        have pending := sound.pending
        rw [sole, plain] at pending
        cases pending
    · exact abandoned.2 p old h held same
  rcases exec_file luck s.now s.dir c abandoned.1 with still | ⟨folder, dst, rfl⟩ | rfl
  · right
    refine ⟨?_, unheld⟩
    rw [after]
    exact still
  · cases folder with
    | rejected =>
      obtain ⟨h, held, same, -⟩ := may
      exact (foreign h held same).elim
    | spill =>
      simp only [Progress.may] at may
      split at may
      · rename_i h held
        exact (foreign h held may.1).elim
      · rcases may with ⟨pending, -⟩ | ⟨time', parsed', -⟩
        · rw [plain] at pending
          cases pending
        · rw [parsed] at parsed'
          cases parsed'
          by_cases fails : luck.fails = true
          · right
            refine ⟨?_, unheld⟩
            rw [after]
            simp [exec, fails, present]
          · left
            rw [after]
            simp [exec, fails, present, note]
  · obtain ⟨h, held, same, -⟩ := may
    exact (foreign h held same).elim

/-- The pass of one replayer is not cut short: it does not crash and its calls do not fail. -/
def Steady (i : Nat) : Act → Prop
  | .step j luck => j = i → luck.fails = false
  | .crash j => j ≠ i
  | _ => True

/-- The claim has been returned once more than `k` times; or a pass is still to look at it. -/
def Awaits (s : FailedEvents) (k : Nat) (file name : Chars) (time i : Nat) : Prop :=
  k < s.moved.count (file, name) ∨ k ≤ s.moved.count (file, name) ∧ s.Abandoned file ∧ time + claimGrace < s.now ∧
    ∃ p, s.procs[i]? = some p ∧ Follows (lookout file name time) (fun _ made => made = true) p.prog false

theorem next_moved {act : Act} {s' : FailedEvents} (step : s.next act = some s') : s.moved <:+ s'.moved := by
  cases act with
  | tick now =>
    simp only [next] at step
    split at step
    · cases step
      exact List.suffix_refl _
    · cases step
  | spill time seq record =>
    simp only [next] at step
    split at step
    · cases step
    · cases step
      exact List.suffix_refl _
  | begin r chore =>
    cases step
    exact List.suffix_refl _
  | step i luck =>
    obtain ⟨c, rest, g, -, rfl⟩ := next_step step
    exact (note_later g c _ _ _).moved
  | crash i =>
    cases step
    exact List.suffix_refl _

theorem count_moved {act : Act} {s' : FailedEvents} (step : s.next act = some s') (entry : Chars × Chars) :
    s.moved.count entry ≤ s'.moved.count entry :=
  (next_moved step).sublist.count_le entry

/-- A replayer whose calls do not fail sees the abandoned claim, and returns it when it comes to it. -/
theorem Awaits.own (inv : Inv s) {file name : Chars} {k time i : Nat} (counted : k ≤ s.moved.count (file, name))
    (parsed : parseClaim file = some (name, (time : Int)))
    (abandoned : s.Abandoned file) (late : time + claimGrace < s.now) {c : ReplayCall}
    {rest : c.Answer → Replay Unit} {g : Progress} (at_ : s.procs[i]? = some ⟨.call c rest, g⟩)
    (looks : Follows (lookout file name time) (fun _ made => made = true) (.call c rest) false) {luck : Luck}
    (steady : luck.fails = false) {s' : FailedEvents} (step : s.next (.step i luck) = some s')
    (after : s' = { s.note g c (exec luck s.now s.dir c).1 with
      dir := (exec luck s.now s.dir c).2
      procs := s.procs.set i ⟨rest (exec luck s.now s.dir c).1, g.after c (exec luck s.now s.dir c).1⟩ }) :
    s'.Awaits k file name time i := by
  rcases abandoned.step inv parsed at_ luck after (inv.next step) with moved | still
  · left
    rw [moved, List.count_cons_self]
    omega
  · obtain ⟨entry, present⟩ := Option.ne_none_iff_exists'.mp abandoned.1
    have can : (lookout file name time).can c (exec luck s.now s.dir c).1 := by
      cases c with
      | readDir folder =>
        cases folder with
        | spill =>
          have listed : file ∈ s.dir.list .spill := Folders.mem_list.mpr ⟨entry, present⟩
          exact ⟨s.dir.list .spill, by simp [exec, steady], listed⟩
        | rejected => trivial
      | clock => exact late
      | _ => trivial
    have onward := looks.2 _ can
    by_cases turn : c = .rename file .spill name
    · subst turn
      left
      have moved : s'.moved = (file, name) :: s.moved := by
        rw [after]
        simp [exec, steady, present, note]
      rw [moved, List.count_cons_self]
      omega
    · have unmade : (lookout file name time).after c (exec luck s.now s.dir c).1 false = false := by
        simp [lookout, turn]
      rw [unmade] at onward
      have inside : i < s.procs.length := (List.getElem?_eq_some_iff.mp at_).1
      refine .inr ⟨counted.trans (count_moved step _), still, ?_,
        ⟨rest (exec luck s.now s.dir c).1, g.after c (exec luck s.now s.dir c).1⟩, ?_, onward⟩
      · rw [after]
        simp only [note_now]
        exact late
      · rw [after]
        exact List.getElem?_set_self inside

theorem Awaits.next (inv : Inv s) {file name : Chars} {k time i : Nat}
    (parsed : parseClaim file = some (name, (time : Int)))
    (awaits : s.Awaits k file name time i) {act : Act} (steady : Steady i act) {s' : FailedEvents}
    (step : s.next act = some s') : s'.Awaits k file name time i := by
  have more := count_moved step (file, name)
  rcases awaits with moved | ⟨counted, abandoned, late, p, at_, looks⟩
  · exact .inl (lt_of_lt_of_le moved more)
  · have counted' := counted.trans more
    cases act with
    | tick now =>
      simp only [FailedEvents.next] at step
      split at step
      · rename_i fits
        cases step
        exact .inr ⟨counted', abandoned, lt_of_lt_of_le late fits.1, p, at_, looks⟩
      · cases step
    | spill t seq record =>
      simp only [FailedEvents.next] at step
      split at step
      · cases step
      · cases step
        refine .inr ⟨counted', ⟨?_, abandoned.2⟩, late, p, at_, looks⟩
        rw [Folders.get_put]
        split
        · exact Option.some_ne_none _
        · exact abandoned.1
    | begin r chore =>
      cases step
      have inside : i < s.procs.length := (List.getElem?_eq_some_iff.mp at_).1
      refine .inr ⟨counted', ⟨abandoned.1, ?_⟩, late, p, ?_, looks⟩
      · intro q member h held
        rcases List.mem_append.mp member with old | new
        · exact abandoned.2 q old h held
        · rw [List.mem_singleton.mp new] at held
          cases held
      · rw [List.getElem?_append_left inside]
        exact at_
    | crash j =>
      cases step
      refine .inr ⟨counted', ⟨abandoned.1, ?_⟩, late, p, ?_, looks⟩
      · intro q member h held
        rcases mem_replace member with rfl | old
        · cases held
        · exact abandoned.2 q old h held
      · rw [List.getElem?_set_ne steady]
        exact at_
    | step j luck =>
      obtain ⟨c, rest, g, at', after⟩ := next_step step
      by_cases own : j = i
      · subst own
        rw [at'] at at_
        cases at_
        exact Awaits.own inv counted parsed abandoned late at' looks (steady rfl) step after
      · rcases abandoned.step inv parsed at' luck after (inv.next step) with moved | still
        · left
          rw [moved, List.count_cons_self]
          omega
        · refine .inr ⟨counted', still, ?_, p, ?_, looks⟩
          · rw [after]
            simp only [note_now]
            exact late
          · rw [after]
            simp only
            rw [List.getElem?_set_ne own]
            exact at_

theorem reachable_inv {now : Nat} (fits : now < 2 ^ 63) {ok : FailedEvents → Act → Prop}
    (run : Reachable next ok { now } s) : Inv s :=
  run.invariant Inv (inv_start fits) fun _ _ _ inv _ step => inv.next step

theorem reachable_grip {now : Nat} (fits : now < 2 ^ 63) (run : Reachable next (fun s _ => s.Prompt) { now } s) :
    s.Prompt → Grip s := by
  have both : Inv s ∧ (s.Prompt → Grip s) := by
    apply run.invariant fun s => Inv s ∧ (s.Prompt → Grip s)
    · refine ⟨inv_start fits, fun _ => ⟨?_, ?_⟩⟩
      · intro p member
        cases member
      · intro i j p q h h' first
        cases first
    · intro s act s' held prompt step
      exact ⟨held.1.next step, (held.2 prompt).next held.1 step⟩
  exact both.2

/-- Replay loses nothing: a spilled record stays on disk until it is accepted, or until the time
    it is kept under rejected/ is over; no two live replayers work on one record as long as POSTs
    end within the grace; and a pass that is not cut short returns every claim that was abandoned
    longer ago than the grace. -/
theorem replay_loses_nothing {now : Nat} (fits : now < 2 ^ 63) (s : FailedEvents)
    (run : Reachable next (fun _ _ => True) { now } s) :
    (∀ name record, (name, record) ∈ s.spilled →
      (name, record.body) ∈ s.acked ∨ name ∈ s.swept ∨ Located s.dir name record) ∧
    (Reachable next (fun s _ => s.Prompt) { now } s → s.Prompt →
      ∀ (i j : Nat) (p q : Process) (name : Chars), s.procs[i]? = some p → s.procs[j]? = some q →
        s.Holds p name → s.Holds q name → i = j) ∧
    ∀ (file name : Chars) (time : Nat), parseClaim file = some (name, (time : Int)) → s.Abandoned file →
      time + claimGrace < s.now → ∀ (r : Replayer) (begun s' : FailedEvents), s.next (.begin r .replay) = some begun →
        Reachable next (fun _ act => Steady s.procs.length act) begun s' →
          (∃ g, s'.procs[s.procs.length]? = some ⟨.done (), g⟩) →
            s.moved.count (file, name) < s'.moved.count (file, name) := by
  have inv := reachable_inv fits run
  refine ⟨inv.kept, ?_, ?_⟩
  · intro quick prompt i j p q name first second holds holds'
    exact (reachable_grip fits quick prompt).sole inv prompt first second holds holds'
  · intro file name time parsed abandoned late r begun s' start onward done
    have inv' := inv.next start
    cases start
    have awaits : Awaits { s with procs := s.procs ++ [⟨Chore.replay.prog r, { pid := r.pid }⟩] }
        (s.moved.count (file, name)) file name time s.procs.length := by
      refine .inr ⟨le_refl _, ⟨abandoned.1, ?_⟩, late, _, List.getElem?_concat_length, replay_looks r parsed⟩
      intro q member h held
      rcases List.mem_append.mp member with old | new
      · exact abandoned.2 q old h held
      · rw [List.mem_singleton.mp new] at held
        cases held
    have kept := onward.invariant
      (fun s' => Inv s' ∧ s'.Awaits (s.moved.count (file, name)) file name time s.procs.length) ⟨inv', awaits⟩
      fun _ _ _ held steady step => ⟨held.1.next step, Awaits.next held.1 parsed held.2 steady step⟩
    rcases kept.2 with moved | ⟨-, -, -, p, at_, looks⟩
    · exact moved
    · obtain ⟨g, ended⟩ := done
      rw [ended] at at_
      cases at_
      cases looks

section Sample

def isPrompt (s : FailedEvents) : Bool :=
  s.procs.all fun p => p.progress.claim.all fun h => h.answered || decide (s.now ≤ h.time + claimGrace)

theorem prompt_of_isPrompt {s : FailedEvents} (checked : s.isPrompt = true) : s.Prompt := by
  intro p member h held waits
  have here := List.all_eq_true.mp checked p member
  simpa [held, waits] using here

instance (i : Nat) : (act : Act) → Decidable (Steady i act)
  | .step _ _ => inferInstanceAs (Decidable (_ → _))
  | .crash _ => inferInstanceAs (Decidable (_ ≠ _))
  | .tick _ | .spill _ _ _ | .begin _ _ => .isTrue trivial

def sampleRecord : SpillRecord where
  kind := "queue".toList
  url := "http://log/api/queue".toList
  body := "good".toList

def sampleName : Chars := spillName 0 1 sampleRecord.kind

def sampleReplayer : Replayer where
  pid := 7
  urlFor _ := []
  retention := 30 * 24 * 3600 * second

def claiming : List Act :=
  .spill 0 1 sampleRecord :: .begin sampleReplayer .replay :: List.replicate 6 (.step 0 {})

def claimed : FailedEvents := (play next (fun s _ => s.isPrompt) { now := 0 } claiming).getD { now := 0 }

def abandoned : FailedEvents :=
  (play next (fun _ _ => true) claimed [.crash 0, .tick (1000 * second)]).getD { now := 0 }

def resumed : Option FailedEvents :=
  (abandoned.next (.begin sampleReplayer .replay)).bind fun s =>
    play next (fun _ act => decide (Steady 1 act)) s (List.replicate 10 (.step 1 {}))

def returned : FailedEvents := resumed.getD { now := 0 }

def refused : List Act :=
  claiming ++ List.replicate 6 (.step 0 { status := some 400 }) ++
    [.tick (31 * 24 * 3600 * second), .begin sampleReplayer .sweep] ++ List.replicate 4 (.step 1 {})

theorem claimed_reached : Reachable next (fun s _ => s.Prompt) { now := 0 } claimed := by
  have done : (play next (fun s _ => s.isPrompt) { now := 0 } claiming).isSome = true := by decide
  obtain ⟨s, played⟩ := Option.isSome_iff_exists.mp done
  have same : claimed = s := by simp [claimed, played]
  rw [same]
  exact reachable_of_play (fun _ _ => prompt_of_isPrompt) claiming played

theorem abandoned_reached : Reachable next (fun _ _ => True) { now := 0 } abandoned := by
  have done : (play next (fun _ _ => true) claimed [.crash 0, .tick (1000 * second)]).isSome = true := by decide
  obtain ⟨s, played⟩ := Option.isSome_iff_exists.mp done
  have same : abandoned = s := by simp [abandoned, played]
  rw [same]
  exact (claimed_reached.mono fun _ _ _ => trivial).trans (reachable_of_play (fun _ _ _ => trivial) _ played)

theorem returned_reached : ∃ begun, abandoned.next (.begin sampleReplayer .replay) = some begun ∧
    Reachable next (fun _ act => Steady 1 act) begun returned := by
  have done : resumed.isSome = true := by decide
  obtain ⟨s, played⟩ := Option.isSome_iff_exists.mp done
  have same : returned = s := by simp [returned, played]
  obtain ⟨begun, start, onward⟩ := Option.bind_eq_some_iff.mp played
  refine ⟨begun, start, ?_⟩
  rw [same]
  exact reachable_of_play (fun _ _ => of_decide_eq_true) _ onward

def isDone : Replay Unit → Bool
  | .done _ => true
  | .call _ _ => false

theorem done_of_isDone {p : Replay Unit} (checked : isDone p = true) : p = .done () := by
  cases p with
  | done => rfl
  | call c rest => cases checked

theorem replay_loses_nothing_sample :
    ((sampleName, sampleRecord.body) ∈ claimed.acked ∨ sampleName ∈ claimed.swept ∨
      Located claimed.dir sampleName sampleRecord) ∧
    (∀ (i j : Nat) (p q : Process), claimed.procs[i]? = some p → claimed.procs[j]? = some q →
      claimed.Holds p sampleName → claimed.Holds q sampleName → i = j) ∧
    abandoned.moved.count (claimName 7 0 sampleName, sampleName) <
      returned.moved.count (claimName 7 0 sampleName, sampleName) := by
  have safe := replay_loses_nothing (by decide) claimed (claimed_reached.mono fun _ _ _ => trivial)
  have spilled : (sampleName, sampleRecord) ∈ claimed.spilled := by decide
  refine ⟨safe.1 _ _ spilled, ?_, ?_⟩
  · intro i j p q
    exact safe.2.1 claimed_reached (prompt_of_isPrompt (by decide)) i j p q sampleName
  · have parsed : parseClaim (claimName 7 0 sampleName) = some (sampleName, ((0 : Nat) : Int)) := by decide
    have unheld : (abandoned.procs.all fun p => p.progress.claim.isNone) = true := by decide
    have left_ : abandoned.Abandoned (claimName 7 0 sampleName) := by
      refine ⟨by decide, ?_⟩
      intro p member h held
      have none := List.all_eq_true.mp unheld p member
      rw [held] at none
      cases none
    obtain ⟨begun, start, onward⟩ := returned_reached
    have ended : (returned.procs[1]?.any fun p => isDone p.prog) = true := by decide
    obtain ⟨⟨prog, g⟩, at_, done⟩ := (Option.any_eq_true _ _).mp ended
    have finished : prog = .done () := done_of_isDone done
    rw [finished] at at_
    have here : abandoned.procs.length = 1 := by decide
    rw [← here] at onward at_
    exact (replay_loses_nothing (by decide) abandoned abandoned_reached).2.2 _ _ 0 parsed left_ (by decide) _
      begun returned start onward ⟨g, at_⟩

/-- The retention sweep removes a record that was never accepted. -/
theorem refused_record_swept :
    ¬ ∀ s, Reachable next (fun s _ => s.Prompt) { now := 0 } s → ∀ name record, (name, record) ∈ s.spilled →
      (name, record.body) ∈ s.acked ∨ Located s.dir name record := by
  intro claim
  have ended : ((play next (fun s _ => s.isPrompt) { now := 0 } refused).any fun s =>
      decide ((sampleName, sampleRecord) ∈ s.spilled) && s.acked.isEmpty && (s.dir.list .spill).isEmpty &&
        (s.dir.list .rejected).isEmpty) = true := by decide
  obtain ⟨s, played, facts⟩ := (Option.any_eq_true _ _).mp ended
  simp only [Bool.and_eq_true, decide_eq_true_eq, List.isEmpty_iff] at facts
  obtain ⟨⟨⟨member, acked⟩, pending⟩, rejected⟩ := facts
  have reached := reachable_of_play (fun _ _ => prompt_of_isPrompt) refused played
  rcases claim s reached _ _ member with accepted | ⟨folder, file, modified, -, present⟩
  · simp [acked] at accepted
  · have listed : file ∈ s.dir.list folder := Folders.mem_list.mpr ⟨_, present⟩
    cases folder <;> simp [pending, rejected] at listed

end Sample

end FailedEvents

end Mailgw.Events
