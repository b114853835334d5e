import Mailgw.Queue.Handling

namespace Mailgw.Queue

open Calls Spool Disk

def Entry.Shows (entry : Entry) (d : Disk) (e : Envelope) : Prop :=
  entry.queue ≠ .data ∧ d.Holds entry.queue entry.name e ∧ entry.env = .ok e

namespace Ledger

variable {t : Nat} {op : Op} {w w₀ : Ledger} {dir : Dir} {name uuid : Name} {e : Envelope}

theorem sat_readDir {final : Except Failure (List Name) → Ledger → Prop} (operator : op.isOperator = true)
    (sound : w.Sound) (body : final (.ok (w.disk.list dir)) w) :
    Sat (tracked t op) final (readDir dir).run w := by
  apply sat_quiet rfl sound
  intro w₁ rely _ choice allowed
  cases rely.alone operator
  have calm : choice.fails = false := by
    cases failed : choice.fails with
    | true =>
      have sturdy := allowed failed
      rw [Op.brittle_of_fragile (Op.fragile_of_operator operator)] at sturdy
      cases sturdy
    | false => rfl
  simpa only [exec, calm, Bool.false_eq_true, if_false] using body

theorem sat_entriesIn (operator : op.isOperator = true) (outside : dir ≠ .data)
    (sound : w.Sound) (names : List Name) (listed : ∀ name ∈ names, ∃ e, w.disk.Holds dir name e) :
    Sat (tracked t op) (fun r w' => w' = w ∧ ∃ entries, r = .ok entries ∧ entries.map Entry.name = names ∧
      ∀ entry ∈ entries, entry.queue = dir ∧ ∃ e, entry.Shows w.disk e) (entriesIn dir names).run w := by
  induction names with
  | nil => exact ⟨rfl, [], rfl, rfl, fun _ member => by cases member⟩
  | cons name rest ih =>
    obtain ⟨e, holds⟩ := listed name (by simp)
    apply Sat.except_bind
    apply sat_result
    apply sat_readEnvelope sound (Op.brittle_of_fragile (Op.fragile_of_operator operator) _) outside
    · intro w₁ rely
      cases rely.alone operator
      exact holds
    · intro w₁ rely _
      cases rely.alone operator
      apply Sat.except_bind
      apply (ih fun name member => listed name (by simp [member])).mono
      rintro r w' ⟨rfl, entries, rfl, named, each⟩
      refine ⟨rfl, _, rfl, by simp [named], fun entry member => ?_⟩
      rcases List.mem_cons.mp member with rfl | later
      · exact ⟨rfl, e, outside, holds, rfl⟩
      · exact each entry later

theorem sat_entriesOf (operator : op.isOperator = true) (sound : w.Sound)
    (dirs : List Dir) (outside : ∀ dir ∈ dirs, dir ≠ .data) :
    Sat (tracked t op) (fun r w' => w' = w ∧ ∃ entries, r = .ok entries ∧
      (∀ entry ∈ entries, ∃ e, entry.Shows w.disk e) ∧
      ∀ dir ∈ dirs, ∀ name e, w.disk.Holds dir name e → ∃ entry ∈ entries, entry.queue = dir ∧ entry.env = .ok e)
      (entriesOf dirs).run w := by
  induction dirs with
  | nil => exact ⟨rfl, [], rfl, by simp, by simp⟩
  | cons dir dirs ih =>
    have here := outside dir (by simp)
    apply Sat.except_bind
    apply sat_readDir operator sound
    apply Sat.except_bind
    apply (sat_entriesIn operator here sound _ _).mono
    · rintro r w' ⟨rfl, first, rfl, named, each⟩
      apply Sat.except_bind
      apply (ih fun dir member => outside dir (by simp [member])).mono
      rintro r w'' ⟨rfl, later, rfl, shown, complete⟩
      refine ⟨rfl, first ++ later, rfl, fun entry member => ?_, fun dir' within name e holds => ?_⟩
      · rcases List.mem_append.mp member with early | late
        · exact (each entry early).2
        · exact shown entry late
      · rcases List.mem_cons.mp within with rfl | rest
        · have listed : name ∈ first.map Entry.name := by
            rw [named]
            exact mem_list.mpr ⟨_, holds⟩
          obtain ⟨entry, member, rfl⟩ := List.mem_map.mp listed
          obtain ⟨rfl, e', -, holds', read⟩ := each entry member
          cases holds_unique holds' holds
          exact ⟨entry, by simp [member], rfl, read⟩
        · obtain ⟨entry, member, found⟩ := complete dir' rest name e holds
          exact ⟨entry, by simp [member], found⟩
    · intro name listed
      obtain ⟨file, got⟩ := mem_list.mp listed
      obtain ⟨e, rfl, -⟩ := sound.filed dir name file here got
      exact ⟨e, got⟩

theorem sat_find {final : Except Failure Entry → Ledger → Prop} (operator : op.isOperator = true)
    (sound : w.Sound) (missing : final (.error .notQueued) w)
    (found : ∀ entry e, entry.Shows w.disk e → e.uuid = uuid →
      (∀ dir name e', dir ≠ .data → w.disk.Holds dir name e' → e'.uuid = uuid →
        Entry.rank entry.queue ≤ Entry.rank dir) → final (.ok entry) w) :
    Sat (tracked t op) final (find uuid).run w := by
  apply Sat.except_bind
  apply Sat.except_bind
  apply (sat_entriesOf operator sound inspectDirs (by decide)).mono
  rintro r w' ⟨rfl, entries, rfl, shown, complete⟩
  apply Sat.except_pure
  dsimp only
  split
  · rename_i entry first
    obtain ⟨member, of, ranked⟩ := find?_first first
    obtain ⟨e, outside, holds, read⟩ := shown entry member
    have uuidOf : e.uuid = uuid := by simpa [Entry.uuid, read] using of
    apply found entry e ⟨outside, holds, read⟩ uuidOf
    intro dir name e' outside' holds' of'
    have inspected : dir ∈ inspectDirs := by cases dir <;> simp_all [inspectDirs]
    obtain ⟨other, within, rfl, read'⟩ := complete dir inspected name e' holds'
    exact ranked other within (by simpa [Entry.uuid, read'] using of')
  · exact missing

theorem sat_orInFlight {p : Spool Unit} {post : Except Failure Unit → Ledger → Prop}
    (sat : Sat (tracked t op) (fun r w' => ∀ r', (r = .ok () ↔ r' = .ok ()) → post r' w') p.run w) :
    Sat (tracked t op) post (orInFlight p).run w := by
  apply Sat.except_bind
  apply sat_result
  apply sat.mono
  intro r w' holds
  match r with
  | .ok () => exact holds _ Iff.rfl
  | .error .notExist => exact holds _ (by simp)
  | .error .io | .error .torn | .error (.invalid _) | .error .inFlight | .error .notQueued
  | .error (.misplaced _) => exact holds _ Iff.rfl

theorem sat_removeIfExists {post : Except Failure Unit → Ledger → Prop} (operator : op.isOperator = true)
    (sound : w.Sound) (holds : w.disk.Holds dir name e) (guar : Guar t op w (w.removed op dir name))
    (body : post (.ok ()) (w.removed op dir name)) : Sat (tracked t op) post (removeIfExists dir name).run w := by
  apply Sat.except_bind
  apply sat_result
  apply sat_remove sound
  · intro w₁ rely _ err failed
    cases rely.alone operator
    rcases failed with sturdy | missing
    · rw [Op.fragile_of_operator operator] at sturdy
      cases sturdy
    · cases missing.symm.trans holds
  · intro w₁ rely _ file got
    cases rely.alone operator
    exact ⟨guar, body⟩

section Commands
variable {pid : Fin (2 ^ 63)}

theorem sat_flush (armed : Armed t (.flush uuid) w) :
    Sat (tracked t (.flush uuid)) (Ended t (.flush uuid) w) ((Op.flush uuid).prog pid) w := by
  have calm : Ended t (.flush uuid) w none w := armed.unchanged (fun gateway => by cases gateway) (Rely.refl t _ w)
  apply sat_plain
  apply Sat.except_bind
  apply sat_find rfl armed.sound calm
  rintro ⟨dir, name, env, due⟩ e ⟨outside, holds, read⟩ rfl ranked
  cases dir with
  | ready =>
    apply Sat.except_bind
    apply sat_now armed.sound
    intro w₁ rely sound clock
    cases rely.alone rfl
    show Sat _ _ (ExceptT.run (if _ then _ else _)) _
    split
    · exact calm
    · apply sat_orInFlight
      apply sat_rename (.inl rfl) sound
      · intro w₂ rely₂ _ err r _
        exact armed.unchanged (fun gateway => by cases gateway) rely₂
      · intro w₂ rely₂ sound₂ file got
        cases rely₂.alone rfl
        cases got.symm.trans holds
        have rested := armed.rested _ rfl
        have guar : Guar t (.flush e.uuid) w (w.renamed t (.flush e.uuid) name .ready (readyName clock e.uuid) (.json e)) :=
          Guar.rename sound (.inl rfl) holds ⟨clock, rfl⟩ rfl rested
        refine ⟨guar, fun r _ => ⟨fun _ _ none => (by cases none), ?_, fun gateway => (by cases gateway)⟩⟩
        intro u mine
        exact guar.rested u mine (.inr rfl) (armed.rested u mine)
  | data => exact (outside rfl).elim
  | _ => exact calm

theorem sat_removeEnvelope (armed : Armed t (.remove uuid) w) :
    Sat (tracked t (.remove uuid)) (Ended t (.remove uuid) w) ((Op.remove uuid).prog pid) w := by
  have calm : Ended t (.remove uuid) w none w := armed.unchanged (fun gateway => by cases gateway) (Rely.refl t _ w)
  apply sat_plain
  apply Sat.except_bind
  apply sat_find rfl armed.sound calm
  rintro ⟨dir, name, env, due⟩ e ⟨outside, holds, rfl⟩ rfl ranked
  show Sat _ _ (ExceptT.run (if dir = .inflight then _ else _)) _
  split
  · exact calm
  · rename_i resting
    apply Sat.except_bind
    apply sat_orInFlight
    apply sat_remove armed.sound
    · intro w₁ rely _ err _ r failed
      cases r with
      | ok value => cases failed.mpr rfl
      | error err => exact armed.unchanged (fun gateway => by cases gateway) rely
    · intro w₁ rely sound file got
      cases rely.alone rfl
      have outside : dir ≠ .data := outside
      have speaks : (Event.did (.remove e.uuid) (.remove dir name)).about = some (e.uuid, none) := by
        simp [Event.about, outside]
      have leaves := (armed.rested _ rfl).leave dir name
      have guar : Guar t (.remove e.uuid) w (w.removed (.remove e.uuid) dir name) := by
        apply Guar.remove sound outside holds rfl _ (standing_cons_self speaks) (fun _ => leaves.toTidy)
          (fun _ _ => leaves) (fun keeps => by cases keeps) (fun inflight => absurd inflight resting)
        intro u version said
        cases speaks.symm.trans said
        rfl
      refine ⟨guar, fun r moved => ?_⟩
      have rests : ∀ u, (Op.remove e.uuid).uuid? = some u → ((w.removed (.remove e.uuid) dir name).trail u).Rested :=
        fun u mine => guar.rested u mine (.inl rfl) (armed.rested u mine)
      cases moved.mp rfl
      apply sat_gcBody guar.sound rests
      exact fun r w' rested => ⟨fun _ _ none => (by cases none), rested, fun gateway => (by cases gateway)⟩

theorem sat_hold (armed : Armed t (.hold uuid) w) :
    Sat (tracked t (.hold uuid)) (Ended t (.hold uuid) w) ((Op.hold uuid).prog pid) w := by
  have calm : Ended t (.hold uuid) w none w := armed.unchanged (fun gateway => by cases gateway) (Rely.refl t _ w)
  apply sat_plain
  apply Sat.except_bind
  apply sat_find rfl armed.sound calm
  rintro ⟨dir, name, env, due⟩ e ⟨outside, holds, rfl⟩ rfl ranked
  cases dir with
  | ready =>
    have holds : w.disk.Holds .ready name e := holds
    obtain ⟨valid, -⟩ := armed.sound.file (by decide) holds
    have rested := armed.rested _ rfl
    have queued : (name, e) ∈ (w.trail e.uuid).copies .ready := ⟨by decide, holds, rfl⟩
    apply Sat.except_bind
    apply Sat.except_bind
    apply sat_checkValid
    · intro invalid
      rw [stampVersion_of_valid valid] at invalid
      exact absurd valid invalid
    · intro _
      rw [stampVersion_of_valid valid]
      apply sat_writeEnvelope armed.sound
      · intro sturdy
        cases sturdy
      · intro w₁ rely sound
        cases rely.alone rfl
        have speaks : (Event.did (.hold e.uuid) (.publish .quarantine (plainName e.uuid) (.json e))).about =
          some (e.uuid, some e) := rfl
        have copied := rested.commit_quarantine (plainName e.uuid) (.inl ⟨name, queued⟩)
        have guar : Guar t (.hold e.uuid) w (w.published (.hold e.uuid) .quarantine (plainName e.uuid) e) :=
          Guar.publish sound (by decide) (by decide) valid rfl rfl speaks (fun _ => copied.toTidy)
            (fun _ _ => copied) (fun _ gateway => by cases gateway) (fun _ => by decide)
        refine ⟨guar, ?_⟩
        have there : (w.published (.hold e.uuid) .quarantine (plainName e.uuid) e).disk.Holds .ready name e :=
          holds_put_iff.mpr (.inr ⟨by simp, holds⟩)
        have now : (w.published (.hold e.uuid) .quarantine (plainName e.uuid) e).trail e.uuid = _ :=
          trail_published (by decide) speaks
        have silent : (Event.did (.hold e.uuid) (.remove .ready name)).about = none := rfl
        have held : ∃ name', (name', e) ∈ ((w.published (.hold e.uuid) .quarantine (plainName e.uuid) e).trail
            e.uuid).copies .quarantine := ⟨plainName e.uuid, by rw [now]; simp [Trail.copies_add]⟩
        have rested₁ := guar.rested _ rfl (.inr rfl) rested
        have queued₁ : (name, e) ∈ ((w.published (.hold e.uuid) .quarantine (plainName e.uuid) e).trail
            e.uuid).copies .ready := ⟨by decide, there, rfl⟩
        have left := rested₁.drop_ready queued₁ held
        have guar' : Guar t (.hold e.uuid) (w.published (.hold e.uuid) .quarantine (plainName e.uuid) e)
            ((w.published (.hold e.uuid) .quarantine (plainName e.uuid) e).removed (.hold e.uuid) .ready name) :=
          Guar.remove guar.sound (by decide) there rfl (fun _ _ said => by cases said) (standing_cons_none silent)
            (fun _ => left.toTidy) (fun _ _ => left) (fun _ => by decide) (fun inflight => by cases inflight)
        apply sat_removeIfExists rfl guar.sound there guar'
        refine ⟨fun _ _ none => (by cases none), ?_, fun gateway => (by cases gateway)⟩
        rintro u ⟨⟩
        rw [trail_removed, standing_cons_none silent]
        exact left
  | data => exact (outside rfl).elim
  | _ => exact calm

theorem sat_release (armed : Armed t (.release uuid) w) :
    Sat (tracked t (.release uuid)) (Ended t (.release uuid) w) ((Op.release uuid).prog pid) w := by
  have calm : Ended t (.release uuid) w none w := armed.unchanged (fun gateway => by cases gateway) (Rely.refl t _ w)
  apply sat_plain
  apply Sat.except_bind
  apply sat_find rfl armed.sound calm
  rintro ⟨dir, name, env, due⟩ e ⟨outside, holds, rfl⟩ rfl ranked
  show Sat _ _ (ExceptT.run (if dir ≠ .quarantine then _ else _)) _
  split
  · exact calm
  · rename_i quarantined
    obtain rfl : dir = .quarantine := not_not.mp quarantined
    have holds : w.disk.Holds .quarantine name e := holds
    have ranked : ∀ dir name e', dir ≠ .data → w.disk.Holds dir name e' → e'.uuid = e.uuid →
      Entry.rank .quarantine ≤ Entry.rank dir := ranked
    obtain ⟨valid, -⟩ := armed.sound.file (by decide) holds
    have rested := armed.rested _ rfl
    -- The listing showed the copy in quarantine first: there is none in q/ or in flight.
    have alone : ∀ dir, Entry.rank dir < Entry.rank .quarantine → (w.trail e.uuid).copies dir = ∅ := by
      intro dir before
      apply Set.eq_empty_of_forall_notMem
      rintro ⟨name', e'⟩ ⟨outside', holds', of⟩
      have after := ranked dir name' e' outside' holds' of
      omega
    apply Sat.except_bind
    apply sat_now armed.sound
    intro w₁ rely sound clock
    cases rely.alone rfl
    have valid₁ : (e.resetAttempts.dueAt clock).Valid := valid.resetAttempts.dueAt clock
    apply Sat.except_bind
    apply sat_spoolEnqueue sound
    · intro invalid
      rw [stampVersion_of_valid valid₁] at invalid
      exact absurd valid₁ invalid
    · intro _ w₂ rely₂ sound₂ due
      cases rely₂.alone rfl
      rw [stampVersion_of_valid valid₁]
      apply sat_writeEnvelope sound₂
      · intro sturdy
        cases sturdy
      · intro w₃ rely₃ sound₃
        cases rely₃.alone rfl
        have speaks : (Event.did (.release e.uuid) (.publish .ready (readyName due e.uuid)
            (.json ((e.resetAttempts.dueAt clock).dueAt due)))).about =
          some (((e.resetAttempts.dueAt clock).dueAt due).uuid, some ((e.resetAttempts.dueAt clock).dueAt due)) := rfl
        have back := rested.commit_ready (alone .ready (by decide)) (alone .inflight (by decide)) (readyName due e.uuid)
          ((e.resetAttempts.dueAt clock).dueAt due)
        have guar : Guar t (.release e.uuid) w (w.published (.release e.uuid) .ready (readyName due e.uuid)
            ((e.resetAttempts.dueAt clock).dueAt due)) :=
          Guar.publish sound (by decide) (by decide) (valid₁.dueAt due) ⟨due, rfl⟩ rfl speaks (fun _ => back.toTidy)
            (fun _ _ => back) (fun _ gateway => by cases gateway) (fun _ => by decide)
        refine ⟨guar, ?_⟩
        have there : (w.published (.release e.uuid) .ready (readyName due e.uuid)
            ((e.resetAttempts.dueAt clock).dueAt due)).disk.Holds .quarantine name e :=
          holds_put_iff.mpr (.inr ⟨by simp, holds⟩)
        have silent : (Event.did (.release e.uuid) (.remove .quarantine name)).about = none := rfl
        have rested₁ := guar.rested _ rfl (.inr rfl) rested
        have queued₁ : (((w.published (.release e.uuid) .ready (readyName due e.uuid)
            ((e.resetAttempts.dueAt clock).dueAt due)).trail e.uuid).copies .ready).Nonempty :=
          ⟨(readyName due e.uuid, (e.resetAttempts.dueAt clock).dueAt due), by decide,
            holds_put_iff.mpr (.inl ⟨rfl, rfl, rfl⟩), rfl⟩
        have left := rested₁.drop_quarantine queued₁ name
        have guar' : Guar t (.release e.uuid) (w.published (.release e.uuid) .ready (readyName due e.uuid)
            ((e.resetAttempts.dueAt clock).dueAt due)) ((w.published (.release e.uuid) .ready (readyName due e.uuid)
            ((e.resetAttempts.dueAt clock).dueAt due)).removed (.release e.uuid) .quarantine name) :=
          Guar.remove guar.sound (by decide) there rfl (fun _ _ said => by cases said) (standing_cons_none silent)
            (fun _ => left.toTidy) (fun _ _ => left) (fun _ => by decide) (fun inflight => by cases inflight)
        apply sat_removeIfExists rfl guar.sound there guar'
        refine ⟨fun _ _ none => (by cases none), ?_, fun gateway => (by cases gateway)⟩
        rintro u ⟨⟩
        rw [trail_removed, standing_cons_none silent]
        exact left

end Commands

end Ledger

end Mailgw.Queue
