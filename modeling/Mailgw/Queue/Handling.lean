import Mailgw.Queue.Transitions

namespace Mailgw.Queue.Ledger

open Calls Spool Disk

variable {t : Nat} {op : Op} {w w₀ : Ledger} {dir : Dir} {name : Name} {e : Envelope}

structure Ended (t : Nat) (op : Op) (w₀ : Ledger) (claimed : Option (Name × Envelope)) (w : Ledger) : Prop where
  held : ∀ name e, claimed = some (name, e) →
    w.owner name = some t ∧ w.disk.Holds .inflight name e ∧ op.uuid? = some e.uuid
  rested : ∀ uuid, op.uuid? = some uuid → (w.trail uuid).Rested
  unowned : op.isOperator = false → op.gathers = false → claimed = none → ∀ uuid, op.uuid? = some uuid →
    ∀ name e, (name, e) ∈ (w.trail uuid).copies .inflight → w.owner name = some t →
      op.duplicates = false ∧ (name, e) ∈ (w₀.trail uuid).copies .inflight ∧ w₀.owner name = some t

structure Armed (t : Nat) (op : Op) (w : Ledger) : Prop where
  sound : w.Sound
  rested : ∀ uuid, op.uuid? = some uuid → (w.trail uuid).Rested
  held : match op with
    | .complete name e | .reschedule name e _ | .bury name e =>
      e.Valid ∧ w.owner name = some t ∧ ∃ e₀, w.disk.Holds .inflight name e₀ ∧ e₀.uuid = e.uuid
    | .enqueue e | .quarantine e => ∀ dir, (w.trail e.uuid).copies dir = ∅
    | _ => True

theorem Rely.unowned (rely : Rely t op w₀ w) {uuid : Name} (within : (name, e) ∈ (w.trail uuid).copies .inflight)
    (owned : w.owner name = some t) : (name, e) ∈ (w₀.trail uuid).copies .inflight ∧ w₀.owner name = some t := by
  have before := (rely.owned name).1.mp owned
  obtain ⟨outside, holds, of⟩ := within
  exact ⟨⟨outside, ((rely.owned name).2 before).symm.trans holds, of⟩, before⟩

theorem Armed.unchanged (armed : Armed t op w₀) (single : op.isOperator = false → op.duplicates = false)
    (rely : Rely t op w₀ w) : Ended t op w₀ none w where
  held _ _ same := by cases same
  rested uuid mine := rely.rested uuid mine (armed.rested uuid mine)
  unowned gateway _ _ _ _ _ _ within owned := ⟨single gateway, rely.unowned within owned⟩

theorem sat_plain {α : Type} {p : Spool α} (sat : Sat (tracked t op) (fun _ w => Ended t op w₀ none w) p.run w) :
    Sat (tracked t op) (Ended t op w₀) (Op.plain p) w :=
  Sat.bind (sat.mono fun _ _ ended => ended)

theorem sat_claim {pid : Fin (2 ^ 63)} (armed : Armed t (.claim name) w) :
    Sat (tracked t (.claim name)) (Ended t (.claim name) w) ((Op.claim name).prog pid) w := by
  apply Sat.bind
  apply Sat.except_bind
  apply sat_rename (.inr rfl) armed.sound
  · intro w₁ rely _ err
    exact armed.unchanged (fun _ => rfl) rely
  · intro w₁ rely sound file got
    obtain ⟨e, rfl, valid, named⟩ := sound.filed _ _ _ (by decide) got
    have mine : (Op.claim name).uuid? = some e.uuid := named.uuid valid
    have rested := rely.rested _ mine (armed.rested _ mine)
    obtain ⟨due, rfl⟩ := named
    have guar : Guar t (.claim (readyName due e.uuid)) w₁ (w₁.renamed t (.claim (readyName due e.uuid))
        (readyName due e.uuid) .inflight (claimName pid (readyName due e.uuid)) (.json e)) :=
      Guar.rename sound (.inr rfl) got ⟨pid, due, rfl⟩ mine rested
    refine ⟨guar, Sat.except_bind (sat_onError_ok ?_)⟩
    have there : (w₁.renamed t (.claim (readyName due e.uuid)) (readyName due e.uuid) .inflight
        (claimName pid (readyName due e.uuid)) (.json e)).disk.Holds .inflight
        (claimName pid (readyName due e.uuid)) e := holds_put_iff.mpr (.inl ⟨rfl, rfl, rfl⟩)
    apply sat_readEnvelope guar.sound rfl (by decide)
    · intro w₂ rely₂
      exact (rely₂.holds handOver_self there).2
    · intro w₂ rely₂ _
      refine ⟨e, rfl, ?_⟩
      constructor
      · intro name' e' same
        cases same
        exact ⟨(rely₂.holds handOver_self there).1, (rely₂.holds handOver_self there).2, mine⟩
      · intro uuid same
        cases Option.some.inj (mine.symm.trans same)
        exact rely₂.rested _ mine (guar.rested _ mine (.inl rfl) rested)
      · intro _ _ none
        cases none

theorem sat_gcBody {post : Except Failure Unit → Ledger → Prop} (sound : w.Sound)
    (rested : ∀ uuid, op.uuid? = some uuid → (w.trail uuid).Rested)
    (done : ∀ r w', (∀ uuid, op.uuid? = some uuid → (w'.trail uuid).Rested) → post r w') :
    Sat (tracked t op) post (gcBody e).run w := by
  have kept := Sat.of_all (k := tracked t op)
    (fun w' => w'.Sound ∧ ∀ uuid, op.uuid? = some uuid → (w'.trail uuid).Rested) ?_ ?_ (all_gcBody e) ⟨sound, rested⟩
  · apply kept.mono
    intro r w' holds
    exact done r w' holds.2
  · intro w₁ w₂ rely holds
    exact ⟨rely.sound holds.1, fun uuid mine => rely.rested uuid mine (holds.2 uuid mine)⟩
  · intro c w₁ answer w₂ kind holds step
    obtain ⟨guar, same⟩ := Step.aside kind holds.1 step
    refine ⟨guar, guar.sound, fun uuid mine => ?_⟩
    rw [same uuid]
    exact holds.2 uuid mine

theorem sat_finish (gathers : op.gathers = true) (mine : op.uuid? = some e.uuid) (keeps : op.duplicates = false)
    (speaks : Speaks (.did op (.remove .inflight name)) e.uuid) (sound : w.Sound)
    (gone : (w.trail e.uuid).version = none ∨ ∀ log, standing e.uuid (.did op (.remove .inflight name) :: log) = none)
    (rested : (w.trail e.uuid).Rested) (owned : w.owner name = some t)
    (held : ∃ e₀, w.disk.Holds .inflight name e₀ ∧ e₀.uuid = e.uuid) :
    Sat (tracked t op) (fun _ w' => Ended t op w₀ none w') (complete name e).run w := by
  have ended : ∀ {w'}, (∀ uuid, op.uuid? = some uuid → (w'.trail uuid).Rested) → Ended t op w₀ none w' := by
    intro w' rests
    refine ⟨fun _ _ same => ?_, rests, fun _ single => ?_⟩
    · cases same
    · rw [gathers] at single
      cases single
  obtain ⟨e₀, holds, of⟩ := held
  apply Sat.except_bind
  apply sat_remove sound
  · intro w₁ rely _ err _
    apply ended
    intro uuid same
    cases Option.some.inj (mine.symm.trans same)
    exact rely.rested _ mine rested
  · intro w₁ rely sound₁ file got
    obtain ⟨owned₁, there⟩ := rely.holds owned holds
    cases got.symm.trans there
    have rested₁ := rely.rested _ mine rested
    have away : standing e.uuid (.did op (.remove .inflight name) :: w₁.log) = none := by
      rcases gone with already | always
      · exact standing_removed (rely.gone _ mine already)
      · exact always w₁.log
    have leaves := rested₁.leave .inflight name
    have guar : Guar t op w₁ (w₁.removed op .inflight name) := by
      rw [← of] at mine away leaves speaks
      exact Guar.remove sound₁ (by decide) there mine speaks away (fun _ => leaves.toTidy) (fun _ _ => leaves)
        (fun _ => by decide) (fun _ => owned₁)
    refine ⟨guar, sat_gcBody guar.sound ?_ fun _ _ => ended⟩
    intro uuid same
    cases Option.some.inj (mine.symm.trans same)
    exact guar.rested _ mine (.inl keeps) rested₁

theorem sat_complete {pid : Fin (2 ^ 63)} (armed : Armed t (.complete name e) w) :
    Sat (tracked t (.complete name e)) (Ended t (.complete name e) w) ((Op.complete name e).prog pid) w := by
  obtain ⟨-, owned, held⟩ := armed.held
  apply sat_plain
  apply sat_finish rfl rfl rfl _ armed.sound (.inr fun log => _) (armed.rested _ rfl) owned held
  · rintro uuid version said
    cases said
    rfl
  · intro log
    exact standing_cons_self rfl

theorem sat_bury {pid : Fin (2 ^ 63)} (armed : Armed t (.bury name e) w) :
    Sat (tracked t (.bury name e)) (Ended t (.bury name e) w) ((Op.bury name e).prog pid) w := by
  obtain ⟨valid, owned, e₀, holds, of⟩ := armed.held
  apply sat_plain
  apply Sat.except_bind
  apply sat_writeEnvelope armed.sound
  · intro _ w₁ rely _
    exact armed.unchanged (fun _ => rfl) rely
  · intro w₁ rely sound₁
    obtain ⟨owned₁, there⟩ := rely.holds owned holds
    have rested₁ := rely.rested _ rfl (armed.rested _ rfl)
    have buried : (((w₁.trail e.uuid).add .dead (plainName e.uuid) e).settle none).Rested := by
      refine ⟨⟨?_, ?_, fun _ none => ?_⟩, ?_⟩
      · simpa [Trail.copies_add] using rested₁.ready
      · simpa [Trail.copies_add] using rested₁.inflight
      · cases none
      · simpa [Trail.copies_add] using rested₁.apart
    have speaks : (Event.did (.bury name e) (.publish .dead (plainName e.uuid) (.json e))).about =
        some (e.uuid, none) := rfl
    have guar : Guar t (.bury name e) w₁ (w₁.published (.bury name e) .dead (plainName e.uuid) e) :=
      Guar.publish sound₁ (by decide) (by decide) valid rfl rfl speaks (fun _ => buried.toTidy) (fun _ _ => buried)
        (fun _ _ => rfl) (fun keeps => by cases keeps)
    refine ⟨guar, ?_⟩
    have now : (w₁.published (.bury name e) .dead (plainName e.uuid) e).trail e.uuid = _ :=
      trail_published (by decide) speaks
    have held : ∃ e₀, (w₁.published (.bury name e) .dead (plainName e.uuid) e).disk.Holds .inflight name e₀ ∧
        e₀.uuid = e.uuid := ⟨e₀, holds_put_iff.mpr (.inr ⟨by simp, there⟩), of⟩
    rw [← now] at buried
    refine sat_finish rfl rfl rfl ?_ guar.sound (.inl (congrArg Trail.version now)) buried owned₁ held
    intro uuid version said
    cases said

theorem sat_reschedule {pid : Fin (2 ^ 63)} {due : Instant} (armed : Armed t (.reschedule name e due) w) :
    Sat (tracked t (.reschedule name e due)) (Ended t (.reschedule name e due) w)
      ((Op.reschedule name e due).prog pid) w := by
  obtain ⟨valid, owned, e₀, holds, of⟩ := armed.held
  apply sat_plain
  apply Sat.except_bind
  apply sat_writeEnvelope armed.sound
  · intro sturdy
    cases sturdy
  · intro w₁ rely sound₁
    obtain ⟨owned₁, there⟩ := rely.holds owned holds
    have rested₁ : (w₁.trail e.uuid).Rested := rely.rested _ rfl (armed.rested _ rfl)
    have mine₀ : (Op.reschedule name e due).uuid? = some e.uuid := rfl
    have flying : (name, e₀) ∈ (w₁.trail e.uuid).copies .inflight := ⟨by decide, there, of⟩
    have free : (w₁.trail e.uuid).copies .ready = ∅ := by
      apply Set.not_nonempty_iff_eq_empty.mp
      intro queued
      rw [rested₁.apart queued] at flying
      exact flying
    have tidy := rested₁.toTidy.commit_ready free (readyName due e.uuid) (e.dueAt due)
    have speaks : (Event.did (.reschedule name e due) (.publish .ready (readyName due e.uuid) (.json (e.dueAt due)))).about =
        some ((e.dueAt due).uuid, some (e.dueAt due)) := rfl
    have guar : Guar t (.reschedule name e due) w₁
        (w₁.published (.reschedule name e due) .ready (readyName due e.uuid) (e.dueAt due)) :=
      Guar.publish sound₁ (by decide) (by decide) (valid.dueAt due) ⟨due, rfl⟩ rfl speaks (fun _ => tidy)
        (fun kind => by rcases kind with single | operator <;> contradiction) (fun shared => by cases shared)
        (fun _ => by decide)
    refine ⟨guar, ?_⟩
    have tidy₂ := guar.tidy _ rfl rested₁.toTidy
    have queued : (((w₁.published (.reschedule name e due) .ready (readyName due e.uuid)
        (e.dueAt due)).trail e.uuid).copies .ready).Nonempty := by
      refine ⟨(readyName due e.uuid, e.dueAt due), ?_⟩
      exact ⟨by decide, holds_put_iff.mpr (.inl ⟨rfl, rfl, rfl⟩), rfl⟩
    have there₂ : (w₁.published (.reschedule name e due) .ready (readyName due e.uuid)
        (e.dueAt due)).disk.Holds .inflight name e₀ := holds_put_iff.mpr (.inr ⟨by simp, there⟩)
    apply sat_remove guar.sound
    · intro w₃ rely₃ _ err failed
      rcases failed with sturdy | missing
      · cases sturdy
      · exact absurd (missing.symm.trans (rely₃.holds owned₁ there₂).2) (by simp)
    · intro w₃ rely₃ sound₃ file got
      obtain ⟨owned₃, there₃⟩ := rely₃.holds owned₁ there₂
      cases got.symm.trans there₃
      have same := rely₃.kept rfl _ rfl
      have flying₃ : (name, e₀) ∈ (w₃.trail e.uuid).copies .inflight := ⟨by decide, there₃, of⟩
      have tidy₃ : (w₃.trail e.uuid).Tidy := same.symm ▸ tidy₂
      have rested₃ : ((w₃.trail e.uuid).drop .inflight name).Rested :=
        tidy₃.drop_inflight (same.symm ▸ queued) flying₃
      have silent : (Event.did (.reschedule name e due) (.remove .inflight name)).about = none := rfl
      have now : (w₃.removed (.reschedule name e due) .inflight name).trail e.uuid =
          (w₃.trail e.uuid).drop .inflight name := by
        rw [trail_removed, standing_cons_none silent]
        rfl
      refine ⟨?_, fun _ _ none => (by cases none), ?_, ?_⟩
      · rw [← of] at rested₃ mine₀
        exact Guar.remove sound₃ (by decide) there₃ mine₀ (fun _ _ said => by cases said) (standing_cons_none silent)
          (fun _ => rested₃.toTidy) (fun _ _ => rested₃) (fun _ => by decide) (fun _ => owned₃)
      · rintro uuid ⟨⟩
        rw [now]
        exact rested₃
      · rintro - - - uuid ⟨⟩ name' e' within
        rw [now, Trail.copies_drop, if_pos rfl, Trail.drop_only tidy₃.inflight flying₃] at within
        exact within.elim

theorem created (landed : dir = .ready ∨ dir = .quarantine) (sound : w.Sound) (mine : op.uuid? = some e.uuid)
    (exclusive : op.exclusive = true) (fresh : ∀ dir, (w.trail e.uuid).copies dir = ∅)
    (rested : (w.trail e.uuid).Rested) (valid : e.Valid) (named : Named dir name e) :
    Guar t op w (w.published op dir name e) ∧ ((w.published op dir name e).trail e.uuid).Rested ∧
      ((w.published op dir name e).trail e.uuid).copies .inflight = ∅ := by
  have speaks : (Event.did op (.publish dir name (.json e))).about = some (e.uuid, some e) := by
    rcases landed with rfl | rfl <;> cases op <;> rfl
  have after : (((w.trail e.uuid).add dir name e).settle (some e)).Rested := by
    rcases landed with rfl | rfl
    · exact rested.commit_ready (fresh _) (fresh _) name e
    · exact rested.commit_quarantine name (.inr ⟨fresh _, fresh _⟩)
  have outside : dir ≠ .data := by rcases landed with rfl | rfl <;> decide
  have away : dir ≠ .inflight := by rcases landed with rfl | rfl <;> decide
  have now := trail_published (w := w) outside speaks
  refine ⟨?_, now.symm ▸ after, ?_⟩
  · apply Guar.publish sound outside away valid named mine speaks
    · exact fun _ => after.toTidy
    · exact fun _ _ => after
    · intro shared
      rw [exclusive] at shared
      cases shared
    · rcases landed with rfl | rfl <;> exact fun _ => by decide
  · rw [now, Trail.copies_settle, Trail.copies_add, if_neg (Ne.symm away)]
    exact fresh _

theorem sat_create {e' : Envelope} (landed : dir = .ready ∨ dir = .quarantine) (armed : Armed t op w₀)
    (rely : Rely t op w₀ w) (sound : w.Sound) (mine : op.uuid? = some e'.uuid) (exclusive : op.exclusive = true)
    (single : op.duplicates = false) (fresh : ∀ dir, (w₀.trail e'.uuid).copies dir = ∅) (valid : e'.Valid) (named : Named dir name e') :
    Sat (tracked t op) (fun _ w' => Ended t op w₀ none w') (writeEnvelope dir name e').run w := by
  apply sat_writeEnvelope sound
  · intro _ w₁ rely₁ _
    exact armed.unchanged (fun _ => single) (rely.trans rely₁)
  · intro w₁ rely₁ sound₁
    have same := (rely.trans rely₁).kept exclusive _ mine
    obtain ⟨guar, rested, free⟩ := created landed sound₁ mine exclusive (fun dir => by rw [same, fresh dir])
      (same.symm ▸ armed.rested _ mine) valid named
    refine ⟨guar, fun _ _ none => (by cases none), ?_, ?_⟩
    · intro uuid this
      cases Option.some.inj (mine.symm.trans this)
      exact rested
    · intro _ _ _ uuid this name' e₁ within
      cases Option.some.inj (mine.symm.trans this)
      rw [free] at within
      exact within.elim

theorem sat_spoolEnqueue {post : Except Failure Unit → Ledger → Prop} (sound : w.Sound)
    (refused : ¬ (stampVersion e).Valid → ∀ err, post (.error err) w)
    (write : (stampVersion e).Valid → ∀ w₁, Rely t op w w₁ → w₁.Sound → ∀ due,
      Sat (tracked t op) post (writeEnvelope .ready (readyName due e.uuid) ((stampVersion e).dueAt due)).run w₁) :
    Sat (tracked t op) post (enqueue e).run w := by
  refine Sat.except_bind (sat_checkValid refused fun valid => ?_)
  have stamped : Sat (tracked t op) (fun r w' => ∃ due, r = .ok ((stampVersion e).dueAt due) ∧ Rely t op w w' ∧ w'.Sound)
      (stampDue (stampVersion e)).run w := by
    unfold stampDue
    split
    · exact Sat.except_bind (sat_now sound fun w₁ rely sound₁ due => ⟨due, rfl, rely, sound₁⟩)
    · exact ⟨(stampVersion e).nextAt, rfl, Rely.refl t op w, sound⟩
  apply Sat.except_bind
  apply stamped.mono
  rintro r w₁ ⟨due, rfl, rely, sound₁⟩
  have written := write valid w₁ rely sound₁ due
  rw [← stampVersion_uuid e] at written
  exact written

theorem sat_enqueue {pid : Fin (2 ^ 63)} (armed : Armed t (.enqueue e) w) :
    Sat (tracked t (.enqueue e)) (Ended t (.enqueue e) w) ((Op.enqueue e).prog pid) w := by
  have fresh : ∀ dir, (w.trail e.uuid).copies dir = ∅ := armed.held
  apply sat_plain
  apply sat_spoolEnqueue armed.sound
  · intro _ err
    exact armed.unchanged (fun _ => rfl) (Rely.refl t _ w)
  · intro valid w₁ rely sound due
    have mine : (Op.enqueue e).uuid? = some ((stampVersion e).dueAt due).uuid :=
      congrArg some (stampVersion_uuid e).symm
    apply sat_create (.inl rfl) armed rely sound mine rfl rfl _ (valid.dueAt due) ⟨due, _⟩
    · intro dir
      simpa using fresh dir
    · simp

theorem sat_quarantine {pid : Fin (2 ^ 63)} (armed : Armed t (.quarantine e) w) :
    Sat (tracked t (.quarantine e)) (Ended t (.quarantine e) w) ((Op.quarantine e).prog pid) w := by
  have fresh : ∀ dir, (w.trail e.uuid).copies dir = ∅ := armed.held
  have mine : (Op.quarantine e).uuid? = some (stampVersion e).uuid := congrArg some (stampVersion_uuid e).symm
  apply sat_plain
  apply Sat.except_bind
  apply sat_checkValid
  · intro _ err
    exact armed.unchanged (fun _ => rfl) (Rely.refl t _ w)
  · intro valid
    apply sat_create (.inr rfl) armed (Rely.refl t _ w) armed.sound mine rfl rfl _ valid rfl
    intro dir
    simpa using fresh dir

end Mailgw.Queue.Ledger
