import Mailgw.Queue.Commands

namespace Mailgw.Queue

open Calls Spool Disk

variable {t : Nat} {w w₁ w₂ : World} {dir : Dir} {name uuid : Name} {e : Envelope}

def Disk.Committed (d : Disk) (uuid : Name) : Prop :=
  ∃ dir name e, dir ≠ .data ∧ dir ≠ .inflight ∧ d.Holds dir name e ∧ e.uuid = uuid

/-- What recovery does at each step: it drops an inflight copy that is committed elsewhere, and
    requeues one that is not. -/
inductive RecoverStep (w : World) : World → Prop where
  | quiet : RecoverStep w w
  | drop {name : Name} {e : Envelope} (holds : w.disk.Holds .inflight name e) (committed : w.disk.Committed e.uuid) :
    RecoverStep w { w with disk := w.disk.del .inflight name, owner := handOver w.owner .inflight name none }
  | requeue {name : Name} {e : Envelope} (due : Instant) (holds : w.disk.Holds .inflight name e)
    (only : ¬ w.disk.Committed e.uuid) :
    RecoverStep w { w with
      disk := (w.disk.del .inflight name).put .ready (readyName due e.uuid) (.json e)
      owner := handOver w.owner .inflight name none }

def aloneContract (t : Nat) : Contract FsCall FsCall.Answer World :=
  ⟨worldStep t, fun w w' => w' = w, RecoverStep⟩

def Disk.OneInflight (d : Disk) : Prop :=
  ∀ name e name' e', d.Holds .inflight name e → d.Holds .inflight name' e' → e.uuid = e'.uuid → name = name'

theorem oneInflight_of_paired {d : Disk} (paired : ∀ uuid, d.Paired uuid) : d.OneInflight :=
  fun _ e' _ _ holds holds' same =>
    (paired e'.uuid _ _ _ _ _ _ (by decide) (by decide) holds holds' rfl same.symm Iff.rfl).2

theorem alone_star {k : Contract FsCall FsCall.Answer World} (alone : k.rely = fun w w' => w' = w)
    (moves : Relation.ReflTransGen k.rely w w₁) : w₁ = w := by
  induction moves with
  | refl => rfl
  | tail _ move ih =>
    rw [alone] at move
    exact move.trans ih

section Rules
variable {final : Except Failure Unit → World → Prop}

theorem alone_now {final : Except Failure Instant → World → Prop} (body : ∀ clock, final (.ok clock) w) :
    Sat (aloneContract t) final now.run w := by
  refine Sat.except_lift ?_
  rintro w₁ moves answer w₂ ⟨choice, -, step, owner, issued⟩
  obtain rfl := alone_star rfl moves
  obtain ⟨rfl, disk⟩ := Prod.mk.inj step
  obtain rfl := World.ext_fields disk.symm owner issued
  exact ⟨.quiet, body _⟩

theorem alone_readDir {final : Except Failure (List Name) → World → Prop} (body : final (.ok (w.disk.list dir)) w) :
    Sat (aloneContract t) final (readDir dir).run w := by
  rintro w₁ moves answer w₂ ⟨choice, calm, step, owner, issued⟩
  obtain rfl := alone_star rfl moves
  simp only [exec, calm] at step
  obtain ⟨rfl, disk⟩ := Prod.mk.inj step
  obtain rfl := World.ext_fields disk.symm owner issued
  exact ⟨.quiet, body⟩

theorem alone_remove (holds : w.disk.Holds .inflight name e) (committed : w.disk.Committed e.uuid)
    (body : final (.ok ()) { w with
      disk := w.disk.del .inflight name, owner := handOver w.owner .inflight name none }) :
    Sat (aloneContract t) final (Spool.remove .inflight name).run w := by
  rintro w₁ moves answer w₂ ⟨choice, calm, step, owner, issued⟩
  obtain rfl := alone_star rfl moves
  have got : w₁.disk.get .inflight name = some (.json e) := holds
  simp only [exec, calm, got] at step
  obtain ⟨rfl, disk⟩ := Prod.mk.inj step
  obtain rfl := World.ext_fields disk.symm owner issued
  exact ⟨.drop holds committed, body⟩

theorem alone_requeue {due : Instant} (holds : w.disk.Holds .inflight name e) (only : ¬ w.disk.Committed e.uuid)
    (body : final (.ok ()) { w with
      disk := (w.disk.del .inflight name).put .ready (readyName due e.uuid) (.json e)
      owner := handOver w.owner .inflight name none }) :
    Sat (aloneContract t) final (rename .inflight name .ready (readyName due e.uuid)).run w := by
  rintro w₁ moves answer w₂ ⟨choice, calm, step, owner, issued⟩
  obtain rfl := alone_star rfl moves
  have got : w₁.disk.get .inflight name = some (.json e) := holds
  simp only [exec, calm, got] at step
  obtain ⟨rfl, disk⟩ := Prod.mk.inj step
  obtain rfl := World.ext_fields disk.symm owner issued
  exact ⟨.requeue due holds only, body⟩

end Rules

structure Remaining (committed rest : List Name) (w : World) : Prop where
  filed : w.disk.Filed
  distinct : rest.Nodup
  listed : ∀ name e, w.disk.Holds .inflight name e → name ∈ rest
  there : ∀ name ∈ rest, ∃ e, w.disk.Holds .inflight name e
  one : w.disk.OneInflight
  scanned : ∀ name e, w.disk.Holds .inflight name e → (e.uuid ∈ committed ↔ w.disk.Committed e.uuid)

theorem Consistent.drop (name : Name) (consistent : Consistent w) :
    Consistent { w with disk := w.disk.del .inflight name, owner := handOver w.owner .inflight name none } := by
  refine consistent.del (by decide) fun name' t' owned => ?_
  by_cases same : Dir.inflight = .inflight ∧ name' = name
  · obtain ⟨-, rfl⟩ := same
    rw [handOver_self] at owned
    cases owned
  · rw [handOver_other same] at owned
    exact ⟨owned, same⟩

theorem Consistent.requeue (consistent : Consistent w) (due : Instant) (holds : w.disk.Holds .inflight name e) :
    Consistent { w with
      disk := (w.disk.del .inflight name).put .ready (readyName due e.uuid) (.json e)
      owner := handOver w.owner .inflight name none } := by
  obtain ⟨valid, -, ident⟩ := consistent.file (by decide) holds
  have dropped : Consistent { w with
      disk := w.disk.del .inflight name, owner := handOver w.owner .inflight name none } := consistent.drop _
  refine dropped.put (by decide) valid ⟨due, rfl⟩ ident fun _ => ?_
  rw [get_del_data (by decide)]
  exact consistent.bodies _ _ _ (by decide) holds

theorem RecoverStep.consistent (step : RecoverStep w w₁) (consistent : Consistent w) : Consistent w₁ := by
  cases step with
  | quiet => exact consistent
  | drop _ _ => exact consistent.drop _
  | requeue due holds _ => exact consistent.requeue due holds

theorem Remaining.drop {committed rest : List Name} (remaining : Remaining committed (name :: rest) w)
    (holds : w.disk.Holds .inflight name e) :
    Remaining committed rest { w with
      disk := w.disk.del .inflight name, owner := handOver w.owner .inflight name none } where
  filed := remaining.filed.del
  distinct := (List.nodup_cons.mp remaining.distinct).2
  listed name' e' held := by
    obtain ⟨other, old⟩ := holds_del_iff.mp held
    exact (List.mem_cons.mp (remaining.listed name' e' old)).resolve_left fun same => other ⟨rfl, same⟩
  there name' member := by
    obtain ⟨e', held⟩ := remaining.there name' (List.mem_cons_of_mem _ member)
    refine ⟨e', holds_del_iff.mpr ⟨?_, held⟩⟩
    rintro ⟨-, rfl⟩
    exact (List.nodup_cons.mp remaining.distinct).1 member
  one name₁ e₁ name₂ e₂ holds₁ holds₂ :=
    remaining.one name₁ e₁ name₂ e₂ (holds_del_iff.mp holds₁).2 (holds_del_iff.mp holds₂).2
  scanned name' e' held := by
    refine (remaining.scanned name' e' (holds_del_iff.mp held).2).trans ?_
    constructor
    · rintro ⟨dir, name₀, e₀, outside, resting, old, of⟩
      exact ⟨dir, name₀, e₀, outside, resting, holds_del_iff.mpr ⟨fun same => resting same.1, old⟩, of⟩
    · rintro ⟨dir, name₀, e₀, outside, resting, held₀, of⟩
      exact ⟨dir, name₀, e₀, outside, resting, (holds_del_iff.mp held₀).2, of⟩

theorem Remaining.requeue {committed rest : List Name} (due : Instant)
    (remaining : Remaining committed (name :: rest) w) (holds : w.disk.Holds .inflight name e) :
    Remaining committed rest { w with
      disk := (w.disk.del .inflight name).put .ready (readyName due e.uuid) (.json e)
      owner := handOver w.owner .inflight name none } := by
  have dropped := remaining.drop holds
  have inflight : ∀ {name' e'}, Disk.Holds ((w.disk.del .inflight name).put .ready (readyName due e.uuid) (.json e))
      .inflight name' e' ↔ Disk.Holds (w.disk.del .inflight name) .inflight name' e' := by
    intro name' e'
    rw [holds_put_iff]
    simp
  obtain ⟨valid, -⟩ := remaining.filed.file (by decide) holds
  refine ⟨dropped.filed.put valid ⟨due, rfl⟩, dropped.distinct, ?_, ?_, ?_, ?_⟩
  · exact fun name' e' held => dropped.listed name' e' (inflight.mp held)
  · intro name' member
    obtain ⟨e', held⟩ := dropped.there name' member
    exact ⟨e', inflight.mpr held⟩
  · exact fun _ _ _ _ holds₁ holds₂ => dropped.one _ _ _ _ (inflight.mp holds₁) (inflight.mp holds₂)
  · intro name' e' held
    have old := inflight.mp held
    refine (dropped.scanned name' e' old).trans ?_
    have differs : e.uuid ≠ e'.uuid := fun same =>
      (holds_del_iff.mp old).1 ⟨rfl, (remaining.one _ _ _ _ holds (holds_del_iff.mp old).2 same).symm⟩
    constructor
    · rintro ⟨dir, name₀, e₀, outside, resting, old₀, of⟩
      refine ⟨dir, name₀, e₀, outside, resting, holds_put_iff.mpr (.inr ⟨?_, old₀⟩), of⟩
      rintro ⟨rfl, rfl⟩
      exact differs ((dropped.filed.same_uuid (by decide) old₀ valid ⟨due, rfl⟩).symm.trans of)
    · rintro ⟨dir, name₀, e₀, outside, resting, held₀, of⟩
      rcases holds_put_iff.mp held₀ with ⟨-, -, same⟩ | ⟨-, old₀⟩
      · cases same
        exact (differs of).elim
      · exact ⟨dir, name₀, e₀, outside, resting, old₀, of⟩

theorem sat_recoverNames {committed : List Name} {due : Instant} (names : List Name)
    (remaining : Remaining committed names w) :
    Sat (aloneContract t) (fun r w' => (∃ n, r = .ok n) ∧ ∀ name e, ¬ w'.disk.Holds .inflight name e)
      (recoverNames committed due names).run w := by
  induction names generalizing w with
  | nil => exact ⟨⟨0, rfl⟩, fun name e held => by cases remaining.listed name e held⟩
  | cons name rest ih =>
    obtain ⟨e, holds⟩ := remaining.there name List.mem_cons_self
    obtain ⟨valid, named⟩ := remaining.filed.file (by decide) holds
    obtain ⟨pid, due₀, rfl⟩ := named
    have known : isCommitted committed (readyName due₀ e.uuid) = decide (e.uuid ∈ committed) := by
      simp [isCommitted, uuidFromReadyName_readyName due₀ valid.uuid_nonempty]
    unfold recoverNames
    simp only [stripClaimPrefix_claimName, known, restamp_readyName, decide_eq_true_eq]
    split
    · rename_i dup
      have committed' := (remaining.scanned _ e holds).mp dup
      exact Sat.except_bind (alone_remove holds committed' (ih (remaining.drop holds)))
    · rename_i fresh
      have only := mt (remaining.scanned _ e holds).mpr fresh
      refine Sat.except_bind (alone_requeue holds only (Sat.except_bind ?_))
      refine (ih (remaining.requeue due holds)).mono ?_
      rintro r w' ⟨⟨n, rfl⟩, rest⟩
      exact ⟨⟨n + 1, rfl⟩, rest⟩

theorem RecoverStep.paired (step : RecoverStep w w₁) (filed : w.disk.Filed) (pair : w.disk.Paired uuid) :
    w₁.disk.Paired uuid := by
  cases step with
  | quiet => exact pair
  | drop _ _ =>
    intro dir₁ name₁ e₁ dir₂ name₂ e₂ live₁ live₂ holds₁ holds₂ of₁ of₂
    exact pair _ _ _ _ _ _ live₁ live₂ (holds_del_iff.mp holds₁).2 (holds_del_iff.mp holds₂).2 of₁ of₂
  | @requeue name e due holds only =>
    by_cases same : uuid = e.uuid
    · subst same
      have solo : ∀ {dir₁ name₁ e₁}, dir₁ ∈ bodyDirs →
          Disk.Holds ((w.disk.del .inflight name).put .ready (readyName due e.uuid) (.json e)) dir₁ name₁ e₁ →
          e₁.uuid = e.uuid → dir₁ = .ready ∧ name₁ = readyName due e.uuid := by
        intro dir₁ name₁ e₁ live₁ held of
        rcases holds_put_iff.mp held with ⟨hd, hn, -⟩ | ⟨-, old⟩
        · exact ⟨hd, hn⟩
        · obtain ⟨gone, old⟩ := holds_del_iff.mp old
          by_cases flight : dir₁ = .inflight
          · subst flight
            exact (gone ⟨rfl, (pair _ _ _ _ _ _ live₁ live₁ old holds of rfl Iff.rfl).2⟩).elim
          · exact (only ⟨dir₁, name₁, e₁, live_ne_data live₁, flight, old, of⟩).elim
      intro dir₁ name₁ e₁ dir₂ name₂ e₂ live₁ live₂ holds₁ holds₂ of₁ of₂ _
      obtain ⟨rfl, rfl⟩ := solo live₁ holds₁ of₁
      obtain ⟨rfl, rfl⟩ := solo live₂ holds₂ of₂
      exact ⟨rfl, rfl⟩
    · obtain ⟨valid, -⟩ := filed.file (by decide) holds
      have dropped : Disk.Filed (w.disk.del .inflight name) := filed.del
      have away := untouched_put dropped (show Dir.ready ≠ .data by decide) valid ⟨due, rfl⟩ same
      exact (pair.of_untouched (untouched_del holds same)).of_untouched away

theorem mem_filterMap_list (filed : w.disk.Filed) (outside : dir ≠ .data) (parse : Name → Option Name)
    (uuid : Name) (form : ∀ name, envelopeUUID dir name = parse name) :
    uuid ∈ (w.disk.list dir).filterMap parse ↔ ∃ name e, w.disk.Holds dir name e ∧ e.uuid = uuid := by
  rw [List.mem_filterMap]
  constructor
  · rintro ⟨name, listed, parsed⟩
    obtain ⟨file, got⟩ := mem_list.mp listed
    obtain ⟨e, rfl, valid, named⟩ := filed dir name file outside got
    have same := (named.uuid valid).symm.trans ((form name).trans parsed)
    exact ⟨name, e, got, Option.some.inj same⟩
  · rintro ⟨name, e, holds, rfl⟩
    obtain ⟨valid, named⟩ := filed.file outside holds
    exact ⟨name, mem_list.mpr ⟨_, holds⟩, (form name).symm.trans (named.uuid valid)⟩

/-- Recovery empties inflight/, one sound step at a time, and always returns. -/
theorem sat_recover (filed : w.disk.Filed) (one : w.disk.OneInflight) :
    Sat (aloneContract t) (fun r w' => (∃ n, r = .ok n) ∧ ∀ name e, ¬ w'.disk.Holds .inflight name e)
      recover.run w := by
  unfold recover committedUUIDs
  refine Sat.except_bind (alone_readDir (Sat.except_bind (Sat.except_bind (alone_readDir ?_))))
  refine Sat.except_bind (alone_readDir (Sat.except_bind (alone_readDir ?_)))
  refine Sat.except_bind (alone_now fun due => sat_recoverNames _ ?_)
  refine ⟨filed, list_nodup _ _, fun name e holds => mem_list.mpr ⟨_, holds⟩, ?_, one, ?_⟩
  · intro name listed
    obtain ⟨file, got⟩ := mem_list.mp listed
    obtain ⟨e, rfl, -⟩ := filed _ _ _ (by decide) got
    exact ⟨e, got⟩
  · intro name e _
    have ready := mem_filterMap_list filed (show Dir.ready ≠ .data by decide) uuidFromReadyName e.uuid fun _ => rfl
    have dead := mem_filterMap_list filed (show Dir.dead ≠ .data by decide) uuidFromPlainName e.uuid fun _ => rfl
    have held := mem_filterMap_list filed (show Dir.quarantine ≠ .data by decide) uuidFromPlainName e.uuid
      fun _ => rfl
    rw [List.mem_append, List.mem_append, ready, dead, held]
    constructor
    · rintro ((⟨name, e', holds, of⟩ | ⟨name, e', holds, of⟩) | ⟨name, e', holds, of⟩)
      · exact ⟨.ready, name, e', by decide, by decide, holds, of⟩
      · exact ⟨.dead, name, e', by decide, by decide, holds, of⟩
      · exact ⟨.quarantine, name, e', by decide, by decide, holds, of⟩
    · rintro ⟨dir, name, e', outside, resting, holds, of⟩
      cases dir with
      | data => exact (outside rfl).elim
      | inflight => exact (resting rfl).elim
      | ready => exact .inl (.inl ⟨name, e', holds, of⟩)
      | dead => exact .inl (.inr ⟨name, e', holds, of⟩)
      | quarantine => exact .inr ⟨name, e', holds, of⟩

end Mailgw.Queue
