import Mailgw.Queue.Outline

namespace Mailgw.Queue

open Calls Spool Disk

variable {t : Nat} {op : Op} {w : World} {dir : Dir} {name : Name} {α : Type}

section Rules

theorem sat_writeFile {file : File} {post : Except Failure Unit → World → Prop} (consistent : Consistent w)
    (body : ∀ w₁, Rely t op w w₁ → Guar t op w₁ (w₁.setDisk (w₁.disk.put dir name file)) ∧
      post (.ok ()) (w₁.setDisk (w₁.disk.put dir name file))) :
    Sat (contract t op) post (writeFile dir name file).run w := by
  refine Sat.except_bind (sat_temp consistent fun w₁ rely₁ => ?_)
  refine Sat.except_bind (sat_onError_ok (sat_temp rely₁.consistent fun w₂ rely₂ => ⟨(), rfl, ?_⟩))
  refine Sat.except_bind (sat_onError_ok (sat_temp rely₂.consistent fun w₃ rely₃ => ⟨(), rfl, ?_⟩))
  refine Sat.except_bind (sat_onError_ok (sat_temp rely₃.consistent fun w₄ rely₄ => ⟨(), rfl, ?_⟩))
  refine sat_onError_ok (sat_publish rely₄.consistent fun w₅ rely₅ => ?_)
  obtain ⟨guar, holds⟩ := body w₅ ((((rely₁.trans rely₂).trans rely₃).trans rely₄).trans rely₅)
  exact ⟨guar, (), rfl, holds⟩

theorem sat_readEnvelope {final : Except Failure Envelope → World → Prop} (consistent : Consistent w)
    (outside : dir ≠ .data)
    (missing : ∀ w₁, Rely t op w w₁ → w₁.disk.get dir name = none → final (.error .notExist) w₁)
    (found : ∀ w₁, Rely t op w w₁ → ∀ e, w₁.disk.Holds dir name e → e.Valid → final (.ok e) w₁) :
    Sat (contract t op) final (readEnvelope dir name).run w := by
  refine Sat.except_bind (sat_readFile consistent missing ?_)
  intro w₁ rely file got
  obtain ⟨e, rfl, valid, -⟩ := rely.consistent.named dir name file outside got
  simp only [show e.validate = .ok () from valid]
  exact found w₁ rely e got valid

end Rules

section Collect
variable {body keep : Name}

theorem Disk.Clear.next {d : Disk} {kind : Name → Name → Prop} {k : Nat} {dirs : List Dir}
    (clear : d.Clear kind k) (suffixed : bodyDirs.drop k = dir :: dirs)
    (none : ∀ name e, d.Holds dir name e → ¬ kind e.uuid e.body) :
    d.Clear kind (k + 1) ∧ bodyDirs.drop (k + 1) = dirs ∧ dir ∈ bodyDirs := by
  have here : bodyDirs[k]? = some dir := by
    rw [← List.head?_drop, suffixed]
    rfl
  refine ⟨?_, ?_, List.mem_of_getElem? here⟩
  · intro dir' within name e holds
    rw [List.take_add_one, here] at within
    rcases List.mem_append.mp within with before | last
    · exact clear dir' before name e holds
    · have same : dir' = dir := by simpa using last
      exact none name e (same ▸ holds)
  · rw [← List.drop_drop, suffixed]
    rfl

/-- One listed name of another envelope that references the body is enough for the answer yes. -/
theorem sat_referencedIn {uuid : Name} (outside : dir ≠ .data)
    (owned : bodyOwnedBy body uuid = true) (other : uuid ≠ keep) (names : List Name)
    (consistent : Consistent w) (ident : (uuid, body) ∈ w.issued)
    (hit : ∃ name ∈ names, envelopeUUID dir name = some uuid) :
    Sat (contract t op) (fun r w' => Consistent w' ∧ r = .ok true) (referencedIn body keep dir names).run w := by
  induction names generalizing w with
  | nil =>
    obtain ⟨_, member, -⟩ := hit
    cases member
  | cons name rest ih =>
    unfold referencedIn
    split
    · rename_i skip
      refine ih consistent ident ?_
      obtain ⟨name', member, parsed⟩ := hit
      rcases List.mem_cons.mp member with rfl | later
      · simp [ruledOut, parsed, other, owned] at skip
      · exact ⟨name', later, parsed⟩
    · refine Sat.except_bind ?_
      unfold refersTo
      refine Sat.except_bind (sat_result (sat_readEnvelope consistent outside ?_ ?_))
      · intro w₁ rely _
        exact ⟨rely.consistent, rfl⟩
      · intro w₁ rely e holds valid
        obtain ⟨-, named, ident'⟩ := rely.consistent.file outside holds
        obtain ⟨name', member, parsed⟩ := hit
        rcases List.mem_cons.mp member with rfl | later
        · have of : e.uuid = uuid := by
            have same := (named.uuid valid).symm.trans parsed
            simpa using same
          subst of
          have refers := rely.consistent.oneBody _ _ _ ident' (rely.issued _ ident)
          simp only [refers, other, ne_eq, not_false_eq_true, decide_true, Bool.and_self]
          exact ⟨rely.consistent, rfl⟩
        · show Sat _ _ (ExceptT.run (if (decide (e.uuid ≠ keep) && decide (e.body = body)) = true then _ else _)) _
          split
          · exact ⟨rely.consistent, rfl⟩
          · exact ih rely.consistent (rely.issued _ ident) ⟨name', later, parsed⟩

theorem sat_referencedIn_calm (outside : dir ≠ .data) (names : List Name) (consistent : Consistent w) :
    Sat (contract t op) (fun r w' => Rely t op w w' ∧ ∃ answer, r = .ok answer)
      (referencedIn body keep dir names).run w := by
  induction names generalizing w with
  | nil => exact ⟨Rely.refl consistent, false, rfl⟩
  | cons name rest ih =>
    unfold referencedIn
    split
    · exact ih consistent
    · refine Sat.except_bind ?_
      unfold refersTo
      refine Sat.except_bind (sat_result (sat_readEnvelope consistent outside ?_ ?_))
      · intro w₁ rely _
        exact ⟨rely, true, rfl⟩
      · intro w₁ rely e _ _
        show Sat _ _ (ExceptT.run (if (decide (e.uuid ≠ keep) && decide (e.body = body)) = true then _ else _)) _
        split
        · exact ⟨rely, true, rfl⟩
        · exact (ih rely.consistent).mono fun r w' holds => ⟨rely.trans holds.1, holds.2⟩

/-- When the search finds nothing, no envelope in the live directories references the body: a
    directory that was clear when it was listed stays clear. -/
theorem sat_bodyReferenced (collects : op.collects body) (gathers : op.gathers = true)
    (mine : op.uuid? = some keep) (dirs : List Dir) (k : Nat) (suffixed : bodyDirs.drop k = dirs)
    (consistent : Consistent w) (gone : w.disk.Clear (fun u _ => u = keep) 3)
    (clear : w.disk.Clear (fun _ b => b = body) k) :
    Sat (contract t op) (fun r w' => Consistent w' ∧ ∃ answer, r = .ok answer ∧
      (answer = false → w'.disk.Clear (fun _ b => b = body) 3)) (bodyReferenced body keep dirs).run w := by
  induction dirs generalizing w k with
  | nil =>
    refine ⟨consistent, false, rfl, fun _ => ?_⟩
    have all : bodyDirs.length ≤ k := List.drop_eq_nil_iff.mp suffixed
    rw [show bodyDirs.length = 3 from rfl] at all
    intro dir within
    refine clear dir ?_
    rw [List.take_of_length_le all]
    exact List.mem_of_mem_take within
  | cons dir dirs ih =>
    have live : dir ∈ bodyDirs := List.mem_of_mem_drop (suffixed ▸ List.mem_cons_self)
    have outside := live_ne_data live
    refine Sat.except_bind (sat_readDir consistent fun w₁ rely => Sat.except_bind ?_)
    have consistent₁ := rely.consistent
    have gone₁ := rely.clearUuid gathers keep mine 3 gone
    have clear₁ := rely.clearBody body collects k clear
    by_cases hit : ∃ name e, w₁.disk.Holds dir name e ∧ e.body = body
    · obtain ⟨name, e, holds, refers⟩ := hit
      obtain ⟨valid, named, ident⟩ := consistent₁.file outside holds
      have other : e.uuid ≠ keep := gone₁ dir live name e holds
      subst refers
      refine (sat_referencedIn outside valid.body_owned other _ consistent₁ ident
        ⟨name, mem_list.mpr ⟨_, holds⟩, named.uuid valid⟩).mono ?_
      rintro r w' ⟨consistent', rfl⟩
      exact ⟨consistent', true, rfl, fun h => by cases h⟩
    · refine (sat_referencedIn_calm outside _ consistent₁).mono ?_
      rintro r w' ⟨rely', answer, rfl⟩
      obtain ⟨clear', suffixed', -⟩ := clear₁.next suffixed fun name e holds refers => hit ⟨name, e, holds, refers⟩
      cases answer with
      | true => exact ⟨rely'.consistent, true, rfl, fun h => by cases h⟩
      | false =>
        exact ih (k + 1) suffixed' rely'.consistent (rely'.clearUuid gathers keep mine 3 gone₁)
          (rely'.clearBody body collects (k + 1) clear')

/-- The collector deletes a body only when nobody needs it. -/
theorem sat_gcBody {e : Envelope} (collects : op.collects e.body) (gathers : op.gathers = true)
    (mine : op.uuid? = some e.uuid) (consistent : Consistent w)
    (gone : w.disk.Clear (fun u _ => u = e.uuid) 3) :
    Sat (contract t op) (fun _ _ => True) (gcBody e).run w := by
  unfold gcBody
  split
  · exact trivial
  · have start : w.disk.Clear (fun _ b => b = e.body) 0 := fun dir within => absurd within (by simp)
    refine Sat.except_bind ((sat_bodyReferenced collects gathers mine bodyDirs 0 rfl consistent gone start).mono ?_)
    rintro r w' ⟨consistent', answer, rfl, settled⟩
    cases answer with
    | true => exact trivial
    | false =>
      refine Sat.except_bind (sat_result (sat_remove consistent' ?_ ?_))
      · intro w₁ _ _
        exact trivial
      · intro w₁ rely file _
        have clear := rely.clearBody e.body collects 3 (settled rfl)
        exact ⟨Guar.body rely.consistent (OnlyBody.del _ _) (.inr ⟨collects, clear⟩), trivial⟩

end Collect

structure Ended (t : Nat) (op : Op) (claimed : Option (Name × Envelope)) (w : World) : Prop where
  held : ∀ inflightName e, claimed = some (inflightName, e) →
    w.owner inflightName = some t ∧ w.disk.Holds .inflight inflightName e
  sole : op.duplicates → ∀ uuid, op.uuid? = some uuid → w.disk.Sole uuid

structure Armed (t : Nat) (op : Op) (w : World) : Prop where
  consistent : Consistent w
  grounded : op.Grounded w.issued
  sole : ∀ uuid, op.uuid? = some uuid → w.disk.Sole uuid
  held : match op with
    | .complete inflightName e | .reschedule inflightName e _ | .bury inflightName e =>
      e.Valid ∧ w.owner inflightName = some t ∧ ∃ e₀, w.disk.Holds .inflight inflightName e₀ ∧ e₀.uuid = e.uuid
    | .data _ _ parts => (parts.map fun part => part.2.uuid).Nodup ∧ ∀ part ∈ parts, ¬ w.disk.Present part.2.uuid
    | _ => True

theorem sat_plain {p : Spool α}
    (sat : Sat (contract t op) (fun _ w => op.duplicates → ∀ uuid, op.uuid? = some uuid → w.disk.Sole uuid) p.run w) :
    Sat (contract t op) (Ended t op) (Op.plain p) w :=
  Sat.bind (sat.mono fun _ _ sole => ⟨fun _ _ same => (by cases same), sole⟩)

theorem sat_single {p : Spool α} (single : op.duplicates = false)
    (sat : Sat (contract t op) (fun _ _ => True) p.run w) : Sat (contract t op) (Ended t op) (Op.plain p) w :=
  sat_plain (sat.mono fun _ _ _ doubled => absurd doubled (by simp [single]))

theorem clear_of_removed {d : Disk} {e : Envelope} (one : d.Sole e.uuid) (live : dir ∈ bodyDirs)
    (holds : d.Holds dir name e) : Disk.Clear (d.del dir name) (fun u _ => u = e.uuid) 3 := by
  intro dir' within name' e' held of
  obtain ⟨other, old⟩ := holds_del_iff.mp held
  exact other (one _ _ _ _ _ _ (List.mem_of_mem_take within) live old holds of rfl)

section Workers
variable {inflightName : Name} {e : Envelope} {due : Instant}

theorem sat_claim {pid : Fin (2 ^ 63)} (armed : Armed t (.claim name) w) :
    Sat (contract t (.claim name)) (Ended t (.claim name)) ((Op.claim name).prog pid) w := by
  refine Sat.bind ?_
  unfold Spool.claim
  refine Sat.except_bind (sat_rename (.inr rfl) armed.consistent ?_ ?_)
  · intro w₁ _ _
    exact ⟨fun _ _ same => (by cases same), fun doubled => Bool.noConfusion doubled⟩
  · intro w₁ rely file got
    obtain ⟨e, rfl, valid, named, -⟩ := rely.consistent.named _ _ _ (by decide) got
    have mine : (Op.claim name).uuid? = some e.uuid := named.uuid valid
    have one := rely.sole _ mine (armed.sole _ mine)
    obtain ⟨due, rfl⟩ := named
    have guar : Guar t (.claim (readyName due e.uuid)) w₁ { w₁ with
        disk := (w₁.disk.del .ready (readyName due e.uuid)).put .inflight (claimName pid (readyName due e.uuid)) (.json e)
        owner := handOver w₁.owner .inflight (claimName pid (readyName due e.uuid)) (some t) } :=
      Guar.move rely.consistent got (.inr rfl) ⟨pid, due, rfl⟩ mine one
    refine ⟨guar, Sat.except_bind (sat_onError_ok ?_)⟩
    have start : Disk.Holds ((w₁.disk.del .ready (readyName due e.uuid)).put .inflight
        (claimName pid (readyName due e.uuid)) (.json e)) .inflight (claimName pid (readyName due e.uuid)) e :=
      holds_put_iff.mpr (.inl ⟨rfl, rfl, rfl⟩)
    refine sat_readEnvelope guar.consistent (by decide) ?_ ?_
    · intro w₂ rely₂ missing
      have kept := (rely₂.owned _ handOver_self).2
      exact absurd (missing.symm.trans (kept.trans start)) (by simp)
    · intro w₂ rely₂ e' holds _
      obtain ⟨owned, kept⟩ := rely₂.owned _ handOver_self
      refine ⟨e', rfl, ⟨?_, fun doubled => Bool.noConfusion doubled⟩⟩
      rintro name' e'' same
      cases same
      exact ⟨owned, holds⟩

theorem sat_finish (consistent : Consistent w) (one : w.disk.Sole e.uuid) (owned : w.owner inflightName = some t)
    (held : ∃ e₀, w.disk.Holds .inflight inflightName e₀ ∧ e₀.uuid = e.uuid) (mine : op.uuid? = some e.uuid)
    (gathers : op.gathers = true) (collects : op.collects e.body) :
    Sat (contract t op) (fun _ _ => True) (complete inflightName e).run w := by
  obtain ⟨e₀, holds, of⟩ := held
  refine Sat.except_bind (sat_remove consistent ?_ ?_)
  · intro w₁ _ _
    exact trivial
  · intro w₁ rely file got
    obtain ⟨owned₁, kept⟩ := rely.owned _ owned
    obtain rfl : file = .json e₀ := by simpa using got.symm.trans (kept.trans holds)
    have mine₀ : op.uuid? = some e₀.uuid := of ▸ mine
    have guar := Guar.unlink rely.consistent (by decide) got mine₀ fun _ => owned₁
    refine ⟨guar, sat_gcBody collects gathers mine guar.consistent ?_⟩
    have one₁ := rely.sole _ mine one
    rw [← of] at one₁ ⊢
    exact clear_of_removed one₁ (by decide) got

theorem sat_complete (armed : Armed t (.complete inflightName e) w) {pid : Fin (2 ^ 63)} :
    Sat (contract t (.complete inflightName e)) (Ended t (.complete inflightName e))
      ((Op.complete inflightName e).prog pid) w := by
  obtain ⟨-, owned, held⟩ := armed.held
  exact sat_single rfl (sat_finish armed.consistent (armed.sole _ rfl) owned held rfl rfl rfl)

theorem sat_bury (armed : Armed t (.bury inflightName e) w) {pid : Fin (2 ^ 63)} :
    Sat (contract t (.bury inflightName e)) (Ended t (.bury inflightName e))
      ((Op.bury inflightName e).prog pid) w := by
  obtain ⟨valid, owned, e₀, holds, of⟩ := armed.held
  refine sat_single rfl (Sat.except_bind (sat_writeFile armed.consistent fun w₁ rely => ?_))
  obtain ⟨owned₁, kept⟩ := rely.owned _ owned
  have there : w₁.disk.Holds .inflight inflightName e₀ := kept.trans holds
  have one := rely.sole _ rfl (armed.sole _ rfl)
  have guar : Guar t (.bury inflightName e) w₁ (w₁.setDisk (w₁.disk.put .dead (plainName e.uuid) (.json e))) :=
    Guar.publish rely.consistent (by decide) (by decide) valid rfl (rely.issued _ armed.grounded)
      (fun live => absurd live (by decide)) (.inl rfl) (.inl ⟨_, _, _, by decide, there, of⟩) (.inl (by decide))
      (fun _ paired => by
        intro dir₁ name₁ e₁ dir₂ name₂ e₂ live₁ live₂ holds₁ holds₂ of₁ of₂
        exact paired _ _ _ _ _ _ live₁ live₂ (holds_live_of_put (by decide) live₁ holds₁)
          (holds_live_of_put (by decide) live₂ holds₂) of₁ of₂)
      (fun live => absurd live (by decide))
  have one' := guar.sole _ (fun doubled => Bool.noConfusion doubled.1) one
  have there' : Disk.Holds (w₁.disk.put .dead (plainName e.uuid) (.json e)) .inflight inflightName e₀ :=
    holds_put_iff.mpr (.inr ⟨by simp, there⟩)
  exact ⟨guar, sat_finish guar.consistent one' owned₁ ⟨e₀, there', of⟩ rfl rfl rfl⟩

def Disk.Pair (d : Disk) (uuid : Name) (dir : Dir) (name : Name) (dir' : Dir) (name' : Name) : Prop :=
  ∀ dir₁ name₁ e₁, dir₁ ∈ bodyDirs → d.Holds dir₁ name₁ e₁ → e₁.uuid = uuid →
    dir₁ = dir ∧ name₁ = name ∨ dir₁ = dir' ∧ name₁ = name'

theorem Disk.Pair.of_put (e : Envelope) (dir' : Dir) (name' : Name) {d : Disk} {e₀ : Envelope} (one : d.Sole e.uuid)
    (live : dir ∈ bodyDirs) (holds : d.Holds dir name e₀) (of : e₀.uuid = e.uuid) :
    Disk.Pair (d.put dir' name' (.json e)) e.uuid dir name dir' name' := by
  intro dir₁ name₁ e₁ live₁ holds₁ of₁
  rcases holds_put_iff.mp holds₁ with ⟨hd, hn, -⟩ | ⟨-, old⟩
  · exact .inr ⟨hd, hn⟩
  · exact .inl (one _ _ _ _ _ _ live₁ live old holds of₁ of)

theorem Disk.Pair.sole_of_del {d : Disk} {uuid : Name} {dir' : Dir} {name' : Name}
    (pair : d.Pair uuid dir name dir' name') : Disk.Sole (d.del dir name) uuid := by
  intro dir₁ name₁ e₁ dir₂ name₂ e₂ live₁ live₂ holds₁ holds₂ of₁ of₂
  obtain ⟨other₁, old₁⟩ := holds_del_iff.mp holds₁
  obtain ⟨other₂, old₂⟩ := holds_del_iff.mp holds₂
  obtain ⟨rfl, rfl⟩ := (pair _ _ _ live₁ old₁ of₁).resolve_left other₁
  obtain ⟨rfl, rfl⟩ := (pair _ _ _ live₂ old₂ of₂).resolve_left other₂
  exact ⟨rfl, rfl⟩

theorem Disk.Pair.of_untouched {d d' : Disk} {uuid : Name} {dir' : Dir} {name' : Name}
    (pair : d.Pair uuid dir name dir' name') (same : d.Untouched d' uuid) : d'.Pair uuid dir name dir' name' :=
  fun dir₁ name₁ e₁ live₁ holds₁ of₁ =>
    pair dir₁ name₁ e₁ live₁ ((same dir₁ name₁ e₁ (live_ne_data live₁) of₁).mp holds₁) of₁

theorem Disk.Pair.paired {d : Disk} {uuid : Name} {name' : Name} (apart : dir ≠ .inflight)
    (pair : d.Pair uuid .inflight name' dir name) : d.Paired uuid := by
  intro dir₁ name₁ e₁ dir₂ name₂ e₂ live₁ live₂ holds₁ holds₂ of₁ of₂ alike
  rcases pair _ _ _ live₁ holds₁ of₁ with ⟨rfl, rfl⟩ | ⟨rfl, rfl⟩ <;>
    rcases pair _ _ _ live₂ holds₂ of₂ with ⟨rfl, rfl⟩ | ⟨rfl, rfl⟩
  · exact ⟨rfl, rfl⟩
  · exact absurd (alike.mp rfl) apart
  · exact absurd (alike.mpr rfl) apart
  · exact ⟨rfl, rfl⟩

theorem sat_drop {dir' : Dir} {name' uuid : Name} {e₀ : Envelope} {post : Except Failure Unit → World → Prop}
    (consistent : Consistent w) (duplicates : op.duplicates = true) (mine : op.uuid? = some uuid)
    (live : dir ∈ bodyDirs) (holds : w.disk.Holds dir name e₀) (of : e₀.uuid = uuid)
    (claimed : dir = .inflight → w.owner name = some t) (pair : w.disk.Pair uuid dir name dir' name')
    (ends : ∀ w', w'.disk.Sole uuid → post (.ok ()) w') :
    Sat (contract t op) post (Spool.remove dir name).run w := by
  subst of
  have present : w.disk.Present e₀.uuid := ⟨_, _, _, live_ne_data live, holds, rfl⟩
  refine sat_remove consistent ?_ ?_
  · intro w₁ rely missing
    have there := (rely.frozen duplicates _ mine present _ _ _ (live_ne_data live) rfl).mpr holds
    exact absurd (missing.symm.trans there) (by simp)
  · intro w₁ rely file got
    have same := rely.frozen duplicates _ mine present
    have there := (same _ _ _ (live_ne_data live) rfl).mpr holds
    obtain rfl : file = .json e₀ := by simpa using got.symm.trans there
    refine ⟨Guar.unlink rely.consistent (live_ne_data live) got mine fun inflight => ?_, ends _ ?_⟩
    · exact (inflight ▸ rely.owned name (claimed inflight)).1
    · exact (pair.of_untouched same).sole_of_del

theorem sat_reschedule (armed : Armed t (.reschedule inflightName e due) w) {pid : Fin (2 ^ 63)} :
    Sat (contract t (.reschedule inflightName e due)) (Ended t (.reschedule inflightName e due))
      ((Op.reschedule inflightName e due).prog pid) w := by
  obtain ⟨valid, owned, e₀, holds, of⟩ := armed.held
  refine sat_plain (Sat.except_bind (sat_writeFile armed.consistent fun w₁ rely => ?_))
  obtain ⟨owned₁, kept⟩ := rely.owned _ owned
  have there : w₁.disk.Holds .inflight inflightName e₀ := kept.trans holds
  have one := rely.sole _ rfl (armed.sole _ rfl)
  have ident := rely.issued _ armed.grounded
  obtain ⟨-, -, ident₀⟩ := rely.consistent.file (by decide) there
  have refers : e₀.body = e.body := rely.consistent.oneBody _ _ _ (of ▸ ident₀) ident
  have pair := Disk.Pair.of_put (e.dueAt due) .ready (readyName due e.uuid) one
    (show Dir.inflight ∈ bodyDirs by decide) there of
  have guar : Guar t (.reschedule inflightName e due) w₁
      (w₁.setDisk (w₁.disk.put .ready (readyName due e.uuid) (.json (e.dueAt due)))) :=
    Guar.publish rely.consistent (by decide) (by decide) (valid.dueAt due) ⟨due, rfl⟩ ident
      (fun _ => refers ▸ rely.consistent.bodies _ _ _ (by decide) there) (.inl rfl)
      (.inl ⟨_, _, _, by decide, there, of⟩) (.inr (.inl ⟨rfl, rfl⟩)) (fun _ _ => pair.paired (by decide))
      (fun _ => .inl rfl)
  have there' : Disk.Holds (w₁.disk.put .ready (readyName due e.uuid) (.json (e.dueAt due))) .inflight inflightName e₀ :=
    holds_put_iff.mpr (.inr ⟨by simp, there⟩)
  refine ⟨guar, sat_drop guar.consistent rfl rfl (by decide) there' of (fun _ => owned₁) pair ?_⟩
  rintro w' sole - uuid ⟨⟩
  exact sole

end Workers

section Sessions
variable {e : Envelope} {post : Except Failure Unit → World → Prop}

theorem sat_stampDue {final : Except Failure Envelope → World → Prop} (consistent : Consistent w)
    (body : ∀ w₁, Rely t op w w₁ → ∀ due, final (.ok (e.dueAt due)) w₁) :
    Sat (contract t op) final (stampDue e).run w := by
  unfold stampDue
  split
  · exact Sat.except_bind (sat_now consistent fun w₁ rely due => body w₁ rely due)
  · exact body w (Rely.refl consistent) e.nextAt

theorem sat_enqueue (consistent : Consistent w) (refused : ∀ err, post (.error err) w)
    (body : (stampVersion e).Valid → ∀ w₁, Rely t op w w₁ → ∀ due,
      Guar t op w₁ (w₁.setDisk (w₁.disk.put .ready (readyName due e.uuid) (.json ((stampVersion e).dueAt due)))) ∧
      post (.ok ()) (w₁.setDisk (w₁.disk.put .ready (readyName due e.uuid) (.json ((stampVersion e).dueAt due))))) :
    Sat (contract t op) post (enqueue e).run w := by
  refine Sat.except_bind (sat_checkValid (fun _ => refused) fun valid => ?_)
  refine Sat.except_bind (sat_stampDue consistent fun w₁ rely due => ?_)
  refine sat_writeFile rely.consistent fun w₂ rely₂ => ?_
  simp only [Envelope.dueAt_uuid, Envelope.dueAt_nextAt, stampVersion_uuid]
  exact body valid w₂ (rely.trans rely₂) due

theorem sat_quarantine (consistent : Consistent w) (refused : ∀ err, post (.error err) w)
    (body : (stampVersion e).Valid → ∀ w₁, Rely t op w w₁ →
      Guar t op w₁ (w₁.setDisk (w₁.disk.put .quarantine (plainName e.uuid) (.json (stampVersion e)))) ∧
      post (.ok ()) (w₁.setDisk (w₁.disk.put .quarantine (plainName e.uuid) (.json (stampVersion e))))) :
    Sat (contract t op) post (quarantine e).run w := by
  refine Sat.except_bind (sat_checkValid (fun _ => refused) fun valid => ?_)
  refine sat_writeFile consistent fun w₁ rely => ?_
  simp only [stampVersion_uuid]
  exact body valid w₁ rely

theorem Guar.fresh {txnUUID bytes : Name} {parts : List (Bool × Envelope)} {part : Bool × Envelope}
    (member : part ∈ parts) (grounded : (Op.data txnUUID bytes parts).Grounded w.issued) (consistent : Consistent w)
    (absent : ¬ w.disk.Present part.2.uuid) (spooled : (w.disk.get .data (Op.bodyName txnUUID)).isSome)
    (valid : e.Valid) (sameUuid : e.uuid = part.2.uuid) (sameBody : e.body = part.2.body) (outside : dir ≠ .data)
    (landed : dir ≠ .inflight) (named : Named dir name e) :
    Guar t (.data txnUUID bytes parts) w (w.setDisk (w.disk.put dir name (.json e))) := by
  obtain ⟨refers, ident⟩ := grounded part member
  rw [← sameUuid] at absent
  refine Guar.publish consistent outside landed valid named (by rwa [sameUuid, sameBody]) ?_ (.inr absent)
    (.inr ?_) (.inr (.inr absent)) (fun _ _ => (Sole.put_absent absent).paired) (fun _ => .inl (sameBody.trans refers))
  · intro _
    rw [sameBody, refers]
    exact Option.isSome_iff_exists.mp spooled
  · rw [sameUuid]
    exact List.mem_map_of_mem member

theorem absent_put {d : Disk} {uuid : Name} (absent : ¬ d.Present uuid) (other : uuid ≠ e.uuid) :
    ¬ Disk.Present (d.put dir name (.json e)) uuid := by
  rintro ⟨dir', name', e', outside, holds, of⟩
  rcases holds_put_iff.mp holds with ⟨-, -, same⟩ | ⟨-, old⟩
  · cases same
    exact other of.symm
  · exact absent ⟨dir', name', e', outside, old, of⟩

theorem sat_place {txnUUID bytes : Name} {parts : List (Bool × Envelope)} (rest : List (Bool × Envelope))
    (within : ∀ part ∈ rest, part ∈ parts) (distinct : (rest.map fun part => part.2.uuid).Nodup)
    (consistent : Consistent w) (grounded : (Op.data txnUUID bytes parts).Grounded w.issued)
    (absent : ∀ part ∈ rest, ¬ w.disk.Present part.2.uuid)
    (spooled : (w.disk.get .data (Op.bodyName txnUUID)).isSome) :
    Sat (contract t (.data txnUUID bytes parts)) (fun _ _ => True) (Op.place rest).run w := by
  induction rest generalizing w with
  | nil => exact trivial
  | cons part rest ih =>
    have member := within part List.mem_cons_self
    obtain ⟨apart, distinct'⟩ := List.nodup_cons.mp distinct
    have later : ∀ {w₁ : World}, Rely t (.data txnUUID bytes parts) w w₁ →
        (∀ other ∈ part :: rest, ¬ w₁.disk.Present other.2.uuid) ∧
        (w₁.disk.get .data (Op.bodyName txnUUID)).isSome ∧ (Op.data txnUUID bytes parts).Grounded w₁.issued := by
      intro w₁ rely
      refine ⟨fun other member' => ?_, rely.bodies _ rfl spooled, fun part' member' => ?_⟩
      · exact rely.absent _ (List.mem_map.mpr ⟨other, within other member', rfl⟩) (absent other member')
      · exact ⟨(grounded part' member').1, rely.issued _ (grounded part' member').2⟩
    have step : ∀ {w₁ : World} {dir name e}, Rely t (.data txnUUID bytes parts) w w₁ → e.Valid →
        e.uuid = part.2.uuid → e.body = part.2.body → dir ≠ .data → dir ≠ .inflight → Named dir name e →
        Guar t (.data txnUUID bytes parts) w₁ (w₁.setDisk (w₁.disk.put dir name (.json e))) ∧
        Sat (contract t (.data txnUUID bytes parts)) (fun _ _ => True) (Op.place rest).run
          (w₁.setDisk (w₁.disk.put dir name (.json e))) := by
      intro w₁ dir name e rely valid sameUuid sameBody outside landed named
      obtain ⟨absent₁, spooled₁, grounded₁⟩ := later rely
      have guar := Guar.fresh (t := t) member grounded₁ rely.consistent (absent₁ part List.mem_cons_self) spooled₁
        valid sameUuid sameBody outside landed named
      refine ⟨guar, ih (fun part' member' => within part' (List.mem_cons_of_mem _ member')) distinct'
        guar.consistent grounded₁ ?_ ?_⟩
      · intro part' member'
        refine absent_put (absent₁ part' (List.mem_cons_of_mem _ member')) ?_
        rw [sameUuid]
        intro same
        exact apart (List.mem_map.mpr ⟨part', member', same⟩)
      · simpa only [World.setDisk, get_put_data outside] using spooled₁
    refine Sat.except_bind ?_
    unfold Op.placeOne
    split
    · refine sat_quarantine consistent (fun _ => trivial) fun valid w₁ rely => ?_
      exact step rely valid (stampVersion_uuid _) (stampVersion_body _) (by decide) (by decide) (by simp [Named])
    · refine sat_enqueue consistent (fun _ => trivial) fun valid w₁ rely due => ?_
      exact step rely (valid.dueAt due) (stampVersion_uuid _) (stampVersion_body _) (by decide) (by decide)
        ⟨due, by simp⟩

theorem sat_data {txnUUID bytes : Name} {parts : List (Bool × Envelope)} {pid : Fin (2 ^ 63)}
    (armed : Armed t (.data txnUUID bytes parts) w) :
    Sat (contract t (.data txnUUID bytes parts)) (Ended t (.data txnUUID bytes parts))
      ((Op.data txnUUID bytes parts).prog pid) w := by
  obtain ⟨distinct, absent⟩ := armed.held
  refine sat_single rfl (Sat.except_bind (Sat.except_bind (sat_writeFile armed.consistent fun w₁ rely => ?_)))
  have spooled : ((w₁.disk.put .data (Op.bodyName txnUUID) (.raw bytes)).get .data (Op.bodyName txnUUID)).isSome := by
    simp [get_put]
  have guar : Guar t (.data txnUUID bytes parts) w₁
      (w₁.setDisk (w₁.disk.put .data (Op.bodyName txnUUID) (.raw bytes))) :=
    Guar.body rely.consistent (OnlyBody.put _ _ _) (.inl spooled)
  refine ⟨guar, sat_place parts (fun _ member => member) distinct guar.consistent ?_ ?_ spooled⟩
  · intro part member
    exact ⟨(armed.grounded part member).1, rely.issued _ (armed.grounded part member).2⟩
  · intro part member
    have created : part.2.uuid ∈ (Op.data txnUUID bytes parts).creates := List.mem_map_of_mem member
    exact mt ((OnlyBody.put w₁.disk _ _).untouched _).present.mp (rely.absent _ created (absent part member))

end Sessions

end Mailgw.Queue
