import Mailgw.Queue.Copies

namespace Mailgw.Queue

open Calls Spool Disk

variable {t : Nat} {op : Op} {w : World} {dir : Dir} {name : Name} {e : Envelope}

def World.setDisk (w : World) (disk : Disk) : World := { w with disk }

def handOver (owner : Name → Option Nat) (dir : Dir) (name : Name) (who : Option Nat) : Name → Option Nat :=
  if dir = .inflight then Function.update owner name who else owner

theorem handOver_other {owner : Name → Option Nat} {who : Option Nat} {name' : Name}
    (apart : ¬ (dir = .inflight ∧ name' = name)) : handOver owner dir name who name' = owner name' := by
  unfold handOver
  split
  · rename_i inflight
    exact Function.update_of_ne (fun same => apart ⟨inflight, same⟩) _ _
  · rfl

theorem handOver_self {owner : Name → Option Nat} {who : Option Nat} :
    handOver owner .inflight name who name = who := by simp [handOver]

namespace Consistent

theorem file (consistent : Consistent w) (outside : dir ≠ .data) (holds : w.disk.Holds dir name e) :
    e.Valid ∧ Named dir name e ∧ (e.uuid, e.body) ∈ w.issued := by
  obtain ⟨e', same, rest⟩ := consistent.named dir name _ outside holds
  cases same
  exact rest

theorem needed (consistent : Consistent w) (live : dir ∈ bodyDirs) (holds : w.disk.Holds dir name e) :
    (w.disk.get .data e.body).isSome :=
  Option.isSome_iff_exists.mpr (consistent.bodies dir name e live holds)

theorem filed (consistent : Consistent w) : w.disk.Filed := by
  intro dir name file outside got
  obtain ⟨e, same, valid, named, -⟩ := consistent.named dir name file outside got
  exact ⟨e, same, valid, named⟩

/-- Adding an envelope file keeps the spool consistent when its body is there. -/
theorem put (consistent : Consistent w) (outside : dir ≠ .data) (valid : e.Valid) (named : Named dir name e)
    (ident : (e.uuid, e.body) ∈ w.issued) (body : dir ∈ bodyDirs → ∃ file, w.disk.get .data e.body = some file) :
    Consistent (w.setDisk (w.disk.put dir name (.json e))) := by
  constructor
  · intro dir' name' file outside' got
    simp only [World.setDisk, get_put] at got
    split at got
    · rename_i same
      cases got
      exact ⟨e, rfl, valid, by rw [same.1, same.2]; exact named, ident⟩
    · exact consistent.named dir' name' file outside' got
  · exact consistent.oneBody
  · intro dir' name' e' live holds
    simp only [World.setDisk, get_put_data outside]
    rcases holds_put_iff.mp holds with ⟨rfl, -, same⟩ | ⟨-, old⟩
    · cases same
      exact body live
    · exact consistent.bodies dir' name' e' live old
  · intro name' t' owned
    obtain ⟨e', holds⟩ := consistent.owned name' t' owned
    by_cases same : Dir.inflight = dir ∧ name' = name
    · exact ⟨e, holds_put_iff.mpr (.inl ⟨same.1, same.2, rfl⟩)⟩
    · exact ⟨e', holds_put_iff.mpr (.inr ⟨same, holds⟩)⟩

theorem del (consistent : Consistent w) (outside : dir ≠ .data) {owner : Name → Option Nat}
    (released : ∀ name' t', owner name' = some t' → w.owner name' = some t' ∧ ¬ (dir = .inflight ∧ name' = name)) :
    Consistent { w with disk := w.disk.del dir name, owner } := by
  constructor
  · intro dir' name' file outside' got
    rw [get_del] at got
    split at got
    · cases got
    · exact consistent.named dir' name' file outside' got
  · exact consistent.oneBody
  · intro dir' name' e' live holds
    rw [get_del_data outside]
    exact consistent.bodies dir' name' e' live (holds_del_iff.mp holds).2
  · intro name' t' owned
    obtain ⟨old, other⟩ := released name' t' owned
    obtain ⟨e', holds⟩ := consistent.owned name' t' old
    exact ⟨e', holds_del_iff.mpr ⟨fun same => other ⟨same.1.symm, same.2⟩, holds⟩⟩

end Consistent

theorem Sole.put_absent {d : Disk} (absent : ¬ d.Present e.uuid) : Disk.Sole (d.put dir name (.json e)) e.uuid := by
  intro dir₁ name₁ e₁ dir₂ name₂ e₂ live₁ live₂ holds₁ holds₂ of₁ of₂
  have only : ∀ {dir' name' e'}, dir' ∈ bodyDirs → Disk.Holds (d.put dir name (.json e)) dir' name' e' →
      e'.uuid = e.uuid → dir' = dir ∧ name' = name := by
    intro dir' name' e' live holds of
    rcases holds_put_iff.mp holds with ⟨hd, hn, -⟩ | ⟨-, old⟩
    · exact ⟨hd, hn⟩
    · exact (absent ⟨dir', name', e', live_ne_data live, old, of⟩).elim
  obtain ⟨rfl, rfl⟩ := only live₁ holds₁ of₁
  obtain ⟨rfl, rfl⟩ := only live₂ holds₂ of₂
  exact ⟨rfl, rfl⟩

theorem holds_live_of_put {d : Disk} {dir' : Dir} {name' : Name} {e' : Envelope} (rest : dir ∉ bodyDirs)
    (live : dir' ∈ bodyDirs) (holds : Disk.Holds (d.put dir name (.json e)) dir' name' e') : d.Holds dir' name' e' := by
  rcases holds_put_iff.mp holds with ⟨rfl, -, -⟩ | ⟨-, old⟩
  · exact (rest live).elim
  · exact old

namespace Guar

theorem refl (consistent : Consistent w) : Guar t op w w where
  consistent := consistent
  issued := rfl
  others uuid _ _ := Untouched.refl _ uuid
  absent _ _ absent := absent
  sole _ _ sole := sole
  paired _ _ paired := paired
  forward _ _ _ clear := clear
  bodies _ _ present := present
  needed _ _ _ live holds := consistent.needed live holds
  owned _ _ _ owned := ⟨owned, rfl⟩

theorem publish (consistent : Consistent w) (outside : dir ≠ .data) (landed : dir ≠ .inflight) (valid : e.Valid)
    (named : Named dir name e) (ident : (e.uuid, e.body) ∈ w.issued)
    (body : dir ∈ bodyDirs → ∃ file, w.disk.get .data e.body = some file)
    (mine : op.uuid? = some e.uuid ∨ ¬ w.disk.Present e.uuid)
    (known : w.disk.Present e.uuid ∨ e.uuid ∈ op.creates)
    (sole : dir ∉ bodyDirs ∨ op.duplicates ∧ op.uuid? = some e.uuid ∨ ¬ w.disk.Present e.uuid)
    (paired : ¬ (op.parks ∧ op.uuid? = some e.uuid) → w.disk.Paired e.uuid →
      Disk.Paired (w.disk.put dir name (.json e)) e.uuid)
    (ahead : dir ∈ bodyDirs → op.refillsWith e.uuid e.body ∨
      dir = .quarantine ∧ ∃ name₀ e₀, w.disk.Holds .ready name₀ e₀ ∧ e₀.uuid = e.uuid ∧ e₀.body = e.body) :
    Guar t op w (w.setDisk (w.disk.put dir name (.json e))) := by
  have elsewhere : ∀ {uuid}, uuid ≠ e.uuid → w.disk.Untouched (w.disk.put dir name (.json e)) uuid :=
    untouched_put consistent.filed outside valid named
  constructor
  · exact consistent.put outside valid named ident body
  · rfl
  · intro uuid notMine present
    refine elsewhere ?_
    rintro rfl
    rcases mine with mine | absent
    · exact notMine mine
    · exact absent present
  · intro uuid uncreated absent
    by_cases same : uuid = e.uuid
    · subst same
      exact (known.elim absent uncreated).elim
    · exact fun present => absent ((elsewhere same).present.mp present)
  · intro uuid apart one
    by_cases same : uuid = e.uuid
    · subst same
      rcases sole with rest | mine | absent
      · intro dir₁ name₁ e₁ dir₂ name₂ e₂ live₁ live₂ holds₁ holds₂ of₁ of₂
        exact one _ _ _ _ _ _ live₁ live₂ (holds_live_of_put rest live₁ holds₁)
          (holds_live_of_put rest live₂ holds₂) of₁ of₂
      · exact (apart mine).elim
      · exact Sole.put_absent absent
    · exact one.of_untouched (elsewhere same)
  · intro uuid unparked pair
    by_cases same : uuid = e.uuid
    · subst same
      exact paired unparked pair
    · exact pair.of_untouched (elsewhere same)
  · intro kind unfilled k clear dir' within name' e' holds
    rcases holds_put_iff.mp holds with ⟨rfl, rfl, same⟩ | ⟨-, old⟩
    · cases same
      intro bad
      rcases ahead (List.mem_of_mem_take within) with fills | ⟨rfl, name₀, e₀, held, sameUuid, sameBody⟩
      · exact unfilled _ _ ident valid.body_owned bad fills
      · have deep : Dir.ready ∈ bodyDirs.take k := by
          match k with
          | 0 | 1 | 2 => exact absurd within (by decide)
          | k + 3 => exact List.mem_cons_self
        exact clear _ deep name₀ e₀ held (by rw [sameUuid, sameBody]; exact bad)
    · exact clear dir' within name' e' old
  · intro bodyName _ present
    simpa only [World.setDisk, get_put_data outside] using present
  · intro dir' name' e' live held
    simpa only [World.setDisk, get_put_data outside] using consistent.needed live held
  · intro name' t' _ owned
    refine ⟨owned, ?_⟩
    simp only [World.setDisk, get_put]
    exact if_neg fun same => landed same.1.symm

/-- Removing an envelope file: from inflight/ only the owner's. -/
theorem unlink (consistent : Consistent w) (outside : dir ≠ .data) (holds : w.disk.Holds dir name e)
    (mine : op.uuid? = some e.uuid) (claimed : dir = .inflight → w.owner name = some t) :
    Guar t op w { w with disk := w.disk.del dir name, owner := handOver w.owner dir name none } := by
  have elsewhere : ∀ {uuid}, uuid ≠ e.uuid → w.disk.Untouched (w.disk.del dir name) uuid := untouched_del holds
  have smaller : ∀ {dir' name' e'}, Disk.Holds (w.disk.del dir name) dir' name' e' → w.disk.Holds dir' name' e' :=
    fun held => (holds_del_iff.mp held).2
  constructor
  · refine consistent.del outside ?_
    intro name' t' owned
    by_cases same : dir = .inflight ∧ name' = name
    · obtain ⟨rfl, rfl⟩ := same
      rw [handOver_self] at owned
      cases owned
    · rw [handOver_other same] at owned
      exact ⟨owned, same⟩
  · rfl
  · intro uuid notMine _
    refine elsewhere ?_
    rintro rfl
    exact notMine mine
  · rintro uuid - absent ⟨dir', name', e', outside', held, of⟩
    exact absent ⟨dir', name', e', outside', smaller held, of⟩
  · intro uuid _ one dir₁ name₁ e₁ dir₂ name₂ e₂ live₁ live₂ holds₁ holds₂ of₁ of₂
    exact one _ _ _ _ _ _ live₁ live₂ (smaller holds₁) (smaller holds₂) of₁ of₂
  · intro uuid _ pair dir₁ name₁ e₁ dir₂ name₂ e₂ live₁ live₂ holds₁ holds₂ of₁ of₂
    exact pair _ _ _ _ _ _ live₁ live₂ (smaller holds₁) (smaller holds₂) of₁ of₂
  · intro kind _ k clear dir' within name' e' held
    exact clear dir' within name' e' (smaller held)
  · intro body _ present
    simpa only [get_del_data outside] using present
  · intro dir' name' e' live held
    simpa only [get_del_data outside] using consistent.needed live held
  · intro name' t' other owned
    have apart : ¬ (dir = .inflight ∧ name' = name) := by
      rintro ⟨rfl, rfl⟩
      rw [claimed rfl] at owned
      exact other (Option.some.inj owned).symm
    refine ⟨(handOver_other apart).trans owned, ?_⟩
    rw [get_del, if_neg fun same => apart ⟨same.1.symm, same.2⟩]

/-- Moving the only copy of an envelope within the queue, or into inflight/ for oneself. -/
theorem move {dir' : Dir} {name' : Name} (consistent : Consistent w) (holds : w.disk.Holds .ready name e)
    (target : dir' = .ready ∨ dir' = .inflight) (named : Named dir' name' e) (mine : op.uuid? = some e.uuid)
    (one : w.disk.Sole e.uuid) :
    Guar t op w { w with
      disk := (w.disk.del .ready name).put dir' name' (.json e)
      owner := handOver w.owner dir' name' (some t) } := by
  obtain ⟨valid, named₀, ident⟩ := consistent.file (by decide) holds
  have outside : dir' ≠ .data := by rcases target with rfl | rfl <;> decide
  have live : dir' ∈ bodyDirs := by rcases target with rfl | rfl <;> decide
  have body := consistent.bodies _ _ _ (by decide) holds
  have removed : Consistent { w with disk := w.disk.del .ready name } :=
    consistent.del (by decide) fun name₁ t₁ owned => ⟨owned, fun same => by cases same.1⟩
  have body' : ∃ file, (w.disk.del .ready name).get .data e.body = some file := by
    rwa [get_del_data (by decide)]
  have moved := removed.put outside valid named ident fun _ => body'
  have elsewhere : ∀ {uuid}, uuid ≠ e.uuid →
      w.disk.Untouched ((w.disk.del .ready name).put dir' name' (.json e)) uuid := by
    intro uuid other dir₁ name₁ e₁ outside₁ of
    exact (untouched_put removed.filed outside valid named other dir₁ name₁ e₁ outside₁ of).trans
      (untouched_del holds other dir₁ name₁ e₁ outside₁ of)
  have only : ∀ {dir₁ name₁ e₁}, dir₁ ∈ bodyDirs →
      Disk.Holds ((w.disk.del .ready name).put dir' name' (.json e)) dir₁ name₁ e₁ → e₁.uuid = e.uuid →
      dir₁ = dir' ∧ name₁ = name' := by
    intro dir₁ name₁ e₁ live₁ held of
    rcases holds_put_iff.mp held with ⟨hd, hn, -⟩ | ⟨-, old⟩
    · exact ⟨hd, hn⟩
    · obtain ⟨gone, old⟩ := holds_del_iff.mp old
      exact (gone (one _ _ _ _ _ _ live₁ (by decide) old holds of rfl)).elim
  have solo : Disk.Sole ((w.disk.del .ready name).put dir' name' (.json e)) e.uuid := by
    intro dir₁ name₁ e₁ dir₂ name₂ e₂ live₁ live₂ holds₁ holds₂ of₁ of₂
    obtain ⟨rfl, rfl⟩ := only live₁ holds₁ of₁
    obtain ⟨rfl, rfl⟩ := only live₂ holds₂ of₂
    exact ⟨rfl, rfl⟩
  constructor
  · refine ⟨moved.named, moved.oneBody, moved.bodies, ?_⟩
    intro name₁ t₁ owned
    by_cases same : dir' = .inflight ∧ name₁ = name'
    · exact ⟨e, holds_put_iff.mpr (.inl ⟨same.1.symm, same.2, rfl⟩)⟩
    · exact moved.owned name₁ t₁ ((handOver_other same).symm.trans owned)
  · rfl
  · intro uuid notMine _
    refine elsewhere ?_
    rintro rfl
    exact notMine mine
  · intro uuid _ absent
    by_cases same : uuid = e.uuid
    · subst same
      exact (absent ⟨.ready, name, e, by decide, holds, rfl⟩).elim
    · exact fun present => absent ((elsewhere same).present.mp present)
  · intro uuid _ one'
    by_cases same : uuid = e.uuid
    · exact same ▸ solo
    · exact one'.of_untouched (elsewhere same)
  · intro uuid _ pair
    by_cases same : uuid = e.uuid
    · exact same ▸ solo.paired
    · exact pair.of_untouched (elsewhere same)
  · intro kind _ k clear dir₁ within name₁ e₁ held
    rcases holds_put_iff.mp held with ⟨rfl, rfl, same⟩ | ⟨-, old⟩
    · cases same
      have deep : Dir.ready ∈ bodyDirs.take k := by
        match k with
        | 0 => exact absurd within (by simp)
        | k + 1 => exact List.mem_cons_self
      exact clear _ deep name e holds
    · exact clear dir₁ within name₁ e₁ (holds_del_iff.mp old).2
  · intro bodyName _ present
    simpa only [get_put_data outside, get_del_data (show Dir.ready ≠ .data by decide)] using present
  · intro dir₁ name₁ e₁ live₁ held
    simpa only [get_put_data outside, get_del_data (show Dir.ready ≠ .data by decide)] using consistent.needed live₁ held
  · intro name₁ t₁ other owned
    obtain ⟨e₁, held⟩ := consistent.owned name₁ t₁ owned
    have apart : ¬ (dir' = .inflight ∧ name₁ = name') := by
      rintro ⟨rfl, rfl⟩
      have of := consistent.filed.same_uuid (by decide) held valid named
      exact absurd (one _ _ _ _ _ _ (by decide) (by decide) held holds of rfl).1 (by decide)
    refine ⟨(handOver_other apart).trans owned, ?_⟩
    rw [get_put, if_neg fun same => apart ⟨same.1.symm, same.2⟩, get_del, if_neg fun same => by cases same.1]

end Guar

section Bodies
variable {bodyName : Name} {d' : Disk}

structure OnlyBody (d d' : Disk) (bodyName : Name) : Prop where
  same : ∀ dir name, dir ≠ .data → d'.get dir name = d.get dir name
  kept : ∀ name, name ≠ bodyName → d'.get .data name = d.get .data name

theorem OnlyBody.put (d : Disk) (body : Name) (file : File) : OnlyBody d (d.put .data body file) body :=
  ⟨fun dir name outside => by rw [get_put, if_neg fun same => outside same.1],
    fun name other => by rw [get_put, if_neg fun same => other same.2]⟩

theorem OnlyBody.del (d : Disk) (body : Name) : OnlyBody d (d.del .data body) body :=
  ⟨fun dir name outside => by rw [get_del, if_neg fun same => outside same.1],
    fun name other => by rw [get_del, if_neg fun same => other same.2]⟩

theorem OnlyBody.holds (only : OnlyBody w.disk d' bodyName) (outside : dir ≠ .data) :
    d'.Holds dir name e ↔ w.disk.Holds dir name e := by
  unfold Holds
  rw [only.same dir name outside]

theorem OnlyBody.untouched {d : Disk} (only : OnlyBody d d' bodyName) (uuid : Name) : d.Untouched d' uuid := by
  intro dir name e outside _
  unfold Holds
  rw [only.same dir name outside]

theorem Guar.body (consistent : Consistent w) (only : OnlyBody w.disk d' bodyName)
    (kept : (d'.get .data bodyName).isSome ∨
      op.collects bodyName ∧ w.disk.Clear (fun _ b => b = bodyName) 3) :
    Guar t op w (w.setDisk d') := by
  have same := only.untouched
  constructor
  · constructor
    · intro dir name file outside got
      exact consistent.named dir name file outside (by rwa [← only.same dir name outside])
    · exact consistent.oneBody
    · intro dir name e live held
      have old := (only.holds (live_ne_data live)).mp held
      by_cases this : e.body = bodyName
      · rcases kept with present | ⟨-, clear⟩
        · rw [this]
          exact Option.isSome_iff_exists.mp present
        · exact (clear dir live name e old this).elim
      · simp only [World.setDisk, only.kept _ this]
        exact consistent.bodies dir name e live old
    · intro name t' owned
      obtain ⟨e, held⟩ := consistent.owned name t' owned
      exact ⟨e, (only.holds (by decide)).mpr held⟩
  · rfl
  · exact fun uuid _ _ => same uuid
  · exact fun uuid _ absent present => absent ((same uuid).present.mp present)
  · exact fun uuid _ one => one.of_untouched (same uuid)
  · exact fun uuid _ pair => pair.of_untouched (same uuid)
  · intro kind _ k clear dir within name e held
    exact clear dir within name e ((only.holds (live_ne_data (List.mem_of_mem_take within))).mp held)
  · intro name uncollected present
    by_cases this : name = bodyName
    · subst this
      rcases kept with there | ⟨collects, -⟩
      · exact there
      · exact (uncollected collects).elim
    · simpa only [World.setDisk, only.kept _ this] using present
  · intro dir name e live held
    by_cases this : e.body = bodyName
    · rcases kept with present | ⟨-, clear⟩
      · rwa [this]
      · exact (clear dir live name e held this).elim
    · simpa only [World.setDisk, only.kept _ this] using consistent.needed live held
  · exact fun name t' _ owned => ⟨owned, only.same .inflight name (by decide)⟩

end Bodies

end Mailgw.Queue
