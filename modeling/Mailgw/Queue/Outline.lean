import Mailgw.Queue.Moves

namespace Mailgw.Queue

open Calls Spool Disk

variable {t t' : Nat} {op op' : Op} {w w₁ w₂ : World} {dir : Dir} {name : Name}

namespace Rely

theorem refl (consistent : Consistent w) : Rely t op w w where
  consistent := consistent
  issued _ member := member
  frozen _ uuid _ _ := Untouched.refl _ uuid
  absent _ _ absent := absent
  sole _ _ sole := sole
  clearBody _ _ _ clear := clear
  clearUuid _ _ _ _ clear := clear
  bodies _ _ present := present
  owned _ owned := ⟨owned, rfl⟩

theorem trans (first : Rely t op w w₁) (second : Rely t op w₁ w₂) : Rely t op w w₂ where
  consistent := second.consistent
  issued entry member := second.issued entry (first.issued entry member)
  frozen duplicates uuid mine present := by
    have same := first.frozen duplicates uuid mine present
    have same' := second.frozen duplicates uuid mine (same.present.mpr present)
    exact fun dir name e outside of => (same' dir name e outside of).trans (same dir name e outside of)
  absent uuid created absent := second.absent uuid created (first.absent uuid created absent)
  sole uuid mine sole := second.sole uuid mine (first.sole uuid mine sole)
  clearBody body collects k clear := second.clearBody body collects k (first.clearBody body collects k clear)
  clearUuid gathers uuid mine k clear :=
    second.clearUuid gathers uuid mine k (first.clearUuid gathers uuid mine k clear)
  bodies body spools present := second.bodies body spools (first.bodies body spools present)
  owned name owned := by
    obtain ⟨owned₁, same₁⟩ := first.owned name owned
    obtain ⟨owned₂, same₂⟩ := second.owned name owned₁
    exact ⟨owned₂, same₂.trans same₁⟩

theorem star (consistent : Consistent w) (moves : Relation.ReflTransGen (Rely t op) w w₁) : Rely t op w w₁ := by
  induction moves with
  | refl => exact refl consistent
  | tail _ move ih => exact ih.trans move

end Rely

theorem Op.refills_of_refillsWith {uuid body : Name} (consistent : Consistent w) (grounded : op.Grounded w.issued)
    (ident : (uuid, body) ∈ w.issued) (owned : bodyOwnedBy body uuid = true) (fills : op.refillsWith uuid body) :
    op.refills body := by
  cases op with
  | data txnUUID bytes parts => exact Eq.symm fills
  | reschedule inflightName e due =>
    have same : uuid = e.uuid := fills
    subst same
    exact consistent.oneBody _ _ _ grounded ident
  | release target =>
    have same : uuid = target := fills
    exact same ▸ owned
  | _ => exact fills

theorem Op.collects_of_gathers {uuid body : Name} (consistent : Consistent w) (grounded : op.Grounded w.issued)
    (ident : (uuid, body) ∈ w.issued) (owned : bodyOwnedBy body uuid = true) (gathers : op.gathers = true)
    (mine : op.uuid? = some uuid) : op.collects body := by
  cases op with
  | complete inflightName e | bury inflightName e =>
    have same : e.uuid = uuid := Option.some.inj mine
    subst same
    exact consistent.oneBody _ _ _ grounded ident
  | remove target =>
    have same : target = uuid := Option.some.inj mine
    exact same ▸ owned
  | _ => cases gathers

theorem Guar.rely (guar : Guar t op w w₁) (consistent : Consistent w) (threads : t' ≠ t)
    (grounded : op.Grounded w.issued) (grounded' : op'.Grounded w.issued)
    (apart : Undisturbed op op') (apart' : Undisturbed op' op)
    (separate : ∀ uuid ∈ op'.creates, uuid ∉ op.creates) : Rely t' op' w w₁ where
  consistent := guar.consistent
  issued entry member := by rwa [guar.issued]
  frozen duplicates uuid mine present := guar.others uuid (apart'.apart duplicates uuid mine) present
  absent uuid created := guar.absent uuid (separate uuid created)
  sole uuid mine := guar.sole uuid fun both => apart.apart both.1 uuid both.2 mine
  clearBody body collects k := by
    refine guar.forward _ ?_ k
    rintro uuid _ ident owned rfl fills
    exact apart'.settled _ collects (Op.refills_of_refillsWith consistent grounded ident owned fills)
  clearUuid gathers uuid mine k := by
    refine guar.forward _ ?_ k
    rintro _ body ident owned rfl fills
    exact apart'.settled body (Op.collects_of_gathers consistent grounded' ident owned gathers mine)
      (Op.refills_of_refillsWith consistent grounded ident owned fills)
  bodies body spools := by
    refine guar.bodies body fun collects => apart.settled body collects ?_
    cases op' with
    | data txnUUID bytes parts => exact spools
    | _ => exact spools.elim
  owned name owned := guar.owned name t' threads owned

section Rules
variable {post : Except Failure Unit → World → Prop}

theorem sat_sys {c : FsCall} {final : c.Answer → World → Prop} (consistent : Consistent w)
    (body : ∀ w₁, Rely t op w w₁ → ∀ answer w₂, worldStep t c w₁ answer w₂ →
      Guar t op w₁ w₂ ∧ final answer w₂) : Sat (contract t op) final (sys c) w :=
  fun w₁ moves answer w₂ step => body w₁ (Rely.star consistent moves) answer w₂ step

theorem World.ext_fields {disk : Disk} {owner : Name → Option Nat} (hd : w₂.disk = disk)
    (ho : w₂.owner = owner) (hi : w₂.issued = w₁.issued) : w₂ = { w₁ with disk, owner } := by
  cases w₂
  simp_all

theorem sat_now {final : Except Failure Instant → World → Prop} (consistent : Consistent w)
    (body : ∀ w₁, Rely t op w w₁ → ∀ clock, final (.ok clock) w₁) :
    Sat (contract t op) final now.run w := by
  refine Sat.except_lift (sat_sys consistent ?_)
  rintro w₁ rely answer w₂ ⟨choice, -, step, owner, issued⟩
  obtain ⟨rfl, disk⟩ := Prod.mk.inj step
  obtain rfl := World.ext_fields disk.symm owner issued
  exact ⟨Guar.refl rely.consistent, body _ rely _⟩

theorem sat_readDir {final : Except Failure (List Name) → World → Prop} (consistent : Consistent w)
    (body : ∀ w₁, Rely t op w w₁ → final (.ok (w₁.disk.list dir)) w₁) :
    Sat (contract t op) final (readDir dir).run w := by
  refine sat_sys consistent ?_
  rintro w₁ rely answer w₂ ⟨choice, calm, step, owner, issued⟩
  simp only [exec, calm] at step
  obtain ⟨rfl, disk⟩ := Prod.mk.inj step
  obtain rfl := World.ext_fields disk.symm owner issued
  exact ⟨Guar.refl rely.consistent, body _ rely⟩

theorem sat_readFile {final : Except Failure File → World → Prop} (consistent : Consistent w)
    (missing : ∀ w₁, Rely t op w w₁ → w₁.disk.get dir name = none → final (.error .notExist) w₁)
    (found : ∀ w₁, Rely t op w w₁ → ∀ file, w₁.disk.get dir name = some file → final (.ok file) w₁) :
    Sat (contract t op) final (readFile dir name).run w := by
  refine sat_sys consistent ?_
  rintro w₁ rely answer w₂ ⟨choice, calm, step, owner, issued⟩
  simp only [exec, calm] at step
  cases got : w₁.disk.get dir name with
  | none =>
    simp only [got] at step
    obtain ⟨rfl, disk⟩ := Prod.mk.inj step
    obtain rfl := World.ext_fields disk.symm owner issued
    exact ⟨Guar.refl rely.consistent, missing _ rely got⟩
  | some file =>
    simp only [got] at step
    obtain ⟨rfl, disk⟩ := Prod.mk.inj step
    obtain rfl := World.ext_fields disk.symm owner issued
    exact ⟨Guar.refl rely.consistent, found _ rely file got⟩

theorem sat_temp {step : TempStep} (consistent : Consistent w) (body : ∀ w₁, Rely t op w w₁ → post (.ok ()) w₁) :
    Sat (contract t op) post (temp step).run w := by
  refine sat_sys consistent ?_
  rintro w₁ rely answer w₂ ⟨choice, calm, move, owner, issued⟩
  simp only [exec, calm] at move
  obtain ⟨rfl, disk⟩ := Prod.mk.inj move
  obtain rfl := World.ext_fields disk.symm owner issued
  exact ⟨Guar.refl rely.consistent, body _ rely⟩

theorem sat_publish {file : File} (consistent : Consistent w)
    (body : ∀ w₁, Rely t op w w₁ → Guar t op w₁ (w₁.setDisk (w₁.disk.put dir name file)) ∧
      post (.ok ()) (w₁.setDisk (w₁.disk.put dir name file))) :
    Sat (contract t op) post (publish dir name file).run w := by
  refine sat_sys consistent ?_
  rintro w₁ rely answer w₂ ⟨choice, calm, move, owner, issued⟩
  simp only [exec, calm] at move
  obtain ⟨rfl, disk⟩ := Prod.mk.inj move
  obtain rfl := World.ext_fields disk.symm owner issued
  exact body _ rely

theorem sat_remove (consistent : Consistent w)
    (missing : ∀ w₁, Rely t op w w₁ → w₁.disk.get dir name = none → post (.error .notExist) w₁)
    (found : ∀ w₁, Rely t op w w₁ → ∀ file, w₁.disk.get dir name = some file →
      Guar t op w₁ { w₁ with disk := w₁.disk.del dir name, owner := handOver w₁.owner dir name none } ∧
      post (.ok ()) { w₁ with disk := w₁.disk.del dir name, owner := handOver w₁.owner dir name none }) :
    Sat (contract t op) post (Spool.remove dir name).run w := by
  refine sat_sys consistent ?_
  rintro w₁ rely answer w₂ ⟨choice, calm, step, owner, issued⟩
  simp only [exec, calm] at step
  cases got : w₁.disk.get dir name with
  | none =>
    simp only [got] at step
    obtain ⟨rfl, disk⟩ := Prod.mk.inj step
    have kept : Cfg.ownAfter t w₁.owner (.remove dir name) (.error .notExist) = w₁.owner := by
      cases dir <;> rfl
    obtain rfl := World.ext_fields disk.symm (owner.trans kept) issued
    exact ⟨Guar.refl rely.consistent, missing _ rely got⟩
  | some file =>
    simp only [got] at step
    obtain ⟨rfl, disk⟩ := Prod.mk.inj step
    have moved : Cfg.ownAfter t w₁.owner (.remove dir name) (.ok ()) = handOver w₁.owner dir name none := by
      cases dir <;> rfl
    obtain rfl := World.ext_fields disk.symm (owner.trans moved) issued
    exact found _ rely file got

theorem sat_rename {name' : Name} (target : dir = .ready ∨ dir = .inflight) (consistent : Consistent w)
    (missing : ∀ w₁, Rely t op w w₁ → w₁.disk.get .ready name = none → post (.error .notExist) w₁)
    (found : ∀ w₁, Rely t op w w₁ → ∀ file, w₁.disk.get .ready name = some file →
      Guar t op w₁ { w₁ with
        disk := (w₁.disk.del .ready name).put dir name' file, owner := handOver w₁.owner dir name' (some t) } ∧
      post (.ok ()) { w₁ with
        disk := (w₁.disk.del .ready name).put dir name' file, owner := handOver w₁.owner dir name' (some t) }) :
    Sat (contract t op) post (rename .ready name dir name').run w := by
  refine sat_sys consistent ?_
  rintro w₁ rely answer w₂ ⟨choice, calm, step, owner, issued⟩
  simp only [exec, calm] at step
  cases got : w₁.disk.get .ready name with
  | none =>
    simp only [got] at step
    obtain ⟨rfl, disk⟩ := Prod.mk.inj step
    have kept : Cfg.ownAfter t w₁.owner (.rename .ready name dir name') (.error .notExist) = w₁.owner := by
      cases dir <;> rfl
    obtain rfl := World.ext_fields disk.symm (owner.trans kept) issued
    exact ⟨Guar.refl rely.consistent, missing _ rely got⟩
  | some file =>
    simp only [got] at step
    obtain ⟨rfl, disk⟩ := Prod.mk.inj step
    have moved : Cfg.ownAfter t w₁.owner (.rename .ready name dir name') (.ok ()) =
        handOver w₁.owner dir name' (some t) := by
      rcases target with rfl | rfl <;> rfl
    obtain rfl := World.ext_fields disk.symm (owner.trans moved) issued
    exact found _ rely file got

end Rules

end Mailgw.Queue
