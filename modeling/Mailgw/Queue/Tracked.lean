import Mailgw.Queue.Moves
import Mailgw.Queue.Versions

namespace Mailgw.Queue

open Calls Spool Disk

namespace Op

def exclusive : Op → Bool
  | enqueue _ | quarantine _ | reschedule _ _ _ => true
  | _ => false

def fragile : Op → Bool
  | reschedule _ _ _ | recover => true
  | op => op.isOperator

def brittle (op : Op) (c : FsCall) : Bool :=
  match op, c with
  | claim _, .readFile _ _ => true
  | _, _ => op.fragile

theorem fragile_of_operator {op : Op} (operator : op.isOperator = true) : op.fragile = true := by
  cases op <;> first | rfl | exact operator

def buries : Op → Bool
  | bury _ _ | remove _ => true
  | _ => false

theorem brittle_of_fragile {op : Op} (fragile : op.fragile = true) (c : FsCall) : op.brittle c = true := by
  unfold brittle
  split
  · rfl
  · exact fragile

end Op

namespace Ledger

variable {t t' : Nat} {op op' : Op} {w w₁ w₂ : Ledger} {dir : Dir} {name uuid : Name} {e : Envelope}

structure Sound (w : Ledger) : Prop where
  filed : w.disk.Filed
  owned : ∀ name t, w.owner name = some t → ∃ e, w.disk.Holds .inflight name e

structure Guar (t : Nat) (op : Op) (w w' : Ledger) : Prop where
  sound : w'.Sound
  others : ∀ uuid, op.uuid? ≠ some uuid → w'.trail uuid = w.trail uuid
  tidy : ∀ uuid, op.uuid? = some uuid → (w.trail uuid).Tidy → (w'.trail uuid).Tidy
  rested : ∀ uuid, op.uuid? = some uuid → op.duplicates = false ∨ op.isOperator = true →
    (w.trail uuid).Rested → (w'.trail uuid).Rested
  gone : op.exclusive = false → op.isOperator = false → ∀ uuid, op.uuid? = some uuid →
    (w.trail uuid).version = none → (w'.trail uuid).version = none
  dead : op.buries = false → ∀ uuid, (w'.trail uuid).copies .dead = (w.trail uuid).copies .dead
  owned : ∀ name t', t' ≠ t → (w'.owner name = some t' ↔ w.owner name = some t') ∧
    (w.owner name = some t' → w'.disk.get .inflight name = w.disk.get .inflight name)
  claimed : ∀ uuid name e, (name, e) ∈ (w'.trail uuid).copies .inflight →
    w'.owner name = some t ∨ (name, e) ∈ (w.trail uuid).copies .inflight ∧ w'.owner name = w.owner name

/-- What an operation relies on while the others work. An operator has the spool for itself. -/
structure Rely (t : Nat) (op : Op) (w w' : Ledger) : Prop where
  sound : w.Sound → w'.Sound
  alone : op.isOperator = true → w' = w
  rested : ∀ uuid, op.uuid? = some uuid → (w.trail uuid).Rested → (w'.trail uuid).Rested
  gone : ∀ uuid, op.uuid? = some uuid → (w.trail uuid).version = none → (w'.trail uuid).version = none
  kept : op.exclusive = true → ∀ uuid, op.uuid? = some uuid → w'.trail uuid = w.trail uuid
  owned : ∀ name, (w'.owner name = some t ↔ w.owner name = some t) ∧
    (w.owner name = some t → w'.disk.get .inflight name = w.disk.get .inflight name)

/-- One system call. A call the operation cannot bear to fail does not fail. -/
def Step (t : Nat) (op : Op) (c : FsCall) (w : Ledger) (answer : c.Answer) (w' : Ledger) : Prop :=
  ∃ choice, (choice.fails = true → op.brittle c = false) ∧ exec choice w.disk c = (answer, w'.disk) ∧
    w'.owner = Cfg.ownAfter t w.owner c answer ∧ w'.log = Cfg.record op c answer ++ w.log

def tracked (t : Nat) (op : Op) : Contract FsCall FsCall.Answer Ledger := ⟨Step t op, Rely t op, Guar t op⟩

namespace Rely

theorem refl (t : Nat) (op : Op) (w : Ledger) : Rely t op w w where
  sound sound := sound
  alone _ := rfl
  rested _ _ rested := rested
  gone _ _ gone := gone
  kept _ _ _ := rfl
  owned _ := ⟨Iff.rfl, fun _ => rfl⟩

theorem trans (first : Rely t op w w₁) (second : Rely t op w₁ w₂) : Rely t op w w₂ where
  sound sound := second.sound (first.sound sound)
  alone operator := (second.alone operator).trans (first.alone operator)
  rested uuid mine rested := second.rested uuid mine (first.rested uuid mine rested)
  gone uuid mine gone := second.gone uuid mine (first.gone uuid mine gone)
  kept exclusive uuid mine := (second.kept exclusive uuid mine).trans (first.kept exclusive uuid mine)
  owned name := by
    refine ⟨(second.owned name).1.trans (first.owned name).1, fun owned => ?_⟩
    have owned₁ := (first.owned name).1.mpr owned
    exact ((second.owned name).2 owned₁).trans ((first.owned name).2 owned)

theorem star (moves : Relation.ReflTransGen (Rely t op) w w₁) : Rely t op w w₁ := by
  induction moves with
  | refl => exact refl t op w
  | tail _ move ih => exact ih.trans move

theorem holds (rely : Rely t op w w₁) (owned : w.owner name = some t) (holds : w.disk.Holds .inflight name e) :
    w₁.owner name = some t ∧ w₁.disk.Holds .inflight name e :=
  ⟨(rely.owned name).1.mpr owned, ((rely.owned name).2 owned).trans holds⟩

end Rely

theorem Sound.file (sound : w.Sound) (outside : dir ≠ .data) (holds : w.disk.Holds dir name e) :
    e.Valid ∧ Named dir name e := sound.filed.file outside holds

def published (w : Ledger) (op : Op) (dir : Dir) (name : Name) (e : Envelope) : Ledger :=
  ⟨w.disk.put dir name (.json e), w.owner, .did op (.publish dir name (.json e)) :: w.log⟩

def removed (w : Ledger) (op : Op) (dir : Dir) (name : Name) : Ledger :=
  ⟨w.disk.del dir name, handOver w.owner dir name none, .did op (.remove dir name) :: w.log⟩

def renamed (w : Ledger) (t : Nat) (op : Op) (name : Name) (dir : Dir) (name' : Name) (file : File) : Ledger :=
  ⟨(w.disk.del .ready name).put dir name' file, handOver w.owner dir name' (some t),
    .did op (.rename .ready name dir name') :: w.log⟩

section Trails

theorem trail_published (outside : dir ≠ .data) {version : Option Envelope}
    (speaks : (Event.did op (.publish dir name (.json e))).about = some (e.uuid, version)) :
    (w.published op dir name e).trail e.uuid = ((w.trail e.uuid).add dir name e).settle version := by
  simp only [trail, published, copies_put outside, standing_cons_self speaks]
  rfl

theorem trail_published_other (sound : w.Sound) (outside : dir ≠ .data) (valid : e.Valid) (named : Named dir name e)
    {version : Option Envelope}
    (speaks : (Event.did op (.publish dir name (.json e))).about = some (e.uuid, version)) (other : uuid ≠ e.uuid) :
    (w.published op dir name e).trail uuid = w.trail uuid :=
  trail_congr (untouched_put sound.filed outside valid named other) (standing_cons_other speaks other)

def Speaks (event : Event) (uuid : Name) : Prop := ∀ uuid' version, event.about = some (uuid', version) → uuid' = uuid

theorem standing_speaks {event : Event} {uuid' : Name} (speaks : Speaks event uuid) (other : uuid' ≠ uuid)
    (log : List Event) : standing uuid' (event :: log) = standing uuid' log := by
  cases said : event.about with
  | none => exact standing_cons_none said
  | some about =>
    obtain ⟨uuid₁, version⟩ := about
    cases speaks _ _ said
    exact standing_cons_other said other

theorem standing_removed {log : List Event} (gone : standing uuid log = none) :
    standing uuid (.did op (.remove dir name) :: log) = none := by
  simp only [standing, Event.about]
  split
  · rename_i uuid' version said
    split
    · split at said <;> simp_all
    · exact gone
  · exact gone

theorem trail_removed (dir : Dir) (name : Name) : (w.removed op dir name).trail uuid =
    ((w.trail uuid).drop dir name).settle (standing uuid (.did op (.remove dir name) :: w.log)) := by
  simp only [trail, removed, copies_del]
  rfl

theorem trail_removed_other (holds : w.disk.Holds dir name e) (speaks : Speaks (.did op (.remove dir name)) e.uuid)
    (other : uuid ≠ e.uuid) : (w.removed op dir name).trail uuid = w.trail uuid :=
  trail_congr (untouched_del holds other) (standing_speaks speaks other _)

theorem trail_renamed (outside : dir ≠ .data) (name name' : Name) : (w.renamed t op name dir name' (.json e)).trail e.uuid =
    ((w.trail e.uuid).drop .ready name).add dir name' e := by
  simp only [trail, renamed, copies_put outside, copies_del]
  rw [standing_cons_none rfl]
  rfl

theorem trail_renamed_other {name' : Name} (sound : w.Sound) (outside : dir ≠ .data) (valid : e.Valid)
    (named : Named dir name' e) (holds : w.disk.Holds .ready name e) (other : uuid ≠ e.uuid) :
    (w.renamed t op name dir name' (.json e)).trail uuid = w.trail uuid := by
  have dropped : Disk.Filed (w.disk.del .ready name) := sound.filed.del
  have first := untouched_del holds other
  have second := untouched_put dropped outside valid named other
  refine trail_congr (fun dir' name₁ e₁ outside' of => ?_) (standing_cons_none rfl)
  exact (second dir' name₁ e₁ outside' of).trans (first dir' name₁ e₁ outside' of)

theorem trail_aside {d : Disk} {body : Name} (only : OnlyBody w.disk d body) {events : List Event}
    (silent : ∀ event ∈ events, event.about = none) :
    (⟨d, w.owner, events ++ w.log⟩ : Ledger).trail uuid = w.trail uuid := by
  refine trail_congr (only.untouched uuid) ?_
  show standing uuid (events ++ w.log) = standing uuid w.log
  induction events with
  | nil => rfl
  | cons event rest ih =>
    rw [List.cons_append, standing_cons_none (silent event (by simp))]
    exact ih fun event member => silent event (List.mem_cons_of_mem _ member)

end Trails

namespace Guar

theorem refl (sound : w.Sound) : Guar t op w w where
  sound := sound
  others _ _ := rfl
  tidy _ _ tidy := tidy
  rested _ _ _ rested := rested
  gone _ _ _ _ gone := gone
  dead _ _ := rfl
  owned _ _ _ := ⟨Iff.rfl, fun _ => rfl⟩
  claimed _ _ _ within := .inr ⟨within, rfl⟩

theorem publish (sound : w.Sound) (outside : dir ≠ .data) (landed : dir ≠ .inflight) (valid : e.Valid)
    (named : Named dir name e) (mine : op.uuid? = some e.uuid) {version : Option Envelope}
    (speaks : (Event.did op (.publish dir name (.json e))).about = some (e.uuid, version))
    (tidy : (w.trail e.uuid).Tidy → (((w.trail e.uuid).add dir name e).settle version).Tidy)
    (rested : op.duplicates = false ∨ op.isOperator = true → (w.trail e.uuid).Rested →
      (((w.trail e.uuid).add dir name e).settle version).Rested)
    (gone : op.exclusive = false → op.isOperator = false → version = none)
    (dead : op.buries = false → dir ≠ .dead) : Guar t op w (w.published op dir name e) := by
  have now : (w.published op dir name e).trail e.uuid = ((w.trail e.uuid).add dir name e).settle version :=
    trail_published outside speaks
  have away : ∀ {uuid}, uuid ≠ e.uuid → (w.published op dir name e).trail uuid = w.trail uuid :=
    fun other => trail_published_other sound outside valid named speaks other
  have flight : ∀ name', (w.published op dir name e).disk.get .inflight name' = w.disk.get .inflight name' := by
    intro name'
    show (w.disk.put dir name _).get .inflight name' = _
    rw [get_put, if_neg fun same => landed same.1.symm]
  have held : ∀ name' e', (w.published op dir name e).disk.Holds .inflight name' e' ↔ w.disk.Holds .inflight name' e' := by
    intro name' e'
    unfold Holds
    rw [flight name']
  constructor
  · refine ⟨sound.filed.put valid named, fun name' t' owned => ?_⟩
    obtain ⟨e', holds⟩ := sound.owned name' t' owned
    exact ⟨e', (held name' e').mpr holds⟩
  · intro uuid other
    apply away
    rintro rfl
    exact other mine
  · intro uuid same
    cases Option.some.inj (mine.symm.trans same)
    rw [now]
    exact tidy
  · intro uuid same kind
    cases Option.some.inj (mine.symm.trans same)
    rw [now]
    exact rested kind
  · intro shared gateway uuid same _
    cases Option.some.inj (mine.symm.trans same)
    rw [now]
    exact gone shared gateway
  · intro keeps uuid
    by_cases same : uuid = e.uuid
    · subst same
      rw [now, Trail.copies_settle, Trail.copies_add, if_neg (Ne.symm (dead keeps))]
    · rw [away same]
  · intro name' t' _
    exact ⟨Iff.rfl, fun _ => flight name'⟩
  · intro uuid name' e' within
    right
    obtain ⟨_, holds, of⟩ := within
    exact ⟨⟨by decide, (held name' e').mp holds, of⟩, rfl⟩

theorem remove (sound : w.Sound) (outside : dir ≠ .data) (holds : w.disk.Holds dir name e)
    (mine : op.uuid? = some e.uuid) (speaks : Speaks (.did op (.remove dir name)) e.uuid)
    {version : Option Envelope} (stands : standing e.uuid (.did op (.remove dir name) :: w.log) = version)
    (tidy : (w.trail e.uuid).Tidy → (((w.trail e.uuid).drop dir name).settle version).Tidy)
    (rested : op.duplicates = false ∨ op.isOperator = true → (w.trail e.uuid).Rested →
      (((w.trail e.uuid).drop dir name).settle version).Rested)
    (dead : op.buries = false → dir ≠ .dead) (claimed : dir = .inflight → w.owner name = some t) :
    Guar t op w (w.removed op dir name) := by
  subst stands
  have now : (w.removed op dir name).trail e.uuid = ((w.trail e.uuid).drop dir name).settle _ :=
    trail_removed dir name
  have away : ∀ {uuid}, uuid ≠ e.uuid → (w.removed op dir name).trail uuid = w.trail uuid :=
    fun other => trail_removed_other holds speaks other
  have kept : ∀ name' t', t' ≠ t → w.owner name' = some t' → ¬ (dir = .inflight ∧ name' = name) := by
    rintro name' t' other owned ⟨inflight, rfl⟩
    exact other (Option.some.inj (owned.symm.trans (claimed inflight)))
  have released : ∀ name' t', (w.removed op dir name).owner name' = some t' →
      w.owner name' = some t' ∧ ¬ (dir = .inflight ∧ name' = name) := by
    intro name' t' owned
    have owned : handOver w.owner dir name none name' = some t' := owned
    by_cases same : dir = .inflight ∧ name' = name
    · obtain ⟨rfl, rfl⟩ := same
      rw [handOver_self] at owned
      cases owned
    · rw [handOver_other same] at owned
      exact ⟨owned, same⟩
  constructor
  · refine ⟨sound.filed.del, fun name' t' owned => ?_⟩
    obtain ⟨owned, apart⟩ := released name' t' owned
    obtain ⟨e', holds'⟩ := sound.owned name' t' owned
    exact ⟨e', holds_del_iff.mpr ⟨fun same => apart ⟨same.1.symm, same.2⟩, holds'⟩⟩
  · intro uuid other
    apply away
    rintro rfl
    exact other mine
  · intro uuid same
    cases Option.some.inj (mine.symm.trans same)
    rw [now]
    exact tidy
  · intro uuid same kind
    cases Option.some.inj (mine.symm.trans same)
    rw [now]
    exact rested kind
  · intro _ _ uuid same
    cases Option.some.inj (mine.symm.trans same)
    rw [now]
    exact standing_removed
  · intro keeps uuid
    by_cases same : uuid = e.uuid
    · subst same
      rw [now, Trail.copies_settle, Trail.copies_drop, if_neg (Ne.symm (dead keeps))]
    · rw [away same]
  · intro name' t' other
    refine ⟨⟨fun owned => (released name' t' owned).1, fun owned => ?_⟩, fun owned => ?_⟩
    · show handOver w.owner dir name none name' = some t'
      rw [handOver_other (kept name' t' other owned)]
      exact owned
    · show (w.disk.del dir name).get .inflight name' = _
      rw [get_del, if_neg fun same => kept name' t' other owned ⟨same.1.symm, same.2⟩]
  · rintro uuid name' e' ⟨_, holds', of⟩
    right
    obtain ⟨apart, old⟩ := holds_del_iff.mp holds'
    refine ⟨⟨by decide, old, of⟩, ?_⟩
    show handOver w.owner dir name none name' = _
    exact handOver_other fun same => apart ⟨same.1.symm, same.2⟩

theorem rename {name' : Name} (sound : w.Sound) (target : dir = .ready ∨ dir = .inflight)
    (holds : w.disk.Holds .ready name e) (named : Named dir name' e) (mine : op.uuid? = some e.uuid)
    (rested : (w.trail e.uuid).Rested) : Guar t op w (w.renamed t op name dir name' (.json e)) := by
  have outside : dir ≠ .data := by rcases target with rfl | rfl <;> decide
  obtain ⟨valid, -⟩ := sound.file (by decide) holds
  have now : (w.renamed t op name dir name' (.json e)).trail e.uuid =
      ((w.trail e.uuid).drop .ready name).add dir name' e := trail_renamed outside name name'
  have away : ∀ {uuid}, uuid ≠ e.uuid → (w.renamed t op name dir name' (.json e)).trail uuid = w.trail uuid :=
    fun other => trail_renamed_other sound outside valid named holds other
  have queued : (name, e) ∈ (w.trail e.uuid).copies .ready := ⟨by decide, holds, rfl⟩
  have after : ((w.renamed t op name dir name' (.json e)).trail e.uuid).Rested := by
    rw [now]
    rcases target with rfl | rfl
    · exact rested.redue queued name'
    · exact rested.claim queued name'
  have free : ∀ e', ¬ w.disk.Holds .inflight name' e' ∨ dir ≠ .inflight := by
    intro e'
    by_cases inflight : dir = .inflight
    · left
      intro there
      subst inflight
      have member : (name', e') ∈ (w.trail e.uuid).copies .inflight :=
        ⟨by decide, there, sound.filed.same_uuid (by decide) there valid named⟩
      rw [rested.apart ⟨_, queued⟩] at member
      exact member
    · exact .inr inflight
  have kept : ∀ name₁ t', w.owner name₁ = some t' → ¬ (dir = .inflight ∧ name₁ = name') := by
    rintro name₁ t' owned ⟨inflight, rfl⟩
    obtain ⟨e', there⟩ := sound.owned name₁ t' owned
    rcases free e' with absent | other
    · exact absent there
    · exact other inflight
  have flight : ∀ name₁, ¬ (dir = .inflight ∧ name₁ = name') →
      (w.renamed t op name dir name' (.json e)).disk.get .inflight name₁ = w.disk.get .inflight name₁ := by
    intro name₁ apart
    show ((w.disk.del .ready name).put dir name' _).get .inflight name₁ = _
    rw [get_put, if_neg fun same => apart ⟨same.1.symm, same.2⟩, get_del, if_neg (by simp)]
  constructor
  · refine ⟨sound.filed.del.put valid named, fun name₁ t' owned => ?_⟩
    by_cases same : dir = .inflight ∧ name₁ = name'
    · obtain ⟨rfl, rfl⟩ := same
      exact ⟨e, holds_put_iff.mpr (.inl ⟨rfl, rfl, rfl⟩)⟩
    · have owned : handOver w.owner dir name' (some t) name₁ = some t' := owned
      rw [handOver_other same] at owned
      obtain ⟨e', there⟩ := sound.owned name₁ t' owned
      exact ⟨e', (flight name₁ same).trans there⟩
  · intro uuid other
    apply away
    rintro rfl
    exact other mine
  · intro uuid same _
    cases Option.some.inj (mine.symm.trans same)
    exact after.toTidy
  · intro uuid same _ _
    cases Option.some.inj (mine.symm.trans same)
    exact after
  · intro _ _ uuid same gone
    cases Option.some.inj (mine.symm.trans same)
    rw [now]
    exact gone
  · intro _ uuid
    by_cases same : uuid = e.uuid
    · subst same
      rw [now, Trail.copies_add]
      rcases target with rfl | rfl <;> simp [Trail.copies_drop]
    · rw [away same]
  · intro name₁ t' other
    refine ⟨⟨fun owned => ?_, fun owned => ?_⟩, fun owned => flight name₁ (kept name₁ t' owned)⟩
    · have owned : handOver w.owner dir name' (some t) name₁ = some t' := owned
      by_cases same : dir = .inflight ∧ name₁ = name'
      · obtain ⟨rfl, rfl⟩ := same
        rw [handOver_self] at owned
        exact (other (Option.some.inj owned).symm).elim
      · rwa [handOver_other same] at owned
    · show handOver w.owner dir name' (some t) name₁ = some t'
      rw [handOver_other (kept name₁ t' owned)]
      exact owned
  · rintro uuid name₁ e₁ ⟨_, holds', of⟩
    by_cases same : dir = .inflight ∧ name₁ = name'
    · obtain ⟨rfl, rfl⟩ := same
      exact .inl handOver_self
    · right
      have old : w.disk.Holds .inflight name₁ e₁ := (flight name₁ same).symm.trans holds'
      exact ⟨⟨by decide, old, of⟩, handOver_other same⟩

theorem aside (sound : w.Sound) {d : Disk} {body : Name} (only : OnlyBody w.disk d body) {events : List Event}
    (silent : ∀ event ∈ events, event.about = none) : Guar t op w ⟨d, w.owner, events ++ w.log⟩ := by
  have same : ∀ uuid, (⟨d, w.owner, events ++ w.log⟩ : Ledger).trail uuid = w.trail uuid :=
    fun uuid => trail_aside only silent
  constructor
  · refine ⟨fun dir name file outside got => ?_, fun name t' owned => ?_⟩
    · exact sound.filed dir name file outside ((only.same dir name outside).symm.trans got)
    · obtain ⟨e, holds⟩ := sound.owned name t' owned
      exact ⟨e, (only.same .inflight name (by decide)).trans holds⟩
  · intro uuid _
    exact same uuid
  · intro uuid _ tidy
    rwa [same uuid]
  · intro uuid _ _ rested
    rwa [same uuid]
  · intro _ _ uuid _ gone
    rwa [same uuid]
  · intro _ uuid
    rw [same uuid]
  · intro name t' _
    exact ⟨Iff.rfl, fun _ => only.same .inflight name (by decide)⟩
  · intro uuid name e within
    rw [same uuid] at within
    exact .inr ⟨within, rfl⟩

end Guar

end Ledger

end Mailgw.Queue
