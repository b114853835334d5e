import Mailgw.Queue.System

namespace Mailgw.Queue

open Calls Spool

def Named (dir : Dir) (name : Name) (e : Envelope) : Prop :=
  match dir with
  | .data => False
  | .ready => ∃ due, name = readyName due e.uuid
  | .inflight => ∃ pid due, name = claimName pid (readyName due e.uuid)
  | .dead | .quarantine => name = plainName e.uuid

theorem Named.uuid {dir : Dir} {name : Name} {e : Envelope} (named : Named dir name e) (valid : e.Valid) :
    envelopeUUID dir name = some e.uuid := by
  have nonempty := valid.uuid_nonempty
  cases dir with
  | data => exact named.elim
  | ready =>
    obtain ⟨due, rfl⟩ := named
    exact uuidFromReadyName_readyName due nonempty
  | inflight =>
    obtain ⟨pid, due, rfl⟩ := named
    simp only [envelopeUUID, stripClaimPrefix_claimName]
    exact uuidFromReadyName_readyName due nonempty
  | dead => exact named ▸ uuidFromPlainName_plainName nonempty
  | quarantine => exact named ▸ uuidFromPlainName_plainName nonempty

theorem Named.congr {dir : Dir} {name : Name} {e e' : Envelope} (named : Named dir name e)
    (same : e'.uuid = e.uuid) : Named dir name e' := by
  cases dir with
  | data => exact named.elim
  | _ =>
    simp only [Named, same] at named ⊢
    exact named

namespace Disk

def Holds (d : Disk) (dir : Dir) (name : Name) (e : Envelope) : Prop := d.get dir name = some (.json e)

def Present (d : Disk) (uuid : Name) : Prop := ∃ dir name e, dir ≠ .data ∧ d.Holds dir name e ∧ e.uuid = uuid

def Untouched (d d' : Disk) (uuid : Name) : Prop :=
  ∀ dir name e, dir ≠ .data → e.uuid = uuid → (d'.Holds dir name e ↔ d.Holds dir name e)

/-- At most one copy in the directories that keep a body alive. -/
def Sole (d : Disk) (uuid : Name) : Prop :=
  ∀ dir name e dir' name' e', dir ∈ bodyDirs → dir' ∈ bodyDirs → d.Holds dir name e → d.Holds dir' name' e' →
    e.uuid = uuid → e'.uuid = uuid → dir = dir' ∧ name = name'

/-- What a crash may leave behind: one copy at rest, and one in flight. -/
def Paired (d : Disk) (uuid : Name) : Prop :=
  ∀ dir name e dir' name' e', dir ∈ bodyDirs → dir' ∈ bodyDirs → d.Holds dir name e → d.Holds dir' name' e' →
    e.uuid = uuid → e'.uuid = uuid → (dir = .inflight ↔ dir' = .inflight) → dir = dir' ∧ name = name'

/-- None of the first `k` directories the body collector lists holds an envelope of the kind. -/
def Clear (d : Disk) (kind : Name → Name → Prop) (k : Nat) : Prop :=
  ∀ dir ∈ bodyDirs.take k, ∀ name e, d.Holds dir name e → ¬ kind e.uuid e.body

theorem Sole.paired {d : Disk} {uuid : Name} (sole : d.Sole uuid) : d.Paired uuid :=
  fun _ _ _ _ _ _ live live' holds holds' of of' _ => sole _ _ _ _ _ _ live live' holds holds' of of'

theorem Untouched.refl (d : Disk) (uuid : Name) : d.Untouched d uuid := fun _ _ _ _ _ => Iff.rfl

theorem live_ne_data {dir : Dir} (live : dir ∈ bodyDirs) : dir ≠ .data := by
  rintro rfl
  exact absurd live (by decide)

theorem holds_unique {d : Disk} {dir : Dir} {name : Name} {e e' : Envelope} (left : d.Holds dir name e)
    (right : d.Holds dir name e') : e = e' := by
  have same := left.symm.trans right
  simpa using same

theorem Sole.of_untouched {d d' : Disk} {uuid : Name} (sole : d.Sole uuid) (same : d.Untouched d' uuid) :
    d'.Sole uuid :=
  fun _ _ _ _ _ _ live live' holds holds' of of' =>
    sole _ _ _ _ _ _ live live' ((same _ _ _ (live_ne_data live) of).mp holds)
      ((same _ _ _ (live_ne_data live') of').mp holds') of of'

theorem Paired.of_untouched {d d' : Disk} {uuid : Name} (paired : d.Paired uuid) (same : d.Untouched d' uuid) :
    d'.Paired uuid :=
  fun _ _ _ _ _ _ live live' holds holds' of of' =>
    paired _ _ _ _ _ _ live live' ((same _ _ _ (live_ne_data live) of).mp holds)
      ((same _ _ _ (live_ne_data live') of').mp holds') of of'

theorem Untouched.present {d d' : Disk} {uuid : Name} (same : d.Untouched d' uuid) :
    d'.Present uuid ↔ d.Present uuid := by
  constructor
  · rintro ⟨dir, name, e, outside, holds, of⟩
    exact ⟨dir, name, e, outside, (same _ _ _ outside of).mp holds, of⟩
  · rintro ⟨dir, name, e, outside, holds, of⟩
    exact ⟨dir, name, e, outside, (same _ _ _ outside of).mpr holds, of⟩

def Filed (d : Disk) : Prop :=
  ∀ dir name file, dir ≠ .data → d.get dir name = some file → ∃ e, file = .json e ∧ e.Valid ∧ Named dir name e

theorem Filed.file {d : Disk} {dir : Dir} {name : Name} {e : Envelope} (filed : d.Filed) (outside : dir ≠ .data)
    (holds : d.Holds dir name e) : e.Valid ∧ Named dir name e := by
  obtain ⟨e', same, rest⟩ := filed dir name _ outside holds
  cases same
  exact rest

theorem Filed.same_uuid {d : Disk} {dir : Dir} {name : Name} {e e' : Envelope} (filed : d.Filed) (outside : dir ≠ .data)
    (holds : d.Holds dir name e') (valid : e.Valid) (named : Named dir name e) : e'.uuid = e.uuid := by
  obtain ⟨valid', named'⟩ := filed.file outside holds
  have same := (named'.uuid valid').symm.trans (named.uuid valid)
  simpa using same

section Put
variable {d : Disk} {dir dir' : Dir} {name name' : Name} {e e' : Envelope}

theorem holds_put_iff {file : File} : Disk.Holds (d.put dir name file) dir' name' e' ↔
    (dir' = dir ∧ name' = name ∧ file = .json e') ∨ (¬ (dir' = dir ∧ name' = name) ∧ d.Holds dir' name' e') := by
  unfold Holds
  rw [get_put]
  split
  · rename_i same
    simp [same]
  · rename_i other
    simp only [other, not_false_eq_true, true_and, iff_or_self]
    rintro ⟨hd, hn, -⟩
    exact (other ⟨hd, hn⟩).elim

theorem holds_del_iff : Disk.Holds (d.del dir name) dir' name' e' ↔
    ¬ (dir' = dir ∧ name' = name) ∧ d.Holds dir' name' e' := by
  unfold Holds
  rw [get_del]
  split
  · rename_i same
    simp [same]
  · rename_i other
    simp [other]

theorem Filed.put (filed : d.Filed) (valid : e.Valid) (named : Named dir name e) :
    Disk.Filed (d.put dir name (.json e)) := by
  intro dir' name' file outside got
  rw [get_put] at got
  split at got
  · rename_i same
    cases got
    exact ⟨e, rfl, valid, by rw [same.1, same.2]; exact named⟩
  · exact filed dir' name' file outside got

theorem Filed.del (filed : d.Filed) : Disk.Filed (d.del dir name) := by
  intro dir' name' file outside got
  rw [get_del] at got
  split at got
  · cases got
  · exact filed dir' name' file outside got

theorem untouched_put (filed : d.Filed) (outside : dir ≠ .data) (valid : e.Valid) (named : Named dir name e)
    {uuid : Name} (other : uuid ≠ e.uuid) : d.Untouched (d.put dir name (.json e)) uuid := by
  intro dir' name' e' outside' of
  rw [holds_put_iff]
  constructor
  · rintro (⟨-, -, same⟩ | ⟨-, old⟩)
    · cases same
      exact (other of.symm).elim
    · exact old
  · intro old
    refine .inr ⟨?_, old⟩
    rintro ⟨rfl, rfl⟩
    exact other (of.symm.trans (filed.same_uuid outside old valid named))

theorem untouched_del (holds : d.Holds dir name e) {uuid : Name} (other : uuid ≠ e.uuid) :
    d.Untouched (d.del dir name) uuid := by
  intro dir' name' e' outside' of
  rw [holds_del_iff]
  constructor
  · exact And.right
  · intro old
    refine ⟨?_, old⟩
    rintro ⟨rfl, rfl⟩
    exact other (of.symm.trans (congrArg Envelope.uuid (holds_unique old holds)))

theorem get_put_data {file : File} {body : Name} (outside : dir ≠ .data) :
    (d.put dir name file).get .data body = d.get .data body := by
  rw [get_put, if_neg]
  rintro ⟨rfl, -⟩
  exact outside rfl

theorem get_del_data {body : Name} (outside : dir ≠ .data) :
    (d.del dir name).get .data body = d.get .data body := by
  rw [get_del, if_neg]
  rintro ⟨rfl, -⟩
  exact outside rfl

end Put

end Disk

/-- What the operations share: the disk, who claimed which inflight file, and the uuids handed out
    with the body each of them references. -/
structure World where
  disk : Disk
  owner : Name → Option Nat
  issued : List (Name × Name)

structure Consistent (w : World) : Prop where
  named : ∀ dir name file, dir ≠ .data → w.disk.get dir name = some file →
    ∃ e, file = .json e ∧ e.Valid ∧ Named dir name e ∧ (e.uuid, e.body) ∈ w.issued
  oneBody : ∀ uuid body body', (uuid, body) ∈ w.issued → (uuid, body') ∈ w.issued → body = body'
  bodies : ∀ dir name e, dir ∈ bodyDirs → w.disk.Holds dir name e → ∃ file, w.disk.get .data e.body = some file
  owned : ∀ name t, w.owner name = some t → ∃ e, w.disk.Holds .inflight name e

namespace Op

def uuid? : Op → Option Name
  | claim name => uuidFromReadyName name
  | complete _ e | reschedule _ e _ | bury _ e | enqueue e | quarantine e => some e.uuid
  | flush uuid | hold uuid | release uuid | remove uuid => some uuid
  | data _ _ _ | recover => none

def creates : Op → List Name
  | data _ _ parts => parts.map fun part => part.2.uuid
  | _ => []

def duplicates : Op → Bool
  | reschedule _ _ _ | hold _ | release _ => true
  | _ => false

def parks : Op → Bool
  | hold _ | release _ => true
  | _ => false

def collects (op : Op) (body : Name) : Prop :=
  match op with
  | complete _ e | bury _ e => e.body = body
  | remove uuid => bodyOwnedBy body uuid = true
  | _ => False

/-- The operation may put an envelope that references this body where the search has been. -/
def refills (op : Op) (body : Name) : Prop :=
  match op with
  | data txnUUID _ _ => bodyName txnUUID = body
  | reschedule _ e _ => e.body = body
  | release uuid => bodyOwnedBy body uuid = true
  | _ => False

def refillsWith (op : Op) (uuid body : Name) : Prop :=
  match op with
  | data txnUUID _ _ => body = bodyName txnUUID
  | reschedule _ e _ => uuid = e.uuid
  | release target => uuid = target
  | _ => False

def spoolsBody (op : Op) (body : Name) : Prop :=
  match op with
  | data txnUUID _ _ => bodyName txnUUID = body
  | _ => False

def gathers : Op → Bool
  | complete _ _ | bury _ _ | remove _ => true
  | _ => false

end Op

structure Guar (t : Nat) (op : Op) (w w' : World) : Prop where
  consistent : Consistent w'
  issued : w'.issued = w.issued
  others : ∀ uuid, op.uuid? ≠ some uuid → w.disk.Present uuid → w.disk.Untouched w'.disk uuid
  absent : ∀ uuid, uuid ∉ op.creates → ¬ w.disk.Present uuid → ¬ w'.disk.Present uuid
  sole : ∀ uuid, ¬ (op.duplicates ∧ op.uuid? = some uuid) → w.disk.Sole uuid → w'.disk.Sole uuid
  paired : ∀ uuid, ¬ (op.parks ∧ op.uuid? = some uuid) → w.disk.Paired uuid → w'.disk.Paired uuid
  forward : ∀ kind, (∀ uuid body, (uuid, body) ∈ w.issued → bodyOwnedBy body uuid → kind uuid body →
    ¬ op.refillsWith uuid body) → ∀ k, w.disk.Clear kind k → w'.disk.Clear kind k
  bodies : ∀ body, ¬ op.collects body → (w.disk.get .data body).isSome → (w'.disk.get .data body).isSome
  needed : ∀ dir name e, dir ∈ bodyDirs → w.disk.Holds dir name e → (w'.disk.get .data e.body).isSome
  owned : ∀ name t', t' ≠ t → w.owner name = some t' →
    w'.owner name = some t' ∧ w'.disk.get .inflight name = w.disk.get .inflight name

structure Rely (t : Nat) (op : Op) (w w' : World) : Prop where
  consistent : Consistent w'
  issued : ∀ entry ∈ w.issued, entry ∈ w'.issued
  frozen : op.duplicates → ∀ uuid, op.uuid? = some uuid → w.disk.Present uuid → w.disk.Untouched w'.disk uuid
  absent : ∀ uuid ∈ op.creates, ¬ w.disk.Present uuid → ¬ w'.disk.Present uuid
  sole : ∀ uuid, op.uuid? = some uuid → w.disk.Sole uuid → w'.disk.Sole uuid
  clearBody : ∀ body, op.collects body → ∀ k,
    w.disk.Clear (fun _ b => b = body) k → w'.disk.Clear (fun _ b => b = body) k
  clearUuid : op.gathers → ∀ uuid, op.uuid? = some uuid → ∀ k,
    w.disk.Clear (fun u _ => u = uuid) k → w'.disk.Clear (fun u _ => u = uuid) k
  bodies : ∀ body, op.spoolsBody body → (w.disk.get .data body).isSome → (w'.disk.get .data body).isSome
  owned : ∀ name, w.owner name = some t →
    w'.owner name = some t ∧ w'.disk.get .inflight name = w.disk.get .inflight name

def worldStep (t : Nat) (c : FsCall) (w : World) (answer : c.Answer) (w' : World) : Prop :=
  ∃ choice, choice.fails = false ∧ exec choice w.disk c = (answer, w'.disk) ∧
    w'.owner = Cfg.ownAfter t w.owner c answer ∧ w'.issued = w.issued

def contract (t : Nat) (op : Op) : Contract FsCall FsCall.Answer World := ⟨worldStep t, Rely t op, Guar t op⟩

/-- Two operations that may overlap: one that duplicates its envelope has it for itself, and no
    body is searched for while the other may still put a reference to it out of sight. -/
structure Undisturbed (op other : Op) : Prop where
  apart : op.duplicates → ∀ uuid, op.uuid? = some uuid → other.uuid? ≠ some uuid
  settled : ∀ body, op.collects body → ¬ other.refills body

def Op.Grounded (op : Op) (issued : List (Name × Name)) : Prop :=
  match op with
  | .complete _ e | .reschedule _ e _ | .bury _ e => (e.uuid, e.body) ∈ issued
  | .data txnUUID _ parts => ∀ part ∈ parts, part.2.body = bodyName txnUUID ∧ (part.2.uuid, part.2.body) ∈ issued
  | _ => True

end Mailgw.Queue
