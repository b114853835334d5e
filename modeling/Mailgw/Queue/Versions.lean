import Mathlib.Data.Set.Subsingleton
import Mailgw.Queue.Copies

namespace Mailgw.Queue

open Spool

/-- What an event says of an envelope: the version it committed, or that it is gone for good. -/
def Event.about : Event → Option (Name × Option Envelope)
  | .did _ (.publish .ready _ (.json e)) => some (e.uuid, some e)
  | .did _ (.publish .quarantine _ (.json e)) => some (e.uuid, some e)
  | .did (.bury _ e) (.publish .dead _ _) => some (e.uuid, none)
  | .did (.complete _ e) (.remove .inflight _) => some (e.uuid, none)
  | .did (.remove uuid) (.remove dir _) => if dir = .data then none else some (uuid, none)
  | _ => none

/-- The last committed version of an envelope that was not completed, buried or removed since. -/
def standing (uuid : Name) : List Event → Option Envelope
  | [] => none
  | event :: log =>
    match event.about with
    | some (uuid', version) => if uuid' = uuid then version else standing uuid log
    | none => standing uuid log

example (uuid : Name) : standing uuid [] = none := by simp [standing]

theorem standing_cons_none {event : Event} {log : List Event} {uuid : Name} (silent : event.about = none) :
    standing uuid (event :: log) = standing uuid log := by
  simp [standing, silent]

theorem standing_cons_other {event : Event} {log : List Event} {uuid uuid' : Name} {version : Option Envelope}
    (speaks : event.about = some (uuid', version)) (other : uuid ≠ uuid') :
    standing uuid (event :: log) = standing uuid log := by
  simp [standing, speaks, Ne.symm other]

theorem standing_cons_self {event : Event} {log : List Event} {uuid : Name} {version : Option Envelope}
    (speaks : event.about = some (uuid, version)) : standing uuid (event :: log) = version := by
  simp [standing, speaks]

structure Trail where
  copies : Dir → Set (Name × Envelope)
  version : Option Envelope

namespace Trail

variable {s : Trail} {dir : Dir} {name : Name} {e : Envelope}

def add (s : Trail) (dir : Dir) (name : Name) (e : Envelope) : Trail :=
  { s with copies := Function.update s.copies dir (insert (name, e) {copy ∈ s.copies dir | copy.1 ≠ name}) }

def drop (s : Trail) (dir : Dir) (name : Name) : Trail :=
  { s with copies := Function.update s.copies dir {copy ∈ s.copies dir | copy.1 ≠ name} }

def settle (s : Trail) (version : Option Envelope) : Trail := { s with version }

/-- The copy that counts: the one in the queue, failing that the one in flight, failing that the
    one in quarantine. -/
def Leads (s : Trail) (e : Envelope) : Prop :=
  (∃ name, (name, e) ∈ s.copies .ready) ∨ s.copies .ready = ∅ ∧
    ((∃ name, (name, e) ∈ s.copies .inflight) ∨ s.copies .inflight = ∅ ∧ ∃ name, (name, e) ∈ s.copies .quarantine)

/-- What holds between any two steps: the copy that counts is the version that stands. -/
structure Tidy (s : Trail) : Prop where
  ready : (s.copies .ready).Subsingleton
  inflight : (s.copies .inflight).Subsingleton
  leads : ∀ e, s.version = some e → s.Leads e

/-- What holds unless a reschedule is under way: no copy in flight next to one in the queue. -/
structure Rested (s : Trail) : Prop extends Tidy s where
  apart : (s.copies .ready).Nonempty → s.copies .inflight = ∅

theorem copies_add (s : Trail) (dir dir' : Dir) (name : Name) (e : Envelope) : (s.add dir name e).copies dir' =
    if dir' = dir then insert (name, e) {copy ∈ s.copies dir | copy.1 ≠ name} else s.copies dir' := by
  simp [add, Function.update_apply]

theorem copies_drop (s : Trail) (dir dir' : Dir) (name : Name) : (s.drop dir name).copies dir' =
    if dir' = dir then {copy ∈ s.copies dir | copy.1 ≠ name} else s.copies dir' := by
  simp [drop, Function.update_apply]

@[simp] theorem copies_settle (s : Trail) (version : Option Envelope) : (s.settle version).copies = s.copies := rfl
@[simp] theorem version_settle (s : Trail) (version : Option Envelope) : (s.settle version).version = version := rfl
@[simp] theorem version_add (s : Trail) : (s.add dir name e).version = s.version := rfl
@[simp] theorem version_drop (s : Trail) : (s.drop dir name).version = s.version := rfl

theorem drop_only {copies : Set (Name × Envelope)} (one : copies.Subsingleton) (within : (name, e) ∈ copies) :
    {copy ∈ copies | copy.1 ≠ name} = ∅ := by
  apply Set.eq_empty_of_forall_notMem
  rintro copy ⟨member, other⟩
  exact other (congrArg Prod.fst (one member within))

theorem drop_subsingleton {copies : Set (Name × Envelope)} (one : copies.Subsingleton) :
    {copy ∈ copies | copy.1 ≠ name}.Subsingleton := one.anti (Set.sep_subset _ _)

section Moves

theorem Rested.claim (rested : s.Rested) (within : (name, e) ∈ s.copies .ready) (name' : Name) :
    ((s.drop .ready name).add .inflight name' e).Rested := by
  have gone := drop_only rested.ready within
  have free := rested.apart ⟨_, within⟩
  refine ⟨⟨?_, ?_, ?_⟩, ?_⟩
  · simp [copies_add, copies_drop, gone]
  · simp [copies_add, copies_drop, free]
  · intro e' stands
    rcases rested.leads e' stands with ⟨name₁, queued⟩ | ⟨none, -⟩
    · cases rested.ready queued within
      right
      simp [copies_add, copies_drop, gone]
    · simp [none] at within
  · simp [copies_add, copies_drop, gone]

theorem Rested.redue (rested : s.Rested) (within : (name, e) ∈ s.copies .ready) (name' : Name) :
    ((s.drop .ready name).add .ready name' e).Rested := by
  have gone := drop_only rested.ready within
  have free := rested.apart ⟨_, within⟩
  refine ⟨⟨?_, ?_, ?_⟩, ?_⟩
  · simp [copies_add, copies_drop, gone]
  · simp [copies_add, copies_drop, free]
  · intro e' stands
    rcases rested.leads e' stands with ⟨name₁, queued⟩ | ⟨none, -⟩
    · cases rested.ready queued within
      left
      exact ⟨name', by simp [copies_add]⟩
    · simp [none] at within
  · simp [copies_add, copies_drop, free]

theorem Rested.leave (rested : s.Rested) (dir : Dir) (name : Name) : ((s.drop dir name).settle none).Rested := by
  refine ⟨⟨?_, ?_, ?_⟩, ?_⟩
  · rw [copies_settle, copies_drop]
    split
    · rename_i same
      exact drop_subsingleton (same ▸ rested.ready)
    · exact rested.ready
  · rw [copies_settle, copies_drop]
    split
    · rename_i same
      exact drop_subsingleton (same ▸ rested.inflight)
    · exact rested.inflight
  · intro e' stands
    cases stands
  · rw [copies_settle, copies_drop, copies_drop]
    rintro ⟨copy, queued⟩
    have before : (s.copies .ready).Nonempty := by
      refine ⟨copy, ?_⟩
      split at queued
      · rename_i same
        exact same ▸ queued.1
      · exact queued
    have free := rested.apart before
    split
    · rename_i same
      rw [← same, free]
      simp
    · exact free

theorem Tidy.commit_ready (tidy : s.Tidy) (free : s.copies .ready = ∅) (name : Name) (e : Envelope) :
    ((s.add .ready name e).settle (some e)).Tidy := by
  refine ⟨?_, ?_, ?_⟩
  · simp [copies_add, free]
  · simpa [copies_add] using tidy.inflight
  · intro e' stands
    cases stands
    left
    exact ⟨name, by simp [copies_add]⟩

theorem Rested.commit_ready (rested : s.Rested) (free : s.copies .ready = ∅) (still : s.copies .inflight = ∅)
    (name : Name) (e : Envelope) : ((s.add .ready name e).settle (some e)).Rested :=
  ⟨rested.toTidy.commit_ready free name e, fun _ => by simpa [copies_add] using still⟩

theorem Rested.commit_quarantine (rested : s.Rested) (name : Name)
    (newest : (∃ name, (name, e) ∈ s.copies .ready) ∨ s.copies .ready = ∅ ∧ s.copies .inflight = ∅) :
    ((s.add .quarantine name e).settle (some e)).Rested := by
  refine ⟨⟨?_, ?_, ?_⟩, ?_⟩
  · simpa [copies_add] using rested.ready
  · simpa [copies_add] using rested.inflight
  · intro e' stands
    cases stands
    rcases newest with ⟨name', queued⟩ | ⟨free, still⟩
    · left
      exact ⟨name', by simpa [copies_add] using queued⟩
    · right
      simp [copies_add, free, still]
  · simpa [copies_add] using rested.apart

theorem Tidy.drop_inflight (tidy : s.Tidy) (newer : (s.copies .ready).Nonempty) {name : Name}
    (within : (name, e) ∈ s.copies .inflight) : (s.drop .inflight name).Rested := by
  have gone := drop_only tidy.inflight within
  refine ⟨⟨?_, ?_, ?_⟩, ?_⟩
  · simpa [copies_drop] using tidy.ready
  · simp [copies_drop, gone]
  · intro e' stands
    rcases tidy.leads e' stands with ⟨name', queued⟩ | ⟨none, -⟩
    · left
      exact ⟨name', by simpa [copies_drop] using queued⟩
    · simp [none] at newer
  · simp [copies_drop, gone]

theorem Rested.drop_ready (rested : s.Rested) (within : (name, e) ∈ s.copies .ready)
    (held : ∃ name, (name, e) ∈ s.copies .quarantine) : (s.drop .ready name).Rested := by
  have gone := drop_only rested.ready within
  have free := rested.apart ⟨_, within⟩
  refine ⟨⟨?_, ?_, ?_⟩, ?_⟩
  · simp [copies_drop, gone]
  · simp [copies_drop, free]
  · intro e' stands
    rcases rested.leads e' stands with ⟨name', queued⟩ | ⟨none, -⟩
    · cases rested.ready queued within
      right
      simpa [copies_drop, gone, free] using held
    · simp [none] at within
  · simp [copies_drop, gone]

theorem Rested.drop_quarantine (rested : s.Rested) (queued : (s.copies .ready).Nonempty) (name : Name) :
    (s.drop .quarantine name).Rested := by
  refine ⟨⟨?_, ?_, ?_⟩, ?_⟩
  · simpa [copies_drop] using rested.ready
  · simpa [copies_drop] using rested.inflight
  · intro e' stands
    rcases rested.leads e' stands with ⟨name', within⟩ | ⟨none, -⟩
    · left
      exact ⟨name', by simpa [copies_drop] using within⟩
    · simp [none] at queued
  · simpa [copies_drop] using rested.apart

end Moves
end Trail

structure Ledger where
  disk : Disk
  owner : Name → Option Nat
  log : List Event

namespace Disk

def copies (d : Disk) (uuid : Name) (dir : Dir) : Set (Name × Envelope) :=
  {copy | dir ≠ .data ∧ d.Holds dir copy.1 copy.2 ∧ copy.2.uuid = uuid}

variable {d d' : Disk} {dir : Dir} {name uuid : Name} {e : Envelope}

@[simp] theorem mem_copies : (name, e) ∈ d.copies uuid dir ↔ dir ≠ .data ∧ d.Holds dir name e ∧ e.uuid = uuid := Iff.rfl

theorem copies_congr (same : d.Untouched d' uuid) : d'.copies uuid = d.copies uuid := by
  funext dir
  ext ⟨name, e⟩
  simp only [mem_copies]
  constructor
  · rintro ⟨outside, holds, of⟩
    exact ⟨outside, (same dir name e outside of).mp holds, of⟩
  · rintro ⟨outside, holds, of⟩
    exact ⟨outside, (same dir name e outside of).mpr holds, of⟩

theorem copies_put (outside : dir ≠ .data) (d : Disk) (name : Name) (e : Envelope) :
    Disk.copies (d.put dir name (.json e)) e.uuid =
      Function.update (d.copies e.uuid) dir (insert (name, e) {copy ∈ d.copies e.uuid dir | copy.1 ≠ name}) := by
  funext dir'
  ext ⟨name', e'⟩
  rw [Function.update_apply]
  split
  · rename_i same
    subst same
    simp only [mem_copies, holds_put_iff, Set.mem_insert_iff, Prod.mk.injEq, Set.mem_sep_iff, true_and]
    constructor
    · rintro ⟨-, ⟨rfl, same⟩ | ⟨other, old⟩, of⟩
      · cases same
        exact .inl ⟨rfl, rfl⟩
      · exact .inr ⟨⟨outside, old, of⟩, other⟩
    · rintro (⟨rfl, rfl⟩ | ⟨⟨-, old, of⟩, other⟩)
      · exact ⟨outside, .inl ⟨rfl, rfl⟩, rfl⟩
      · exact ⟨outside, .inr ⟨other, old⟩, of⟩
  · rename_i other
    simp [mem_copies, holds_put_iff, other]

theorem copies_del (d : Disk) (uuid : Name) (dir : Dir) (name : Name) :
    Disk.copies (d.del dir name) uuid = Function.update (d.copies uuid) dir {copy ∈ d.copies uuid dir | copy.1 ≠ name} := by
  funext dir'
  ext ⟨name', e'⟩
  rw [Function.update_apply]
  split
  · rename_i same
    subst same
    simp [mem_copies, holds_del_iff, and_comm, and_left_comm]
  · rename_i other
    simp [mem_copies, holds_del_iff, other]

end Disk

namespace Ledger

variable {w w' : Ledger} {dir : Dir} {name uuid : Name} {e : Envelope}

def trail (w : Ledger) (uuid : Name) : Trail := ⟨w.disk.copies uuid, standing uuid w.log⟩

theorem trail_congr (same : w.disk.Untouched w'.disk uuid) (stands : standing uuid w'.log = standing uuid w.log) :
    w'.trail uuid = w.trail uuid := by
  simp [trail, Disk.copies_congr same, stands]

end Ledger

end Mailgw.Queue
