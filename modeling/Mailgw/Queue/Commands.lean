import Mailgw.Queue.Operations

namespace Mailgw.Queue

open Calls Spool Disk

variable {t : Nat} {op : Op} {w w' : World} {dir : Dir} {uuid : Name}

/-- What an entry of the listing still says once it is used: its name belongs to its envelope, and
    an operation that has the envelope for itself finds the file as it was read. -/
structure Seen (op : Op) (uuid : Name) (entry : Entry) (w : World) : Prop where
  queued : entry.queue ≠ .data
  parsed : ∀ found, envelopeUUID entry.queue entry.name = some found → entry.uuid = found
  valid : ∀ e, entry.env = .ok e → e.Valid
  current : op.duplicates → ∀ e, entry.env = .ok e → e.uuid = uuid → w.disk.Holds entry.queue entry.name e

theorem Seen.rely {entry : Entry} (seen : Seen op uuid entry w) (mine : op.uuid? = some uuid)
    (rely : Rely t op w w') : Seen op uuid entry w' where
  queued := seen.queued
  parsed := seen.parsed
  valid := seen.valid
  current duplicates e read of := by
    have holds := seen.current duplicates e read of
    have same := rely.frozen duplicates uuid mine ⟨_, _, _, seen.queued, holds, of⟩
    exact (same _ _ _ seen.queued of).mpr holds

theorem sat_entriesIn (outside : dir ≠ .data) (mine : op.uuid? = some uuid) (names : List Name)
    (consistent : Consistent w) :
    Sat (contract t op) (fun r w' => Rely t op w w' ∧ ∃ entries, r = .ok entries ∧
      entries.map Entry.name = names ∧ ∀ entry ∈ entries, entry.queue = dir ∧ Seen op uuid entry w')
      (entriesIn dir names).run w := by
  induction names generalizing w with
  | nil => exact ⟨Rely.refl consistent, [], rfl, rfl, fun _ member => by cases member⟩
  | cons name rest ih =>
    have tail : ∀ {w₁ : World} {env : Except Failure Envelope}, Rely t op w w₁ →
        Seen op uuid ⟨dir, name, env, Entry.dueOf dir name⟩ w₁ →
        Sat (contract t op) (fun r w' => Rely t op w w' ∧ ∃ entries, r = .ok entries ∧
          entries.map Entry.name = name :: rest ∧ ∀ entry ∈ entries, entry.queue = dir ∧ Seen op uuid entry w')
          ((do
            let entries ← entriesIn dir rest
            return ⟨dir, name, env, Entry.dueOf dir name⟩ :: entries : Spool (List Entry))).run w₁ := by
      intro w₁ env rely seen
      refine Sat.except_bind ((ih rely.consistent).mono ?_)
      rintro r w' ⟨rely', entries, rfl, names, each⟩
      refine ⟨rely.trans rely', _, rfl, by simp [names], fun entry member => ?_⟩
      rcases List.mem_cons.mp member with rfl | later
      · exact ⟨rfl, seen.rely mine rely'⟩
      · exact each entry later
    refine Sat.except_bind (sat_result (sat_readEnvelope consistent outside ?_ ?_))
    · intro w₁ rely _
      refine tail rely ⟨outside, fun found parsed => ?_, fun e read => ?_, fun _ e read => ?_⟩
      · simp only [Entry.uuid] at parsed ⊢
        rw [parsed]
        rfl
      · cases read
      · cases read
    · intro w₁ rely e holds valid
      obtain ⟨-, named, -⟩ := rely.consistent.file outside holds
      refine tail rely ⟨outside, fun found parsed => ?_, fun e' read => ?_, fun _ e' read _ => ?_⟩
      · exact Option.some.inj ((named.uuid valid).symm.trans parsed)
      · cases read
        exact valid
      · cases read
        exact holds

/-- The listing misses a live copy only when there is none left: a copy moves on to directories
    that are listed later. -/
theorem sat_entriesOf (mine : op.uuid? = some uuid) (dirs : List Dir) (k : Nat) (suffixed : bodyDirs.drop k = dirs)
    (hit : Prop) (consistent : Consistent w)
    (clear : op.gathers → hit ∨ w.disk.Clear (fun u _ => u = uuid) k) :
    Sat (contract t op) (fun r w' => Rely t op w w' ∧ ∃ entries, r = .ok entries ∧
      (∀ entry ∈ entries, Seen op uuid entry w') ∧
      (op.gathers → hit ∨ (∃ entry ∈ entries, entry.queue ∈ bodyDirs ∧ entry.uuid = uuid) ∨
        w'.disk.Clear (fun u _ => u = uuid) 3)) (entriesOf (dirs ++ [.dead])).run w := by
  induction dirs generalizing w k hit with
  | nil =>
    refine Sat.except_bind (sat_readDir consistent fun w₁ rely => Sat.except_bind ?_)
    refine (sat_entriesIn (by decide) mine _ rely.consistent).mono ?_
    rintro r w₂ ⟨rely₂, entries, rfl, -, each⟩
    have both := rely.trans rely₂
    refine ⟨both, _, rfl, fun entry member => (each entry (by simpa using member)).2, fun gathers => ?_⟩
    refine (clear gathers).imp_right fun clear => .inr (both.clearUuid gathers uuid mine 3 ?_)
    have long : bodyDirs.length ≤ k := List.drop_eq_nil_iff.mp suffixed
    intro dir within
    refine clear dir ?_
    rw [List.take_of_length_le long]
    exact List.mem_of_mem_take within
  | cons dir dirs ih =>
    have live : dir ∈ bodyDirs := List.mem_of_mem_drop (suffixed ▸ List.mem_cons_self)
    refine Sat.except_bind (sat_readDir consistent fun w₁ rely => Sat.except_bind ?_)
    refine (sat_entriesIn (live_ne_data live) mine _ rely.consistent).mono ?_
    rintro r w₂ ⟨rely₂, here, rfl, names, each⟩
    have both := rely.trans rely₂
    have suffixed' : bodyDirs.drop (k + 1) = dirs := by
      rw [← List.drop_drop, suffixed]
      rfl
    -- Either this directory had a copy when it was listed, or it is clear from then on.
    have next : op.gathers → (hit ∨ ∃ entry ∈ here, entry.queue ∈ bodyDirs ∧ entry.uuid = uuid) ∨
        w₂.disk.Clear (fun u _ => u = uuid) (k + 1) := by
      intro gathers
      rcases clear gathers with before | clear
      · exact .inl (.inl before)
      by_cases copy : ∃ name e, w₁.disk.Holds dir name e ∧ e.uuid = uuid
      · obtain ⟨name, e, holds, of⟩ := copy
        obtain ⟨valid, named, -⟩ := rely.consistent.file (live_ne_data live) holds
        have listed : name ∈ here.map Entry.name := names ▸ mem_list.mpr ⟨_, holds⟩
        obtain ⟨entry, member, rfl⟩ := List.mem_map.mp listed
        obtain ⟨rfl, seen⟩ := each entry member
        exact .inl (.inr ⟨entry, member, live, (seen.parsed _ (named.uuid valid)).trans of⟩)
      · have clear₁ := rely.clearUuid gathers uuid mine k clear
        have step := clear₁.next suffixed fun name e holds of => copy ⟨name, e, holds, of⟩
        exact .inr (rely₂.clearUuid gathers uuid mine (k + 1) step.1)
    refine Sat.except_bind ((ih (k + 1) suffixed' _ both.consistent next).mono ?_)
    rintro r w' ⟨rely', rest, rfl, seenRest, settled⟩
    refine ⟨both.trans rely', _, rfl, fun entry member => ?_, fun gathers => ?_⟩
    · rcases List.mem_append.mp member with first | later
      · exact (each entry first).2.rely mine rely'
      · exact seenRest entry later
    · rcases settled gathers with (before | ⟨entry, member, found⟩) | ⟨entry, member, found⟩ | clear'
      · exact .inl before
      · exact .inr (.inl ⟨entry, List.mem_append_left _ member, found⟩)
      · exact .inr (.inl ⟨entry, List.mem_append_right _ member, found⟩)
      · exact .inr (.inr clear')

theorem rank_live_lt {dir' : Dir} (resting : dir ∉ bodyDirs) (queued : dir ≠ .data) (live : dir' ∈ bodyDirs) :
    Entry.rank dir' < Entry.rank dir := by
  cases dir <;> cases dir' <;> simp_all [bodyDirs, Entry.rank]

theorem sat_find {final : Except Failure Entry → World → Prop} (mine : op.uuid? = some uuid)
    (consistent : Consistent w) (missing : ∀ w₁, Rely t op w w₁ → final (.error .notQueued) w₁)
    (found : ∀ w₁, Rely t op w w₁ → ∀ entry, entry.uuid = uuid → Seen op uuid entry w₁ →
      (op.gathers → entry.queue ∉ bodyDirs → w₁.disk.Clear (fun u _ => u = uuid) 3) → final (.ok entry) w₁) :
    Sat (contract t op) final (find uuid).run w := by
  have start : w.disk.Clear (fun u _ => u = uuid) 0 := fun dir within => absurd within (by simp)
  unfold find listAll
  refine Sat.except_bind (Sat.except_bind ((sat_entriesOf mine bodyDirs 0 rfl False consistent
    fun _ => .inr start).mono ?_))
  rintro r w₁ ⟨rely, entries, rfl, each, settled⟩
  apply Sat.except_pure
  dsimp only
  split
  · rename_i entry first
    obtain ⟨member, of, ranked⟩ := find?_first first
    refine found w₁ rely entry of (each entry member) fun gathers resting => ?_
    rcases (settled gathers).resolve_left id with ⟨other, within, live, same⟩ | clear
    · have order := ranked other within same
      have before := rank_live_lt resting (each entry member).queued live
      omega
    · exact clear
  · exact missing w₁ rely

theorem sat_orInFlight {p : Spool Unit} {post : Except Failure Unit → World → Prop}
    (sat : Sat (contract t op) (fun r w' => match r with
      | .ok () => post (.ok ()) w'
      | .error .notExist => post (.error .inFlight) w'
      | .error err => post (.error err) w') p.run w) : Sat (contract t op) post (orInFlight p).run w := by
  refine Sat.except_bind (sat_result (sat.mono ?_))
  intro r w' holds
  match r with
  | .ok () => exact holds
  | .error .notExist => exact holds
  | .error .io | .error .torn | .error (.invalid _) | .error .inFlight | .error .notQueued
  | .error (.misplaced _) => exact holds

theorem sat_removeIfExists_present {dir' : Dir} {name name' : Name} {e₀ : Envelope}
    {post : Except Failure Unit → World → Prop} (consistent : Consistent w) (duplicates : op.duplicates = true)
    (mine : op.uuid? = some uuid) (live : dir ∈ bodyDirs) (holds : w.disk.Holds dir name e₀) (of : e₀.uuid = uuid)
    (claimed : dir = .inflight → w.owner name = some t) (pair : w.disk.Pair uuid dir name dir' name')
    (ends : ∀ w', w'.disk.Sole uuid → post (.ok ()) w') :
    Sat (contract t op) post (removeIfExists dir name).run w :=
  Sat.except_bind (sat_result (sat_drop consistent duplicates mine live holds of claimed pair ends))

section Programs
variable {pid : Fin (2 ^ 63)}

theorem sat_flush (armed : Armed t (.flush uuid) w) :
    Sat (contract t (.flush uuid)) (Ended t (.flush uuid)) ((Op.flush uuid).prog pid) w := by
  refine sat_single rfl (Sat.except_bind (sat_find rfl armed.consistent (fun _ _ => trivial) ?_))
  intro w₁ rely entry of seen _
  obtain ⟨dir, name, env, due⟩ := entry
  cases dir with
  | ready =>
    refine Sat.except_bind (sat_now rely.consistent fun w₂ rely₂ clock => ?_)
    show Sat _ _ (ExceptT.run (if _ then _ else _)) _
    split
    · exact trivial
    · refine sat_orInFlight (sat_rename (.inl rfl) rely₂.consistent (fun _ _ _ => trivial) ?_)
      intro w₃ rely₃ file got
      obtain ⟨e, rfl, valid, named, -⟩ := rely₃.consistent.named _ _ _ (by decide) got
      have same : e.uuid = uuid := (seen.parsed _ (named.uuid valid)).symm.trans of
      subst same
      have one := ((rely.trans rely₂).trans rely₃).sole _ rfl (armed.sole _ rfl)
      exact ⟨Guar.move rely₃.consistent got (.inl rfl) ⟨clock, rfl⟩ rfl one, trivial⟩
  | _ => exact trivial

theorem sat_removeEnvelope (armed : Armed t (.remove uuid) w) :
    Sat (contract t (.remove uuid)) (Ended t (.remove uuid)) ((Op.remove uuid).prog pid) w := by
  refine sat_single rfl (Sat.except_bind (sat_find rfl armed.consistent (fun _ _ => trivial) ?_))
  intro w₁ rely entry of seen settled
  obtain ⟨dir, name, env, due⟩ := entry
  show Sat _ _ (ExceptT.run (if dir = .inflight then _ else _)) _
  split
  · exact trivial
  · rename_i resting
    refine Sat.except_bind (sat_orInFlight (sat_remove rely.consistent (fun _ _ _ => trivial) ?_))
    intro w₂ rely₂ file got
    obtain ⟨e₀, rfl, valid₀, named₀, -⟩ := rely₂.consistent.named _ _ _ seen.queued got
    have same : e₀.uuid = uuid := (seen.parsed _ (named₀.uuid valid₀)).symm.trans of
    have one := (rely.trans rely₂).sole _ rfl (armed.sole _ rfl)
    have guar : Guar t (.remove uuid) w₂ { w₂ with
        disk := w₂.disk.del dir name, owner := handOver w₂.owner dir name none } :=
      Guar.unlink rely₂.consistent seen.queued got (congrArg some same.symm) fun inflight => absurd inflight resting
    refine ⟨guar, ?_⟩
    have gone : Disk.Clear (w₂.disk.del dir name) (fun u _ => u = uuid) 3 := by
      by_cases live : dir ∈ bodyDirs
      · subst same
        exact clear_of_removed one live got
      · have clear := rely₂.clearUuid rfl uuid rfl 3 (settled rfl live)
        intro dir' within name' e' held
        exact clear dir' within name' e' (holds_del_iff.mp held).2
    cases env with
    | error err => exact trivial
    | ok e =>
      have valid := seen.valid e rfl
      have uuidOf : e.uuid = uuid := of
      subst uuidOf
      refine sat_gcBody ?_ rfl rfl guar.consistent gone
      exact valid.body_owned

theorem sat_hold (armed : Armed t (.hold uuid) w) :
    Sat (contract t (.hold uuid)) (Ended t (.hold uuid)) ((Op.hold uuid).prog pid) w := by
  have start : ∀ {w₁}, Rely t (.hold uuid) w w₁ →
      (Op.hold uuid).duplicates → ∀ u, (Op.hold uuid).uuid? = some u → w₁.disk.Sole u := by
    rintro w₁ rely - u ⟨⟩
    exact rely.sole _ rfl (armed.sole _ rfl)
  refine sat_plain (Sat.except_bind (sat_find rfl armed.consistent (fun _ rely => start rely) ?_))
  intro w₁ rely entry of seen _
  obtain ⟨dir, name, env, due⟩ := entry
  cases dir with
  | ready =>
    cases env with
    | error err => exact start rely
    | ok e =>
      have uuidOf : e.uuid = uuid := of
      subst uuidOf
      have valid := seen.valid e rfl
      refine Sat.except_bind (sat_quarantine rely.consistent (fun _ => start rely) fun _ w₂ rely₂ => ?_)
      rw [stampVersion_of_valid valid]
      have both := rely.trans rely₂
      have there : w₂.disk.Holds .ready name e := (seen.rely rfl rely₂).current rfl e rfl rfl
      have one := both.sole _ rfl (armed.sole _ rfl)
      have pair := Disk.Pair.of_put e .quarantine (plainName e.uuid) one (show Dir.ready ∈ bodyDirs by decide)
        there rfl
      obtain ⟨-, -, ident⟩ := rely₂.consistent.file (by decide) there
      have guar : Guar t (.hold e.uuid) w₂ (w₂.setDisk (w₂.disk.put .quarantine (plainName e.uuid) (.json e))) :=
        Guar.publish rely₂.consistent (by decide) (by decide) valid rfl ident
          (fun _ => rely₂.consistent.bodies _ _ _ (by decide) there) (.inl rfl)
          (.inl ⟨_, _, _, by decide, there, rfl⟩) (.inr (.inl ⟨rfl, rfl⟩)) (fun unparked => absurd ⟨rfl, rfl⟩ unparked)
          (fun _ => .inr ⟨rfl, name, e, there, rfl, rfl⟩)
      have there' : Disk.Holds (w₂.disk.put .quarantine (plainName e.uuid) (.json e)) .ready name e :=
        holds_put_iff.mpr (.inr ⟨by simp, there⟩)
      refine ⟨guar, sat_removeIfExists_present guar.consistent rfl rfl (by decide) there' rfl
        (fun inflight => by cases inflight) pair ?_⟩
      rintro w' sole - u ⟨⟩
      exact sole
  | _ => exact start rely

theorem sat_release (armed : Armed t (.release uuid) w) :
    Sat (contract t (.release uuid)) (Ended t (.release uuid)) ((Op.release uuid).prog pid) w := by
  have start : ∀ {w₁}, Rely t (.release uuid) w w₁ →
      (Op.release uuid).duplicates → ∀ u, (Op.release uuid).uuid? = some u → w₁.disk.Sole u := by
    rintro w₁ rely - u ⟨⟩
    exact rely.sole _ rfl (armed.sole _ rfl)
  refine sat_plain (Sat.except_bind (sat_find rfl armed.consistent (fun _ rely => start rely) ?_))
  intro w₁ rely entry of seen _
  obtain ⟨dir, name, env, due⟩ := entry
  show Sat _ _ (ExceptT.run (if dir ≠ .quarantine then _ else _)) _
  split
  · exact start rely
  · rename_i quarantined
    obtain rfl : dir = .quarantine := not_not.mp quarantined
    cases env with
    | error err => exact start rely
    | ok e =>
      have uuidOf : e.uuid = uuid := of
      subst uuidOf
      have valid := seen.valid e rfl
      refine Sat.except_bind (sat_now rely.consistent fun w₂ rely₂ clock => ?_)
      have valid' : (e.resetAttempts.dueAt clock).Valid := valid.resetAttempts.dueAt clock
      refine Sat.except_bind (sat_enqueue rely₂.consistent (fun _ => start (rely.trans rely₂))
        fun _ w₃ rely₃ due => ?_)
      rw [stampVersion_of_valid valid']
      have both := (rely.trans rely₂).trans rely₃
      have there : w₃.disk.Holds .quarantine name e :=
        (seen.rely rfl (rely₂.trans rely₃)).current rfl e rfl rfl
      have one := both.sole _ rfl (armed.sole _ rfl)
      have pair := Disk.Pair.of_put ((e.resetAttempts.dueAt clock).dueAt due) .ready (readyName due e.uuid) one
        (show Dir.quarantine ∈ bodyDirs by decide) there rfl
      obtain ⟨-, -, ident⟩ := rely₃.consistent.file (by decide) there
      have body := rely₃.consistent.bodies .quarantine name e (by decide) there
      have guar : Guar t (.release e.uuid) w₃ (w₃.setDisk (w₃.disk.put .ready (readyName due e.uuid)
          (.json ((e.resetAttempts.dueAt clock).dueAt due)))) :=
        Guar.publish rely₃.consistent (by decide) (by decide) (valid'.dueAt due) ⟨due, rfl⟩ ident
          (fun _ => body) (.inl rfl)
          (.inl ⟨_, _, _, by decide, there, rfl⟩) (.inr (.inl ⟨rfl, rfl⟩)) (fun unparked => absurd ⟨rfl, rfl⟩ unparked)
          (fun _ => .inl rfl)
      have there' : Disk.Holds (w₃.disk.put .ready (readyName due e.uuid)
          (.json ((e.resetAttempts.dueAt clock).dueAt due))) .quarantine name e :=
        holds_put_iff.mpr (.inr ⟨by simp, there⟩)
      refine ⟨guar, sat_removeIfExists_present guar.consistent rfl rfl (by decide) there' rfl
        (fun inflight => by cases inflight) pair ?_⟩
      rintro w' sole - u ⟨⟩
      exact sole

end Programs

end Mailgw.Queue
