import Mailgw.Queue.Copies

namespace Mailgw.Queue

open Calls Spool Text

def File.envelope : File → Option Envelope
  | .raw _ => none
  | .json e => if e.Valid then some e else none

/-- The spool as the operations of the gateway keep it. A file whose name parses is the envelope it is
    named for, and the others are none. -/
structure Disk.Kept (d : Disk) : Prop where
  own : ∀ dir name file uuid, dir ∈ bodyDirs → d.get dir name = some file → envelopeUUID dir name = some uuid →
    ∃ e, file = .json e ∧ e.Valid ∧ Named dir name e
  foreign : ∀ dir name file, dir ∈ bodyDirs → d.get dir name = some file → envelopeUUID dir name = none →
    file.envelope = none

structure Fits (dir : Dir) (name : Name) (file : File) : Prop where
  own : ∀ uuid, envelopeUUID dir name = some uuid → ∃ e, file = .json e ∧ e.Valid ∧ Named dir name e
  foreign : envelopeUUID dir name = none → file.envelope = none

namespace Disk

variable {d : Disk} {dir : Dir} {name : Name} {file : File} {e : Envelope}

theorem Kept.fits (kept : d.Kept) (live : dir ∈ bodyDirs) (got : d.get dir name = some file) : Fits dir name file :=
  ⟨fun uuid => kept.own dir name file uuid live got, kept.foreign dir name file live got⟩

theorem kept_of_fits (fits : ∀ dir name file, dir ∈ bodyDirs → d.get dir name = some file → Fits dir name file) : d.Kept :=
  ⟨fun dir name file uuid live got => (fits dir name file live got).own uuid,
    fun dir name file live got => (fits dir name file live got).foreign⟩

theorem kept_empty : Kept empty := by
  apply kept_of_fits
  intro dir name file live got
  cases got

theorem Kept.put (kept : d.Kept) (fits : dir ∈ bodyDirs → Fits dir name file) : Disk.Kept (d.put dir name file) := by
  apply kept_of_fits
  intro dir' name' file' live got
  rw [get_put] at got
  split at got
  · rename_i same
    obtain ⟨rfl, rfl⟩ := same
    cases got
    exact fits live
  · exact kept.fits live got

theorem Kept.del (kept : d.Kept) : Disk.Kept (d.del dir name) := by
  apply kept_of_fits
  intro dir' name' file' live got
  rw [get_del] at got
  split at got
  · cases got
  · exact kept.fits live got

theorem Kept.readable (kept : d.Kept) (live : dir ∈ bodyDirs) (got : d.get dir name = some (.json e)) (valid : e.Valid) :
    envelopeUUID dir name = some e.uuid := by
  have fits := kept.fits live got
  cases parsed : envelopeUUID dir name with
  | none =>
    have unread := fits.foreign parsed
    simp [File.envelope, valid] at unread
  | some uuid =>
    obtain ⟨e', same, _, named⟩ := fits.own uuid parsed
    cases same
    rw [← parsed]
    exact named.uuid valid

end Disk

theorem fits_named {dir : Dir} {name : Name} {e : Envelope} (valid : e.Valid) (named : Named dir name e) :
    Fits dir name (.json e) := by
  constructor
  · intro uuid _
    exact ⟨e, rfl, valid, named⟩
  · intro foreign
    rw [named.uuid valid] at foreign
    cases foreign

def FsCall.Harmless : FsCall → Prop
  | .publish dir name file => dir ∈ bodyDirs → Fits dir name file
  | .rename dir name dir' name' => dir' ∈ bodyDirs → dir ∈ bodyDirs ∧ ∀ file, Fits dir name file → Fits dir' name' file
  | _ => True

theorem exec_kept {d : Disk} {c : FsCall} (harmless : c.Harmless) (choice : Choice) (kept : d.Kept) :
    (exec choice d c).2.Kept := by
  cases c with
  | now => exact kept
  | readDir dir | temp step =>
    simp only [exec]
    split <;> exact kept
  | readFile dir name =>
    simp only [exec]
    split
    · exact kept
    · split <;> exact kept
  | publish dir name file =>
    simp only [exec]
    split
    · exact kept
    · exact kept.put harmless
  | rename dir name dir' name' =>
    simp only [exec]
    split
    · exact kept
    · split
      · exact kept
      · rename_i file got
        apply kept.del.put
        intro live
        obtain ⟨before, fits⟩ := harmless live
        exact fits file (kept.fits before got)
  | remove dir name =>
    simp only [exec]
    split
    · exact kept
    · split
      · exact kept
      · exact kept.del

def keeping : Contract FsCall FsCall.Answer Disk where
  step c d answer d' := ∃ choice, exec choice d c = (answer, d')
  rely d d' := d.Kept → d'.Kept
  guar d d' := d.Kept → d'.Kept

def Careful {α : Type} (p : Spool α) (fact : α → Prop) : Prop :=
  ∀ d, d.Kept → Sat keeping (fun r d' => d'.Kept ∧ ∀ value, r = .ok value → fact value) p.run d

namespace Careful

variable {α β : Type} {p : Spool α} {fact fact' : α → Prop} {dir dir' : Dir} {name name' : Name} {e : Envelope}

theorem mono (careful : Careful p fact) (implies : ∀ value, fact value → fact' value) : Careful p fact' := by
  intro d kept
  apply (careful d kept).mono
  intro r d' holds
  exact ⟨holds.1, fun value same => implies value (holds.2 value same)⟩

theorem pure {value : α} (holds : fact value) : Careful (pure value : Spool α) fact := by
  intro d kept
  refine ⟨kept, fun value' same => ?_⟩
  cases same
  exact holds

theorem throw {err : Failure} : Careful (throw err : Spool α) fact := by
  intro d kept
  refine ⟨kept, fun value same => ?_⟩
  cases same

theorem bind {f : α → Spool β} {final : β → Prop} (first : Careful p fact)
    (rest : ∀ value, fact value → Careful (f value) final) : Careful (p >>= f) final := by
  intro d kept
  apply Sat.except_bind
  apply (first d kept).mono
  intro r d' holds
  cases r with
  | ok value => exact rest value (holds.2 value rfl) d' holds.1
  | error err =>
    refine ⟨holds.1, fun value same => ?_⟩
    cases same

theorem throw_bind {err : Failure} {f : β → Spool α} : Careful ((MonadExcept.throw err : Spool β) >>= f) fact := by
  have never : Careful (MonadExcept.throw err : Spool β) fun _ => False := throw
  exact bind never fun _ absurd => absurd.elim

theorem result (careful : Careful p fact) : Careful (result p) fun r => ∀ value, r = .ok value → fact value := by
  intro d kept
  apply sat_result
  apply (careful d kept).mono
  intro r d' holds
  refine ⟨holds.1, fun value same => ?_⟩
  cases same
  exact holds.2

theorem onError {cleanup : Spool β} (careful : Careful p fact) (cleans : Careful cleanup fun _ => True) :
    Careful (onError p cleanup) fact := by
  apply bind careful.result
  intro r came
  cases r with
  | ok value => exact pure (came value rfl)
  | error err => exact bind cleans.result fun _ _ => throw

theorem sys (c : FsCall) (known : c.Answer → Prop) (harmless : c.Harmless)
    (returns : ∀ choice d, d.Kept → known (exec choice d c).1) {d : Disk} (kept : d.Kept) :
    Sat keeping (fun answer d' => d'.Kept ∧ known answer) (Spool.sys c) d := by
  have stable : Stable keeping Disk.Kept := fun _ _ move => move
  apply Sat.call Disk.Kept stable kept
  intro d₁ kept answer d₂ step
  obtain ⟨choice, ran⟩ := step
  have after := exec_kept harmless choice kept
  have came := returns choice d₁ kept
  rw [ran] at after came
  exact ⟨fun _ => after, after, came⟩

theorem now : Careful now fun _ => True := by
  intro d kept
  apply Sat.except_lift
  apply (sys .now (fun _ => True) trivial (fun _ _ _ => trivial) kept).mono
  intro t d' holds
  exact ⟨holds.1, fun _ _ => trivial⟩

theorem readDir : Careful (readDir dir) fun _ => True :=
  fun _ kept => sys (.readDir dir) (fun r => ∀ value, r = .ok value → True) trivial (fun _ _ _ _ _ => trivial) kept

theorem temp (step : TempStep) : Careful (temp step) fun _ => True :=
  fun _ kept => sys (.temp step) (fun r => ∀ value, r = .ok value → True) trivial (fun _ _ _ _ _ => trivial) kept

theorem remove : Careful (remove dir name) fun _ => True :=
  fun _ kept => sys (.remove dir name) (fun r => ∀ value, r = .ok value → True) trivial (fun _ _ _ _ _ => trivial) kept

theorem publish {file : File} (fits : dir ∈ bodyDirs → Fits dir name file) : Careful (publish dir name file) fun _ => True :=
  fun _ kept => sys (.publish dir name file) (fun r => ∀ value, r = .ok value → True) fits (fun _ _ _ _ _ => trivial) kept

theorem rename (fits : dir' ∈ bodyDirs → dir ∈ bodyDirs ∧ ∀ file, Fits dir name file → Fits dir' name' file) :
    Careful (rename dir name dir' name') fun _ => True :=
  fun _ kept => sys (.rename dir name dir' name') (fun r => ∀ value, r = .ok value → True) fits (fun _ _ _ _ _ => trivial) kept

theorem readEnvelope : Careful (readEnvelope dir name) fun e =>
    dir ∈ bodyDirs → e.Valid ∧ envelopeUUID dir name = some e.uuid := by
  have reading : Careful (readFile dir name) fun file =>
      ∀ e, file = .json e → e.Valid → dir ∈ bodyDirs → envelopeUUID dir name = some e.uuid := by
    intro d kept
    apply sys (.readFile dir name) (fun r => ∀ file, r = .ok file →
      ∀ e, file = .json e → e.Valid → dir ∈ bodyDirs → envelopeUUID dir name = some e.uuid) trivial
    · intro choice d kept file read e json valid live
      simp only [exec] at read
      split at read
      · cases read
      · split at read
        · cases read
        · rename_i got
          cases read
          exact kept.readable live (json ▸ got) valid
    · exact kept
  apply bind reading
  intro file read
  cases file with
  | raw bytes => exact throw
  | json e =>
    cases checked : e.validate with
    | error why =>
      simp only [checked]
      exact throw
    | ok value =>
      simp only [checked]
      exact pure fun live => ⟨checked, read e rfl checked live⟩

end Careful

section Renames
variable {dir : Dir} {name uuid : Name} {file : File}

theorem Fits.claimed (fits : Fits .ready name file) (pid : Fin (2 ^ 63)) : Fits .inflight (claimName pid name) file := by
  have parsed : envelopeUUID .inflight (claimName pid name) = envelopeUUID .ready name := by
    simp only [envelopeUUID, stripClaimPrefix_claimName]
  constructor
  · intro uuid own
    rw [parsed] at own
    obtain ⟨e, json, valid, due, named⟩ := fits.own uuid own
    exact ⟨e, json, valid, pid, due, by rw [named]⟩
  · intro foreign
    rw [parsed] at foreign
    exact fits.foreign foreign

theorem uuidFromReadyName_restamp (due : Instant) (orig : Name) :
    uuidFromReadyName (restamp due orig) = uuidFromReadyName orig := by
  cases parsed : parseDue orig with
  | none => simp [restamp, parsed]
  | some second =>
    have width := due.due_length
    have stamped : restamp due orig = padDecimal dueWidth due.seconds ++ orig.drop dueWidth := by
      simp [restamp, parsed]
    have shape : ¬ (orig.length < dueWidth + 1 ∨ orig[dueWidth]? ≠ some '.') := by
      intro short
      rw [parseDue, if_pos short] at parsed
      cases parsed
    obtain ⟨long, dot⟩ := not_or.mp shape
    have dot : orig[dueWidth]? = some '.' := not_not.mp dot
    have tail : (restamp due orig).drop (dueWidth + 1) = orig.drop (dueWidth + 1) := by
      rw [stamped, ← List.drop_drop, List.drop_left' width, List.drop_drop]
    have stillDue : parseDue (restamp due orig) = some (due.seconds : Int) := by
      have prefixed : (restamp due orig).take dueWidth = padDecimal dueWidth due.seconds := by
        rw [stamped]
        exact List.take_left' width
      have dot' : (restamp due orig)[dueWidth]? = some '.' := by
        rw [stamped, List.getElem?_append_right (by omega), width, List.getElem?_drop]
        simpa using dot
      have long' : ¬ (restamp due orig).length < dueWidth + 1 := by
        rw [stamped, List.length_append, width, List.length_drop]
        omega
      have range : due.seconds < 2 ^ 63 := Nat.lt_of_lt_of_le due.seconds_lt (by decide)
      simp only [parseDue, dot', long', prefixed, ne_eq, not_true_eq_false, or_self, ite_false]
      exact parseInt64_padDecimal _ _ range
    simp only [uuidFromReadyName, stillDue, parsed, tail]

theorem Fits.recovered (fits : Fits .inflight name file) (due : Instant) :
    Fits .ready (restamp due (stripClaimPrefix name)) file := by
  have parsed : envelopeUUID .ready (restamp due (stripClaimPrefix name)) = envelopeUUID .inflight name :=
    uuidFromReadyName_restamp due (stripClaimPrefix name)
  constructor
  · intro uuid own
    rw [parsed] at own
    obtain ⟨e, json, valid, pid, due', rfl⟩ := fits.own uuid own
    refine ⟨e, json, valid, due, ?_⟩
    rw [stripClaimPrefix_claimName, restamp_readyName]
  · intro foreign
    rw [parsed] at foreign
    exact fits.foreign foreign

def Known (dir : Dir) (name uuid : Name) : Prop := (envelopeUUID dir name).getD [] = uuid

theorem Known.parsed (known : Known dir name uuid) : envelopeUUID dir name = some uuid ∨ envelopeUUID dir name = none ∧ uuid = [] := by
  unfold Known at known
  cases parsed : envelopeUUID dir name with
  | none =>
    rw [parsed] at known
    exact .inr ⟨rfl, known.symm⟩
  | some uuid' =>
    rw [parsed] at known
    exact .inl (congrArg some known)

theorem Fits.flushed (fits : Fits .ready name file) (known : Known .ready name uuid) (due : Instant) :
    Fits .ready (readyName due uuid) file := by
  rcases known.parsed with own | ⟨foreign, rfl⟩
  · obtain ⟨e, json, valid, named⟩ := fits.own uuid own
    have parsed : envelopeUUID .ready name = some e.uuid := Named.uuid named valid
    have same : e.uuid = uuid := Option.some.inj (parsed.symm.trans own)
    rw [json, ← same]
    exact fits_named valid ⟨due, rfl⟩
  · have nameless : envelopeUUID .ready (readyName due []) = none := by
      simp [envelopeUUID, uuidFromReadyName, readyName_drop, trimEnvelopeSuffix]
    constructor
    · intro uuid own
      rw [nameless] at own
      cases own
    · intro _
      exact fits.foreign foreign

end Renames

namespace Careful

variable {dir : Dir} {name : Name} {e : Envelope}

theorem removeIfExists : Careful (removeIfExists dir name) fun _ => True := by
  apply bind remove.result
  intro r _
  match r with
  | .ok () | .error .notExist => exact pure trivial
  | .error .io | .error .torn | .error (.invalid _) | .error .inFlight | .error .notQueued | .error (.misplaced _) =>
    exact throw

theorem writeFile {file : File} (fits : dir ∈ bodyDirs → Fits dir name file) : Careful (writeFile dir name file) fun _ => True := by
  apply bind (temp .create)
  intro _ _
  apply bind ((temp .write).onError (temp .discard))
  intro _ _
  apply bind ((temp .sync).onError (temp .discard))
  intro _ _
  apply bind ((temp .close).onError (temp .discard))
  intro _ _
  exact (publish fits).onError (temp .discard)

theorem writeEnvelope (valid : dir ∈ bodyDirs → e.Valid ∧ Named dir name e) : Careful (writeEnvelope dir name e) fun _ => True :=
  writeFile fun live => fits_named (valid live).1 (valid live).2

theorem checkValid : Careful (checkValid e) fun _ => e.Valid := by
  unfold Spool.checkValid
  cases checked : e.validate with
  | error why => exact throw
  | ok value => exact pure checked

theorem enqueue : Careful (enqueue e) fun _ => True := by
  apply bind checkValid
  intro _ valid
  have due : Careful (stampDue (stampVersion e)) Envelope.Valid := by
    unfold stampDue
    split
    · apply bind now
      intro t _
      exact pure (valid.dueAt t)
    · exact pure valid
  apply bind due
  intro e' valid'
  exact writeEnvelope fun _ => ⟨valid', e'.nextAt, rfl⟩

theorem quarantine : Careful (quarantine e) fun _ => True := by
  apply bind checkValid
  intro _ valid
  exact writeEnvelope fun _ => ⟨valid, rfl⟩

theorem refersTo {body keep : Name} : Careful (refersTo body keep dir name) fun _ => True := by
  apply bind readEnvelope.result
  intro r _
  cases r with
  | error err => exact pure trivial
  | ok other => exact pure trivial

theorem referencedIn {body keep : Name} (names : List Name) : Careful (referencedIn body keep dir names) fun _ => True := by
  induction names with
  | nil => exact pure trivial
  | cons name rest ih =>
    unfold Spool.referencedIn
    split
    · exact ih
    · apply bind refersTo
      intro found _
      cases found with
      | true => exact pure trivial
      | false => exact ih

theorem bodyReferenced {body keep : Name} (dirs : List Dir) : Careful (bodyReferenced body keep dirs) fun _ => True := by
  induction dirs with
  | nil => exact pure trivial
  | cons dir dirs ih =>
    apply bind readDir
    intro names _
    apply bind (referencedIn names)
    intro found _
    cases found with
    | true => exact pure trivial
    | false => exact ih

theorem gcBody : Careful (gcBody e) fun _ => True := by
  unfold Spool.gcBody
  split
  · exact pure trivial
  · apply bind (bodyReferenced bodyDirs)
    intro found _
    cases found with
    | true => exact pure trivial
    | false => exact removeIfExists

theorem claim (pid : Fin (2 ^ 63)) : Careful (claim pid name) fun taken => taken.1.Valid := by
  apply bind (rename fun _ => ⟨by decide, fun file fits => fits.claimed pid⟩)
  intro _ _
  apply bind (readEnvelope.onError (rename fun live => absurd live (by decide)))
  intro e read
  exact pure (read (by decide)).1

theorem place (parts : List (Bool × Envelope)) : Careful (Op.place parts) fun _ => True := by
  induction parts with
  | nil => exact pure trivial
  | cons part rest ih =>
    have one : Careful (Op.placeOne part) fun _ => True := by
      unfold Op.placeOne
      split
      · exact quarantine
      · exact enqueue
    exact bind one fun _ _ => ih

theorem recoverNames (committed : List Name) (due : Instant) (names : List Name) :
    Careful (recoverNames committed due names) fun _ => True := by
  induction names with
  | nil => exact pure trivial
  | cons name rest ih =>
    simp only [Spool.recoverNames]
    split
    · exact bind remove fun _ _ => ih
    · apply bind (rename fun _ => ⟨by decide, fun file fits => fits.recovered due⟩)
      intro _ _
      exact bind ih fun _ _ => pure trivial

theorem recover : Careful recover fun _ => True := by
  have committed : Careful committedUUIDs fun _ => True :=
    bind readDir fun _ _ => bind readDir fun _ _ => bind readDir fun _ _ => pure trivial
  apply bind readDir
  intro entries _
  apply bind committed
  intro uuids _
  apply bind now
  intro due _
  exact recoverNames uuids due entries

def Listed (entry : Entry) : Prop := entry.queue ∈ bodyDirs → Known entry.queue entry.name entry.uuid

theorem entriesIn (names : List Name) : Careful (entriesIn dir names) fun entries => ∀ entry ∈ entries, Listed entry := by
  induction names with
  | nil => exact pure (by simp)
  | cons name rest ih =>
    apply bind readEnvelope.result
    intro env read
    apply bind ih
    intro entries listed
    apply pure
    have own : Listed ⟨dir, name, env, Entry.dueOf dir name⟩ := by
      intro live
      cases env with
      | ok e =>
        obtain ⟨_, parsed⟩ := read e rfl live
        simp [Known, Entry.uuid, parsed]
      | error err => rfl
    exact List.forall_mem_cons.mpr ⟨own, listed⟩

theorem entriesOf (dirs : List Dir) : Careful (entriesOf dirs) fun entries => ∀ entry ∈ entries, Listed entry := by
  induction dirs with
  | nil => exact pure (by simp)
  | cons dir dirs ih =>
    apply bind readDir
    intro names _
    apply bind (entriesIn names)
    intro here listed
    apply bind ih
    intro rest others
    apply pure
    intro entry member
    rcases List.mem_append.mp member with first | later
    · exact listed entry first
    · exact others entry later

theorem find (uuid : Name) : Careful (find uuid) fun entry => entry.queue ∈ bodyDirs → Known entry.queue entry.name uuid := by
  have listing : Careful listAll fun entries => ∀ entry ∈ entries, Listed entry := by
    apply bind (entriesOf inspectDirs)
    intro entries listed
    apply pure
    intro entry member
    exact listed entry ((List.mem_insertionSort _).mp member)
  apply bind listing
  intro entries listed
  cases found : entries.find? fun entry => entry.uuid = uuid with
  | none => exact throw
  | some entry =>
    apply pure
    intro live
    have named : entry.uuid = uuid := by simpa using List.find?_some found
    rw [← named]
    exact listed entry (List.mem_of_find?_eq_some found) live

theorem orInFlight {p : Spool Unit} (careful : Careful p fun _ => True) : Careful (orInFlight p) fun _ => True := by
  apply bind careful.result
  intro r _
  match r with
  | .ok () => exact pure trivial
  | .error .notExist => exact throw
  | .error .io | .error .torn | .error (.invalid _) | .error .inFlight | .error .notQueued | .error (.misplaced _) =>
    exact throw

theorem flush (uuid : Name) : Careful (flush uuid) fun _ => True := by
  apply bind (find uuid)
  intro entry known
  obtain ⟨queue, name, env, due⟩ := entry
  cases queue with
  | ready =>
    apply bind now
    intro t _
    dsimp only
    split
    · exact pure trivial
    · apply orInFlight
      apply rename
      intro _
      exact ⟨by decide, fun file fits => fits.flushed (known (by simp [bodyDirs])) t⟩
  | _ => exact throw

theorem release (uuid : Name) : Careful (release uuid) fun _ => True := by
  apply bind (find uuid)
  intro entry _
  obtain ⟨queue, name, env, due⟩ := entry
  dsimp only
  split
  · exact throw_bind
  · cases env with
    | error err => exact throw
    | ok e =>
      apply bind now
      intro t _
      exact bind enqueue fun _ _ => removeIfExists

theorem hold (uuid : Name) : Careful (hold uuid) fun _ => True := by
  apply bind (find uuid)
  intro entry _
  obtain ⟨queue, name, env, due⟩ := entry
  cases queue with
  | ready =>
    cases env with
    | error err => exact throw
    | ok e => exact bind quarantine fun _ _ => removeIfExists
  | _ => exact throw

theorem removeEnvelope (uuid : Name) : Careful (removeEnvelope uuid) fun _ => True := by
  apply bind (find uuid)
  intro entry _
  obtain ⟨queue, name, env, due⟩ := entry
  dsimp only
  split
  · exact throw_bind
  · apply bind (orInFlight remove)
    intro _ _
    cases env with
    | error err => exact pure trivial
    | ok e => exact gcBody

theorem complete : Careful (complete name e) fun _ => True := bind remove fun _ _ => gcBody

theorem reschedule {due : Instant} (valid : e.Valid) : Careful (reschedule name e due) fun _ => True := by
  have named : Named .ready (readyName (e.dueAt due).nextAt (e.dueAt due).uuid) (e.dueAt due) := ⟨due, rfl⟩
  exact bind (writeEnvelope fun _ => ⟨valid.dueAt due, named⟩) fun _ _ => remove

theorem bury : Careful (bury name e) fun _ => True := by
  apply bind (writeEnvelope fun live => absurd live (by decide))
  intro _ _
  exact bind remove fun _ _ => gcBody

theorem data {txnUUID bytes : Name} (parts : List (Bool × Envelope)) :
    Careful (do let _ ← writeBody txnUUID bytes; Op.place parts) fun _ => True := by
  have written : Careful (writeBody txnUUID bytes) fun _ => True :=
    bind (writeFile fun live => absurd live (by decide)) fun _ _ => pure trivial
  exact bind written fun _ _ => place parts

end Careful

end Mailgw.Queue
