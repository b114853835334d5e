import Mailgw.Calls.Contract
import Mailgw.Files.Folders
import Mailgw.Queue.Envelope
import Mathlib.Data.Char
import Mathlib.Data.List.Lex

namespace Mailgw.Queue

open Calls

/-- The spool directories that are ever listed. tmp/ holds private files nobody else looks at. -/
inductive Dir where
  | data | ready | inflight | dead | quarantine
  deriving Repr, DecidableEq

/-- An encoded envelope, or bytes that are none: a message body, a torn or a foreign file. -/
inductive File where
  | json (e : Envelope)
  | raw (bytes : Name)
  deriving Repr, DecidableEq

inductive Failure where
  | notExist | io
  | torn | invalid (why : Invalid)
  | inFlight | notQueued | misplaced (queue : Dir)
  deriving Repr, DecidableEq

abbrev Disk := Files.Folders Dir Name File

namespace Disk
export Files.Folders (empty get_put get_del mem_list list_nodup)
end Disk

inductive TempStep where
  | create | write | sync | close | discard
  deriving Repr, DecidableEq

/-- The system calls of the spool. `publish` renames a finished temporary file into place. -/
inductive FsCall where
  | now
  | readDir (dir : Dir)
  | readFile (dir : Dir) (name : Name)
  | temp (step : TempStep)
  | publish (dir : Dir) (name : Name) (file : File)
  | rename (dir : Dir) (name : Name) (dir' : Dir) (name' : Name)
  | remove (dir : Dir) (name : Name)
  deriving Repr, DecidableEq

abbrev FsCall.Answer : FsCall → Type
  | .now => Instant
  | .readDir _ => Except Failure (List Name)
  | .readFile _ _ => Except Failure File
  | _ => Except Failure Unit

structure Choice where
  clock : Instant
  fails : Bool := false

/-- One system call. A call that fails leaves the disk as it is. -/
def exec (choice : Choice) (d : Disk) : (c : FsCall) → c.Answer × Disk
  | .now => (choice.clock, d)
  | .readDir dir => if choice.fails then (.error .io, d) else (.ok (d.list dir), d)
  | .readFile dir name =>
    if choice.fails then (.error .io, d)
    else match d.get dir name with
      | none => (.error .notExist, d)
      | some file => (.ok file, d)
  | .temp _ => if choice.fails then (.error .io, d) else (.ok (), d)
  | .publish dir name file => if choice.fails then (.error .io, d) else (.ok (), d.put dir name file)
  | .rename dir name dir' name' =>
    if choice.fails then (.error .io, d)
    else match d.get dir name with
      | none => (.error .notExist, d)
      | some file => (.ok (), (d.del dir name).put dir' name' file)
  | .remove dir name =>
    if choice.fails then (.error .io, d)
    else match d.get dir name with
      | none => (.error .notExist, d)
      | some _ => (.ok (), d.del dir name)

abbrev Fs := Prog FsCall FsCall.Answer

abbrev Spool := ExceptT Failure Fs

namespace Spool

def sys (c : FsCall) : Fs c.Answer := Prog.ask c

def now : Spool Instant := ExceptT.lift (sys .now)
def readDir (dir : Dir) : Spool (List Name) := ExceptT.mk (sys (.readDir dir))
def readFile (dir : Dir) (name : Name) : Spool File := ExceptT.mk (sys (.readFile dir name))
def temp (step : TempStep) : Spool Unit := ExceptT.mk (sys (.temp step))
def publish (dir : Dir) (name : Name) (file : File) : Spool Unit := ExceptT.mk (sys (.publish dir name file))
def rename (dir : Dir) (name : Name) (dir' : Dir) (name' : Name) : Spool Unit :=
  ExceptT.mk (sys (.rename dir name dir' name'))
def remove (dir : Dir) (name : Name) : Spool Unit := ExceptT.mk (sys (.remove dir name))

def result {α : Type} (p : Spool α) : Spool (Except Failure α) := ExceptT.lift p.run

def onError {α β : Type} (p : Spool α) (cleanup : Spool β) : Spool α := do
  match ← result p with
  | .ok value => return value
  | .error err =>
    let _ ← result cleanup
    throw err

section Rules
variable {W α : Type} {k : Contract FsCall FsCall.Answer W} {w : W}

theorem sat_result {p : Spool α} {final : Except Failure (Except Failure α) → W → Prop}
    (sat : Sat k (fun r w => final (.ok r) w) p.run w) : Sat k final (result p).run w :=
  Sat.except_lift sat

theorem sat_onError {β : Type} {p : Spool α} {cleanup : Spool β} {final : Except Failure α → W → Prop}
    (sat : Sat k (fun r w' => match r with
      | .ok value => final (.ok value) w'
      | .error err => Sat k (fun _ w'' => final (.error err) w'') cleanup.run w') p.run w) :
    Sat k final (onError p cleanup).run w := by
  apply Sat.except_bind
  apply sat_result
  apply sat.mono
  intro r w' holds
  cases r with
  | ok value => exact holds
  | error err =>
    apply Sat.except_bind
    exact sat_result holds

theorem sat_onError_ok {β : Type} {p : Spool α} {cleanup : Spool β} {final : Except Failure α → W → Prop}
    (sat : Sat k (fun r w => ∃ value, r = .ok value ∧ final (.ok value) w) p.run w) :
    Sat k final (onError p cleanup).run w := by
  apply sat_onError
  apply sat.mono
  rintro r w' ⟨value, rfl, holds⟩
  exact holds

end Rules

def removeIfExists (dir : Dir) (name : Name) : Spool Unit := do
  match ← result (remove dir name) with
  | .ok () | .error .notExist => return ()
  | .error err => throw err

def writeFile (dir : Dir) (name : Name) (file : File) : Spool Unit := do
  temp .create
  onError (temp .write) (temp .discard)
  onError (temp .sync) (temp .discard)
  onError (temp .close) (temp .discard)
  onError (publish dir name file) (temp .discard)

def writeEnvelope (dir : Dir) (name : Name) (e : Envelope) : Spool Unit := writeFile dir name (.json e)

def writeBody (txnUUID : Name) (bytes : Name) : Spool Name := do
  let name := txnUUID ++ suffixEml
  writeFile .data name (.raw bytes)
  return name

def readEnvelope (dir : Dir) (name : Name) : Spool Envelope := do
  match ← readFile dir name with
  | .raw _ => throw .torn
  | .json e =>
    match e.validate with
    | .error why => throw (.invalid why)
    | .ok () => return e

def stampVersion (e : Envelope) : Envelope := if e.version = 0 then { e with version := envelopeVersion } else e

def checkValid (e : Envelope) : Spool Unit :=
  match e.validate with
  | .error why => throw (.invalid why)
  | .ok () => return ()

@[simp] theorem stampVersion_uuid (e : Envelope) : (stampVersion e).uuid = e.uuid := by
  unfold stampVersion
  split <;> rfl

@[simp] theorem stampVersion_body (e : Envelope) : (stampVersion e).body = e.body := by
  unfold stampVersion
  split <;> rfl

theorem stampVersion_of_valid {e : Envelope} (valid : e.Valid) : stampVersion e = e := by
  unfold stampVersion
  rw [if_neg]
  rw [valid.version]
  decide

theorem sat_checkValid {W : Type} {k : Contract FsCall FsCall.Answer W} {post : Except Failure Unit → W → Prop} {w : W}
    {e : Envelope} (refused : ¬ e.Valid → ∀ err, post (.error err) w) (accepted : e.Valid → post (.ok ()) w) :
    Sat k post (checkValid e).run w := by
  unfold checkValid
  cases checked : e.validate with
  | error why =>
    apply refused
    intro valid
    cases checked.symm.trans valid
  | ok value => exact accepted checked

def stampDue (e : Envelope) : Spool Envelope := do
  if e.nextAt.val = 0 then
    let t ← now
    return e.dueAt t
  else return e

def enqueue (e : Envelope) : Spool Unit := do
  let e := stampVersion e
  checkValid e
  let e ← stampDue e
  writeEnvelope .ready (readyName e.nextAt e.uuid) e

def quarantine (e : Envelope) : Spool Unit := do
  let e := stampVersion e
  checkValid e
  writeEnvelope .quarantine (plainName e.uuid) e

def removeBody (name : Name) : Spool Unit :=
  if name = [] then return () else removeIfExists .data name

/-- The envelope uuid in a filename. Only inflight/ names carry a claim prefix. -/
def envelopeUUID (dir : Dir) (name : Name) : Option Name :=
  match dir with
  | .ready => uuidFromReadyName name
  | .inflight => uuidFromReadyName (stripClaimPrefix name)
  | _ => uuidFromPlainName name

def bodyDirs : List Dir := [.ready, .inflight, .quarantine]

section BodyReferenced
variable (body keep : Name)

/-- Opens one candidate. An unreadable one counts as a reference. -/
def refersTo (dir : Dir) (name : Name) : Spool Bool := do
  match ← result (readEnvelope dir name) with
  | .error _ => return true
  | .ok other => return other.uuid ≠ keep && other.body = body

/-- A candidate that its filename alone rules out is not opened. -/
def ruledOut (dir : Dir) (name : Name) : Bool :=
  match envelopeUUID dir name with
  | some uuid => uuid == keep || !bodyOwnedBy body uuid
  | none => false

def referencedIn (dir : Dir) : List Name → Spool Bool
  | [] => return false
  | name :: rest => do
    if ruledOut body keep dir name then referencedIn dir rest
    else if ← refersTo body keep dir name then return true
    else referencedIn dir rest

def bodyReferenced : List Dir → Spool Bool
  | [] => return false
  | dir :: dirs => do
    let names ← readDir dir
    if ← referencedIn body keep dir names then return true
    else bodyReferenced dirs

end BodyReferenced

def gcBody (e : Envelope) : Spool Unit := do
  if e.body = [] then return ()
  if ← bodyReferenced e.body e.uuid bodyDirs then return ()
  removeIfExists .data e.body

/-- Moves a ready envelope into inflight/. The rename is the lock. -/
def claim (pid : Fin (2 ^ 63)) (name : Name) : Spool (Envelope × Name) := do
  let inflightName := claimName pid name
  rename .ready name .inflight inflightName
  let e ← onError (readEnvelope .inflight inflightName) (rename .inflight inflightName .dead inflightName)
  return (e, inflightName)

def complete (inflightName : Name) (e : Envelope) : Spool Unit := do
  remove .inflight inflightName
  gcBody e

def reschedule (inflightName : Name) (e : Envelope) (due : Instant) : Spool Unit := do
  let e := e.dueAt due
  writeEnvelope .ready (readyName e.nextAt e.uuid) e
  remove .inflight inflightName

def bury (inflightName : Name) (e : Envelope) : Spool Unit := do
  writeEnvelope .dead (plainName e.uuid) e
  remove .inflight inflightName
  gcBody e

def committedUUIDs : Spool (List Name) := do
  let ready ← readDir .ready
  let dead ← readDir .dead
  let held ← readDir .quarantine
  return ready.filterMap uuidFromReadyName ++ dead.filterMap uuidFromPlainName ++
    held.filterMap uuidFromPlainName

def isCommitted (committed : List Name) (orig : Name) : Bool :=
  match uuidFromReadyName orig with
  | some uuid => uuid ∈ committed
  | none => false

def recoverNames (committed : List Name) (due : Instant) : List Name → Spool Nat
  | [] => return 0
  | name :: rest => do
    let orig := stripClaimPrefix name
    if isCommitted committed orig then
      remove .inflight name
      recoverNames committed due rest
    else
      rename .inflight name .ready (restamp due orig)
      let n ← recoverNames committed due rest
      return n + 1

/-- Moves everything left in inflight/ back to the ready queue, due immediately, and drops an
    inflight copy whose uuid is already committed elsewhere. -/
def recover : Spool Nat := do
  let entries ← readDir .inflight
  let committed ← committedUUIDs
  let due ← now
  recoverNames committed due entries

end Spool

end Mailgw.Queue
