import Mailgw.Calls.Runs
import Mailgw.Queue.Keeping
import Mailgw.Queue.SharedBody

namespace Mailgw.Queue

open Calls Spool

def File.refersTo (file : File) (body keep : Name) : Bool :=
  match file.envelope with
  | none => true
  | some e => e.uuid ≠ keep && e.body = body

/-- Reads every file that may keep the body alive, whatever its name. -/
def Disk.fullScan (d : Disk) (body keep : Name) : Bool :=
  bodyDirs.any fun dir => (d.list dir).any fun name => (d.get dir name).any fun file => file.refersTo body keep

def InHand (claimed : Option (Name × Envelope)) : Prop := ∀ name e, claimed = some (name, e) → e.Valid

section System
variable {d : Disk} {op : Op} {cfg cfg' : Cfg}

theorem plain_careful {α : Type} {p : Spool α} (careful : Careful p fun _ => True) (kept : d.Kept) :
    Sat keeping (fun claimed _ => InHand claimed) (Op.plain p) d := by
  apply Sat.bind
  apply (careful d kept).mono
  intro r d' holds name e same
  cases same

def Op.returns : Op → Option Envelope
  | .reschedule _ e _ => some e
  | _ => none

theorem prog_careful (pid : Fin (2 ^ 63)) (given : ∀ e, op.returns = some e → e.Valid) (kept : d.Kept) :
    Sat keeping (fun claimed _ => InHand claimed) (op.prog pid) d := by
  cases op with
  | data txnUUID bytes parts => exact plain_careful (.data parts) kept
  | enqueue e => exact plain_careful .enqueue kept
  | quarantine e => exact plain_careful .quarantine kept
  | claim name =>
    apply Sat.bind
    apply (Careful.claim pid d kept).mono
    intro r d' holds
    cases r with
    | error err =>
      intro name e same
      cases same
    | ok taken =>
      intro name e same
      cases same
      exact holds.2 taken rfl
  | complete name e => exact plain_careful .complete kept
  | reschedule name e due => exact plain_careful (.reschedule (given e rfl)) kept
  | bury name e => exact plain_careful .bury kept
  | flush uuid => exact plain_careful (.flush uuid) kept
  | hold uuid => exact plain_careful (.hold uuid) kept
  | release uuid => exact plain_careful (.release uuid) kept
  | remove uuid => exact plain_careful (.removeEnvelope uuid) kept
  | recover => exact plain_careful .recover kept

def Thread.Careful (d : Disk) : Thread → Prop
  | .idle => True
  | .holding _ e => e.Valid
  | .busy _ rest => Sat keeping (fun claimed _ => InHand claimed) rest d

theorem Thread.careful_settle {rest : Fs (Option (Name × Envelope))}
    (careful : Sat keeping (fun claimed _ => InHand claimed) rest d) : (Thread.settle op rest).Careful d := by
  match rest with
  | .done none => trivial
  | .done (some (name, e)) => exact careful name e rfl
  | .call c next => exact careful

theorem Thread.Careful.others {d' : Disk} {thread : Thread} (careful : thread.Careful d) (kept : d'.Kept) :
    thread.Careful d' := by
  cases thread with
  | idle => trivial
  | holding name e => exact careful
  | busy op rest => exact Sat.stable careful (fun _ => Stable.const _) fun _ => kept

structure Cfg.Careful (cfg : Cfg) : Prop where
  kept : cfg.disk.Kept
  threads : ∀ t, (cfg.threads t).Careful cfg.disk

theorem Cfg.Careful.update (careful : cfg.Careful) {disk : Disk} {t : Nat} {thread : Thread} (kept : disk.Kept)
    (own : thread.Careful disk) : ∀ t', (Function.update cfg.threads t thread t').Careful disk := by
  intro t'
  rw [Function.update_apply]
  split
  · exact own
  · exact (careful.threads t').others kept

theorem given_valid {clock : Instant} {t : Nat} (careful : cfg.Careful) (may : (cfg.threads t).mayBegin cfg clock op) :
    ∀ e, op.returns = some e → e.Valid := by
  intro e returned
  cases op with
  | reschedule name e' due =>
    cases returned
    cases held : cfg.threads t with
    | holding name' before =>
      rw [held] at may
      have valid := careful.threads t
      rw [held] at valid
      exact (Attempted.identity may.2 valid).1
    | idle =>
      rw [held] at may
      exact may.elim
    | busy op rest =>
      rw [held] at may
      exact may.elim
  | _ => cases returned

theorem Cfg.Careful.next (careful : cfg.Careful) {decision : Decision} (next : cfg.next decision = some cfg') : cfg'.Careful := by
  cases decision with
  | begin t op clock =>
    simp only [Cfg.next] at next
    split at next
    · rename_i may
      cases next
      have own := prog_careful cfg.pid (given_valid careful may) careful.kept
      exact ⟨careful.kept, careful.update careful.kept (Thread.careful_settle own)⟩
    · cases next
  | step t choice =>
    simp only [Cfg.next] at next
    split at next
    · rename_i op c rest busy
      cases next
      have own := careful.threads t
      rw [busy] at own
      obtain ⟨guarantee, continued⟩ := Sat.answer own ⟨choice, rfl⟩
      have kept := guarantee careful.kept
      exact ⟨kept, careful.update kept (Thread.careful_settle continued)⟩
    · cases next
  | crash pid =>
    cases next
    refine ⟨careful.kept, fun t => ?_⟩
    have before := careful.threads t
    cases thread : cfg.threads t with
    | idle => simp [Thread.afterCrash, thread, Thread.Careful]
    | holding name e => simp [Thread.afterCrash, thread, Thread.Careful]
    | busy op rest =>
      rw [thread] at before
      simp only [Thread.afterCrash, thread]
      split
      · exact before
      · trivial
  | abort t =>
    simp only [Cfg.next] at next
    split at next
    · split at next
      · cases next
        exact ⟨careful.kept, careful.update careful.kept trivial⟩
      · cases next
    · cases next

end System

/-- A step of the gateway or its operators, or a file of no envelope that somebody puts into the spool or
    takes out of it. -/
inductive Occurrence where
  | own (decision : Decision)
  | foreign (dir : Dir) (name : Name) (file : Option File)

def Foreign (dir : Dir) (name : Name) (file : Option File) : Prop :=
  dir ∈ bodyDirs → envelopeUUID dir name = none ∧ file.bind File.envelope = none

instance (dir : Dir) (name : Name) (file : Option File) : Decidable (Foreign dir name file) :=
  inferInstanceAs (Decidable (_ → _))

def Disk.replace (d : Disk) (dir : Dir) (name : Name) : Option File → Disk
  | some file => d.put dir name file
  | none => d.del dir name

def Cfg.happens (cfg : Cfg) : Occurrence → Option Cfg
  | .own decision => cfg.next decision
  | .foreign dir name file =>
    if Foreign dir name file then some { cfg with disk := cfg.disk.replace dir name file } else none

theorem Cfg.Careful.happens {cfg cfg' : Cfg} (careful : cfg.Careful) {occurrence : Occurrence}
    (happens : cfg.happens occurrence = some cfg') : cfg'.Careful := by
  cases occurrence with
  | own decision => exact careful.next happens
  | foreign dir name file =>
    simp only [Cfg.happens] at happens
    split at happens
    · rename_i foreign
      cases happens
      have kept : (cfg.disk.replace dir name file).Kept := by
        cases file with
        | none => exact careful.kept.del
        | some file =>
          apply careful.kept.put
          intro live
          obtain ⟨unnamed, unread⟩ := foreign live
          constructor
          · intro uuid own
            rw [unnamed] at own
            cases own
          · exact fun _ => unread
      exact ⟨kept, fun t => (careful.threads t).others kept⟩
    · cases happens

/-- What is in the queue, in flight and in quarantine, and any files at all whose names do not parse. -/
def Disk.Beside (own d : Disk) : Prop :=
  ∀ dir name, dir ∈ bodyDirs → (envelopeUUID dir name).isSome → d.get dir name = own.get dir name

section Scan
variable {d own : Disk} {body keep : Name} {dir : Dir} {name : Name} {clock : Instant}

def calm (clock : Instant) (c : FsCall) (d : Disk) : c.Answer × Disk := exec ⟨clock, false⟩ d c

def Reads {α : Type} (clock : Instant) (d : Disk) (p : Spool α) (r : Except Failure α) : Prop :=
  Prog.run (calm clock) p.run d = (r, d)

namespace Reads

variable {α β : Type} {p : Spool α} {f : α → Spool β} {value : α} {r : Except Failure β}

theorem bind (first : Reads clock d p (.ok value)) (rest : Reads clock d (f value) r) : Reads clock d (p >>= f) r := by
  have split := Prog.run_bind (calm clock) p.run (ExceptT.bindCont f) d
  rw [show Prog.run (calm clock) p.run d = (.ok value, d) from first] at split
  exact split.trans rest

theorem result {r : Except Failure α} (reads : Reads clock d p r) : Reads clock d (result p) (.ok r) := by
  have split := Prog.run_bind (calm clock) p.run (fun r => Prog.done (Except.ok r : Except Failure (Except Failure α))) d
  rw [show Prog.run (calm clock) p.run d = (r, d) from reads] at split
  exact split

theorem readEnvelope (clock : Instant) {file : File} (got : d.get dir name = some file) :
    ∃ r, Reads clock d (readEnvelope dir name) r ∧ r.toOption = file.envelope := by
  have read : Reads clock d (readFile dir name) (.ok file) := by
    simp [Reads, readFile, Spool.sys, Prog.ask, Prog.run, calm, exec, got]
  cases file with
  | raw bytes => exact ⟨.error .torn, read.bind rfl, rfl⟩
  | json e =>
    cases checked : e.validate with
    | error why =>
      refine ⟨.error (.invalid why), read.bind ?_, ?_⟩
      · simp only [checked]
        rfl
      · have invalid : ¬ e.Valid := by
          intro valid
          cases checked.symm.trans valid
        simp [File.envelope, invalid, Except.toOption]
    | ok value =>
      refine ⟨.ok e, read.bind ?_, ?_⟩
      · simp only [checked]
        rfl
      · have valid : e.Valid := checked
        simp [File.envelope, valid, Except.toOption]

theorem refersTo {file : File} (got : d.get dir name = some file) :
    Reads clock d (refersTo body keep dir name) (.ok (file.refersTo body keep)) := by
  obtain ⟨r, reads, same⟩ := readEnvelope clock got
  apply bind reads.result
  cases r with
  | error err =>
    have unread : file.envelope = none := same.symm
    simp only [File.refersTo, unread]
    rfl
  | ok e =>
    have read : file.envelope = some e := same.symm
    simp only [File.refersTo, read]
    rfl

end Reads

theorem refersTo_of_ruledOut {file : File} (kept : own.Kept) (beside : own.Beside d) (live : dir ∈ bodyDirs)
    (got : d.get dir name = some file) (ruled : ruledOut body keep dir name = true) : file.refersTo body keep = false := by
  unfold ruledOut at ruled
  split at ruled
  · rename_i uuid parsed
    have ours : own.get dir name = some file := by
      rw [← beside dir name live (by simp [parsed])]
      exact got
    obtain ⟨e, json, valid, named⟩ := kept.own dir name file uuid live ours parsed
    have same : e.uuid = uuid := Option.some.inj ((named.uuid valid).symm.trans parsed)
    have read : file.envelope = some e := by
      rw [json]
      simp [File.envelope, valid]
    simp only [File.refersTo, read]
    by_cases kept : uuid = keep
    · simp [same, kept]
    · have stranger : bodyOwnedBy body uuid = false := by simpa [kept] using ruled
      have other : e.body ≠ body := by
        intro mine
        have owned := valid.body_owned
        rw [mine, same, stranger] at owned
        cases owned
      simp [other]
  · cases ruled

theorem referencedIn_reads (kept : own.Kept) (beside : own.Beside d) (live : dir ∈ bodyDirs) (names : List Name)
    (listed : ∀ name ∈ names, ∃ file, d.get dir name = some file) :
    Reads clock d (referencedIn body keep dir names)
      (.ok (names.any fun name => (d.get dir name).any fun file => file.refersTo body keep)) := by
  induction names with
  | nil => rfl
  | cons name rest ih =>
    obtain ⟨file, got⟩ := listed name List.mem_cons_self
    have later := ih fun name member => listed name (List.mem_cons_of_mem _ member)
    rw [List.any_cons, got]
    unfold referencedIn
    split
    · rename_i ruled
      rw [Option.any_some, refersTo_of_ruledOut kept beside live got ruled, Bool.false_or]
      exact later
    · apply (Reads.refersTo got).bind
      cases found : file.refersTo body keep with
      | true =>
        rw [Option.any_some, found]
        rfl
      | false =>
        rw [Option.any_some, found, Bool.false_or]
        exact later

theorem bodyReferenced_reads (kept : own.Kept) (beside : own.Beside d) (dirs : List Dir) (live : ∀ dir ∈ dirs, dir ∈ bodyDirs) :
    Reads clock d (bodyReferenced body keep dirs)
      (.ok (dirs.any fun dir => (d.list dir).any fun name => (d.get dir name).any fun file => file.refersTo body keep)) := by
  induction dirs with
  | nil => rfl
  | cons dir dirs ih =>
    have listed : Reads clock d (readDir dir) (.ok (d.list dir)) := by
      simp [Reads, readDir, Spool.sys, Prog.ask, Prog.run, calm, exec]
    have here : Reads clock d (referencedIn body keep dir (d.list dir)) _ :=
      referencedIn_reads kept beside (live dir List.mem_cons_self) (d.list dir) fun name => Disk.mem_list.mp
    have later := ih fun dir member => live dir (List.mem_cons_of_mem _ member)
    rw [List.any_cons]
    apply listed.bind
    apply here.bind
    cases found : (d.list dir).any fun name => (d.get dir name).any fun file => file.refersTo body keep with
    | true => rfl
    | false =>
      rw [Bool.false_or]
      exact later

/-- Whatever the gateway and its operators have done to the spool, wherever they failed or crashed, and
    whatever else lies in it under names that do not parse, ruling files out by their names changes
    nothing. -/
theorem bodyReferenced_exact (start cfg : Cfg) (idle : ∀ t, start.threads t = .idle) (empty : start.disk = .empty)
    (reachable : Reachable Cfg.happens (fun _ _ => True) start cfg) (d : Disk) (beside : cfg.disk.Beside d)
    (body keep : Name) (clock : Instant) :
    Prog.run (calm clock) (bodyReferenced body keep bodyDirs).run d = (.ok (d.fullScan body keep), d) := by
  have careful : start.Careful := by
    constructor
    · rw [empty]
      exact Disk.kept_empty
    · intro t
      rw [idle t]
      trivial
  have kept : cfg.disk.Kept := by
    have all := reachable.invariant Cfg.Careful careful fun _ _ _ careful _ happens => careful.happens happens
    exact all.kept
  exact bodyReferenced_reads kept beside bodyDirs fun _ member => member

end Scan

def quietRun : List Decision :=
  .begin 0 sampleData sampleClock :: steps 0 15 ++ .begin 0 (.claim (sampleName ['2'])) sampleClock :: steps 0 1

/-- Two envelopes of one transaction, one of them claimed, and a note that somebody left in the queue. -/
def littered : List Occurrence :=
  .foreign .ready "notes".toList (some (.raw [])) :: (quietRun ++ steps 0 1).map .own

def litteredDisk (cfg : Cfg) : Disk := cfg.disk.put .quarantine "backup".toList (.json (sampleEnvelope ['3']))

theorem bodyReferenced_exact_sample : ∃ cfg, play Cfg.happens (fun _ _ => true) .emptySpool littered = some cfg ∧
    (cfg.threads 0).isHolding (Op.bodyName sampleTxn) = true ∧ (litteredDisk cfg).fullScan "B1.2.eml".toList [] = true ∧
    Prog.run (calm sampleClock) (bodyReferenced "B1.2.eml".toList [] bodyDirs).run (litteredDisk cfg) =
      (.ok true, litteredDisk cfg) := by
  have outcome : (play Cfg.happens (fun _ _ => true) .emptySpool littered).any (fun cfg =>
      (cfg.threads 0).isHolding (Op.bodyName sampleTxn) && (litteredDisk cfg).fullScan "B1.2.eml".toList []) = true := by decide
  obtain ⟨cfg, played, both⟩ := (Option.any_eq_true _ _).mp outcome
  obtain ⟨holding, found⟩ := (Bool.and_eq_true_iff).mp both
  have reachable : Reachable Cfg.happens (fun _ _ => True) .emptySpool cfg :=
    reachable_of_play (fun _ _ _ => trivial) littered played
  have beside : cfg.disk.Beside (litteredDisk cfg) := by
    intro dir name live parsed
    unfold litteredDisk
    rw [Disk.get_put, if_neg]
    intro same
    rw [same.1, same.2] at parsed
    exact absurd parsed (by decide)
  have answered := bodyReferenced_exact .emptySpool cfg (fun _ => rfl) rfl reachable (litteredDisk cfg) beside
    "B1.2.eml".toList [] sampleClock
  rw [found] at answered
  exact ⟨cfg, played, holding, found, answered⟩

end Mailgw.Queue
