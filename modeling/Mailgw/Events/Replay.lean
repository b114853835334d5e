import Mathlib.Data.Char
import Mathlib.Data.List.Lex
import Mathlib.Data.List.Sort
import Mailgw.Calls.Program
import Mailgw.Events.ParseDelivery
import Mailgw.Text.Decimal

namespace Mailgw.Events

open Calls

structure SpillRecord where
  kind : Chars
  url : Chars
  reason : Chars := []
  at_ : Chars := []
  body : Chars
  deriving Repr, DecidableEq

inductive Folder where
  | spill | rejected
  deriving Repr, DecidableEq

inductive Content where
  | record (r : SpillRecord)
  | garbage
  deriving Repr, DecidableEq

structure SpillFile where
  content : Content
  modified : Nat
  deriving Repr, DecidableEq

/-- What a replayer asks of the clock (in nanoseconds), of the file system, of the log service and
    of its context. -/
inductive ReplayCall where
  | clock
  | readDir (dir : Folder)
  | readFile (name : Chars)
  | stat (dir : Folder) (name : Chars)
  | makeRejected
  | rename (name : Chars) (dir : Folder) (name' : Chars)
  | touch (name : Chars) (time : Nat)
  | remove (dir : Folder) (name : Chars)
  | post (url body : Chars)
  | cancelled
  deriving Repr, DecidableEq

/-- A failed call has no answer; a POST without an answer timed out or never got through. -/
abbrev ReplayCall.Answer : ReplayCall → Type
  | .clock => Nat
  | .readDir _ => Option (List Chars)
  | .readFile _ => Option Content
  | .stat _ _ => Option Nat
  | .post _ _ => Option Nat
  | .cancelled => Bool
  | _ => Bool

abbrev Replay := Prog ReplayCall ReplayCall.Answer

abbrev query (c : ReplayCall) : Replay c.Answer := Prog.ask c

def second : Nat := 1000000000

def tornGrace : Nat := 60 * second

def claimGrace : Nat := 15 * 60 * second

def maxConsecutiveFailures : Nat := 3

def suffixJson : Chars := ".json".toList

def claimMark : Chars := ".claim-".toList

/-- The name of a claim says who took it and when: renaming keeps a file's modification time. -/
def claimName (pid time : Nat) (name : Chars) : Chars :=
  claimMark ++ Nat.toDigits 10 pid ++ '-' :: Nat.toDigits 10 time ++ '-' :: name

def cutDash (s : Chars) : Option (Chars × Chars) :=
  match s.dropWhile (· ≠ '-') with
  | [] => none
  | _ :: rest => some (s.takeWhile (· ≠ '-'), rest)

/-- The original name contains dashes of its own, so exactly two fields come off the front. -/
def parseClaim (name : Chars) : Option (Chars × Int) :=
  if claimMark <+: name then
    match cutDash (name.drop claimMark.length) with
    | none => none
    | some (_, rest) =>
      match cutDash rest with
      | none => none
      | some (nanos, orig) =>
        match Text.parseInt64 nanos with
        | none => none
        | some time => if orig = [] then none else some (orig, time)
  else none

/-- A spilled event that waits to be replayed. Claimed files start with a dot. -/
def isPending (name : Chars) : Bool := suffixJson <:+ name && !(['.'] <+: name)

inductive Outcome where
  | deferred | replayed | rejected
  deriving Repr, DecidableEq

/-- The endpoint configured now for a kind of event; empty when there is none. -/
structure Replayer where
  pid : Nat
  urlFor : Chars → Chars
  retention : Nat := 0

namespace Replayer

def unclaim (claim name : Chars) : Replay Unit := do
  let _ ← query (.rename claim .spill name)
  return ()

def reclaimEach (cutoff : Int) : List Chars → Replay Unit
  | [] => return ()
  | name :: rest =>
    match parseClaim name with
    | none => reclaimEach cutoff rest
    | some (orig, time) => do
      if time < cutoff then
        unclaim name orig
        reclaimEach cutoff rest
      else reclaimEach cutoff rest

def reclaim : Replay Unit := do
  match ← query (.readDir .spill) with
  | none => return ()
  | some names =>
    let now ← query .clock
    reclaimEach ((now : Int) - claimGrace) names

def pending : Replay (Option (List Chars)) := do
  match ← query (.readDir .spill) with
  | none => return none
  | some names => return some ((names.filter isPending).insertionSort (· ≤ ·))

def reject (claim name : Chars) : Replay Outcome := do
  let made ← query .makeRejected
  if !made then return .deferred
  else
    let moved ← query (.rename claim .rejected name)
    if !moved then return .deferred
    else
      let now ← query .clock
      let _ ← query (.touch name now)
      return .rejected

def handleUnparseable (claim name : Chars) : Replay Outcome := do
  match ← query (.stat .spill claim) with
  | some modified =>
    let now ← query .clock
    if (now : Int) - modified < tornGrace then
      unclaim claim name
      return .deferred
    else reject claim name
  | none => reject claim name

def endpoint (r : Replayer) (record : SpillRecord) : Chars :=
  if r.urlFor record.kind ≠ [] then r.urlFor record.kind else record.url

def deliver (r : Replayer) (claim name : Chars) (record : SpillRecord) : Replay Outcome := do
  let url := r.endpoint record
  if url = [] then reject claim name
  else
    match ← query (.post url record.body) with
    | some status =>
      if 200 ≤ status ∧ status < 300 then
        let _ ← query (.remove .spill claim)
        return .replayed
      else if 400 ≤ status ∧ status < 500 then reject claim name
      else
        unclaim claim name
        return .deferred
    | none =>
      unclaim claim name
      return .deferred

/-- Claims a single spilled event and tries to deliver it. The rename is the lock. -/
def one (r : Replayer) (name : Chars) : Replay Outcome := do
  let now ← query .clock
  let claim := claimName r.pid now name
  let claimed ← query (.rename name .spill claim)
  if !claimed then return .deferred
  else
    match ← query (.readFile claim) with
    | none =>
      unclaim claim name
      return .deferred
    | some (.record record) =>
      if record.kind = [] then handleUnparseable claim name
      else r.deliver claim name record
    | some .garbage => handleUnparseable claim name

structure Tally where
  replayed : Nat := 0
  rejected : Nat := 0
  deferred : Nat := 0
  deriving Repr, DecidableEq

/-- Replays the listed events until the context ends or three in a row are deferred. -/
def replayEach (r : Replayer) (fails : Nat) (tally : Tally) : List Chars → Replay Tally
  | [] => return tally
  | name :: rest => do
    let cancelled ← query .cancelled
    if cancelled then return tally
    else
      match ← r.one name with
      | .replayed => r.replayEach 0 { tally with replayed := tally.replayed + 1 } rest
      | .rejected => r.replayEach 0 { tally with rejected := tally.rejected + 1 } rest
      | .deferred =>
        let tally := { tally with deferred := tally.deferred + 1 }
        if maxConsecutiveFailures ≤ fails + 1 then return tally
        else r.replayEach (fails + 1) tally rest

/-- Replays everything currently pending. Nothing is returned when the listing fails. -/
def runOnce (r : Replayer) : Replay (Option Tally) := do
  reclaim
  match ← pending with
  | none => return none
  | some names => some <$> r.replayEach 0 {} names

def sweepEach (cutoff : Int) : List Chars → Replay Unit
  | [] => return ()
  | name :: rest => do
    if suffixJson <:+ name then
      match ← query (.stat .rejected name) with
      | some modified =>
        if (modified : Int) < cutoff then
          let _ ← query (.remove .rejected name)
          sweepEach cutoff rest
        else sweepEach cutoff rest
      | none => sweepEach cutoff rest
    else sweepEach cutoff rest

def sweepRejected (r : Replayer) : Replay Unit := do
  if r.retention = 0 then return ()
  else
    match ← query (.readDir .rejected) with
    | none => return ()
    | some names =>
      let now ← query .clock
      sweepEach ((now : Int) - r.retention) names

end Replayer

end Mailgw.Events
