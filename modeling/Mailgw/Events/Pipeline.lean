import Mailgw.Events.Client

namespace Mailgw.Events

open Calls

inductive Role where
  | sender | worker | closer
  deriving Repr, DecidableEq

def Body.role : Body → Role
  | .send _ => .sender
  | .work | .drainOut => .worker
  | .close | .sweep => .closer

/-- How far a goroutine is, for the record only: the event it has in hand and whether that is
    written to disk or acknowledged, whether it has seen the shutdown signalled, waited for the
    workers, left them, or found the buffer empty. -/
structure Stage where
  role : Role
  hand : List Event := []
  written : Bool := false
  acked : Bool := false
  signalled : Bool := false
  waited : Bool := false
  left : Bool := false
  emptied : Bool := false
  deriving Repr, DecidableEq

def SpillRecord.event (record : SpillRecord) : Event := ⟨record.kind, record.url, some record.body⟩

def isAck : Except Chars Nat → Bool
  | .ok status => decide (200 ≤ status ∧ status < 300)
  | .error _ => false

def Stage.after : (c : ClientCall) → c.Answer → Stage → Stage
  | .offer _, true, g => { g with hand := [] }
  | .take, some env, g | .takeNow, some env, g => { g with hand := [env] }
  | .takeNow, none, g => { g with emptied := decide (g.role = .closer) }
  | .count counter _, _, g => if counter.isFinal then { g with hand := [], written := false, acked := false } else g
  | .post _ _, answer, g => { g with acked := isAck answer }
  | .once, false, g => { g with signalled := true }
  | .closeDone, _, g => { g with signalled := true }
  | .wait, _, g => { g with waited := true }
  | .workerDone, _, g => { g with left := true }
  | .write _ _, true, g => { g with written := true }
  | _, _, g => g

/-- An event in hand is offered, posted, or counted once, as spilled exactly when it has been written
    and as sent exactly when it has been acknowledged. -/
def Stage.fits (g : Stage) : ClientCall → Prop
  | .offer env => g.hand = [env] ∧ g.written = false ∧ g.acked = false
  | .take | .takeNow => g.hand = [] ∧ g.written = false ∧ g.acked = false ∧ g.left = false
  | .count counter env => counter.isFinal = true →
    g.hand = [env] ∧ g.written = decide (counter = .spilled) ∧ g.acked = decide (counter = .sent)
  | .post env body => g.hand = [env] ∧ env.json = some body ∧ g.acked = false
  | .write _ record => g.hand = [record.event] ∧ g.written = false
  | .workerDone => g.role = .worker ∧ g.hand = [] ∧ g.left = false
  | .closeDone => g.role = .closer
  | .onceDone | .wait => g.signalled = true
  | _ => True

example (env : Event) : ({ role := .sender, hand := [env] } : Stage).fits (.offer env) := by simp [Stage.fits]

def Stage.may (c : ClientCall) (g : Stage) : Prop := g.emptied = false ∧ g.fits c

def Stage.can : (c : ClientCall) → c.Answer → Prop
  | .take, some env | .takeNow, some env => env.json.isSome = true
  | _, _ => True

def clientStages : Stages ClientCall ClientCall.Answer Stage := ⟨Stage.may, Stage.can, Stage.after⟩

section Programs
variable {opts : Options} {env : Event} {body : Chars} {g : Stage}

/-- The goroutine has one event in hand, and nothing of it is on disk or in the log. -/
structure Stage.Holds (g : Stage) (env : Event) : Prop where
  hand : g.hand = [env]
  unwritten : g.written = false
  unacked : g.acked = false
  open_ : g.emptied = false

def Stage.rid (g : Stage) : Stage := { g with hand := [], written := false, acked := false }

theorem Stage.Holds.count (holds : g.Holds env) {counter : Counter} (final : counter.isFinal = true)
    (plain : counter ≠ .spilled) (unsent : counter ≠ .sent) :
    Follows clientStages (fun _ g' => g' = g.rid) (act (.count counter env)) g := by
  constructor
  · exact ⟨holds.open_, fun _ => ⟨holds.hand, by simp [holds.unwritten, plain], by simp [holds.unacked, unsent]⟩⟩
  · intro answer _
    simp [Follows, clientStages, Stage.after, final, Stage.rid]

theorem spill_follows (spills : opts.spills = true) (json : env.json = some body) (reason : Chars) (holds : g.Holds env) :
    Follows clientStages (fun _ g' => g' = g.rid) (Client.spill opts env body reason) g := by
  have whole : env = ⟨env.kind, env.url, some body⟩ := by rw [← json]
  simp only [Client.spill, spills, Bool.not_true, Bool.false_eq_true, ite_false]
  refine Follows.ask ⟨holds.open_, trivial⟩ ?_
  intro made _
  cases made with
  | false => exact holds.count rfl (by decide) (by decide)
  | true =>
    refine Follows.ask ⟨holds.open_, trivial⟩ ?_
    intro time _
    refine Follows.ask ⟨holds.open_, trivial⟩ ?_
    intro stamp _
    refine Follows.ask ⟨holds.open_, trivial⟩ ?_
    intro seq _
    apply Follows.ask
    · exact ⟨holds.open_, holds.hand.trans (congrArg (fun e => [e]) whole), holds.unwritten⟩
    · intro written _
      cases written with
      | false => exact holds.count rfl (by decide) (by decide)
      | true => exact ⟨⟨holds.open_, fun _ => ⟨holds.hand, rfl, holds.unacked⟩⟩, fun _ _ => rfl⟩

theorem Stage.Holds.refused (holds : g.Holds env) {answer : Except Chars Nat} (refused : isAck answer = false) :
    g.after (.post env body) answer = g := by
  have unacked := holds.unacked
  obtain ⟨role, hand, written, acked, signalled, waited, left, emptied⟩ := g
  simp only at unacked
  simp [Stage.after, refused, unacked]

theorem attempt_follows (spills : opts.spills = true) (json : env.json = some body) (holds : g.Holds env)
    {again : Chars → Client Unit}
    (rest : ∀ lastErr, Follows clientStages (fun _ g' => g' = g.rid) (again lastErr) g) :
    Follows clientStages (fun _ g' => g' = g.rid) (Client.attempt opts env body again) g := by
  refine Follows.ask ⟨holds.open_, holds.hand, json, holds.unacked⟩ ?_
  intro answer _
  cases answer with
  | error err =>
    show Follows clientStages _ (again err) (g.after (.post env body) (.error err))
    rw [holds.refused rfl]
    exact rest err
  | ok status =>
    dsimp only
    split
    · rename_i success
      have acked : isAck (.ok status) = true := decide_eq_true success
      exact ⟨⟨holds.open_, fun _ => ⟨holds.hand, holds.unwritten, acked⟩⟩, fun _ _ => rfl⟩
    · rename_i failure
      have refused : isAck (.ok status) = false := decide_eq_false failure
      show Follows clientStages _ _ (g.after (.post env body) (.ok status))
      rw [holds.refused refused]
      split
      · apply Follows.ask
        · exact ⟨holds.open_, by simp [Stage.fits, Counter.isFinal]⟩
        · intro _ _
          exact spill_follows spills json _ holds
      · exact rest _

theorem attemptFrom_follows (spills : opts.spills = true) (json : env.json = some body) (made left : Nat)
    (lastErr : Chars) (holds : g.Holds env) :
    Follows clientStages (fun _ g' => g' = g.rid) (Client.attemptFrom opts env body made left lastErr) g := by
  induction left generalizing made lastErr with
  | zero => exact spill_follows spills json lastErr holds
  | succ left ih =>
    have posted := attempt_follows spills json holds (fun err => ih (made + 1) err)
    simp only [Client.attemptFrom]
    refine Follows.ask ⟨holds.open_, trivial⟩ ?_
    intro expired _
    cases expired with
    | some err => exact spill_follows spills json _ holds
    | none =>
      dsimp only
      split
      · apply Follows.ask
        · exact ⟨holds.open_, by simp [Stage.fits, Counter.isFinal]⟩
        · intro _ _
          refine Follows.ask ⟨holds.open_, trivial⟩ ?_
          intro _ _
          exact posted
      · exact posted

theorem deliver_follows (spills : opts.spills = true) (json : env.json.isSome = true) (holds : g.Holds env) :
    Follows clientStages (fun _ g' => g' = g.rid) (Client.deliver opts env) g := by
  unfold Client.deliver
  cases encoded : env.json with
  | none => simp [encoded] at json
  | some body => exact attemptFrom_follows spills encoded 0 _ _ holds

theorem send_follows (url : env.url ≠ []) (holds : g.Holds env) :
    Follows clientStages (fun _ g' => g' = g.rid) (Client.send env) g := by
  simp only [Client.send, url, ite_false]
  refine Follows.ask ⟨holds.open_, trivial⟩ ?_
  intro closed _
  cases closed with
  | true => exact holds.count rfl (by decide) (by decide)
  | false =>
    apply Follows.ask
    · exact ⟨holds.open_, by simp [Stage.fits, Counter.isFinal]⟩
    · intro _ _
      apply Follows.ask
      · exact ⟨holds.open_, holds.hand, holds.unwritten, holds.unacked⟩
      · intro taken _
        cases taken with
        | true =>
          have same : { g with hand := [] } = g.rid := by simp [Stage.rid, holds.unwritten, holds.unacked]
          exact same
        | false => exact holds.count rfl (by decide) (by decide)

def Body.Ready : Body → Stage → Prop
  | .send env, g => env.url ≠ [] ∧ g = { role := .sender, hand := [env] }
  | .work, g | .drainOut, g => g = { role := .worker }
  | .close, g => g = { role := .closer }
  | .sweep, g => g = { role := .closer, signalled := true, waited := true }

def goesOn : Option Body → Stage → Prop
  | some b, g => b.Ready g
  | none, g => g.hand = [] ∧ g.written = false ∧ g.acked = false ∧ (g.role = .closer → g.waited = true ∧ g.emptied = true)

theorem body_follows (spills : opts.spills = true) (b : Body) (ready : b.Ready g) :
    Follows clientStages goesOn (b.prog opts) g := by
  cases b with
  | send env =>
    obtain ⟨url, rfl⟩ := ready
    apply Follows.bind
    apply (send_follows url ⟨rfl, rfl, rfl, rfl⟩).mono
    intro _ g' same
    subst same
    exact ⟨rfl, rfl, rfl, fun impossible => by cases impossible⟩
  | work =>
    obtain rfl : g = { role := .worker } := ready
    apply Follows.ask
    · exact ⟨rfl, rfl, rfl, rfl, rfl⟩
    · intro found can
      cases found with
      | none => exact rfl
      | some env =>
        apply Follows.bind
        apply (deliver_follows spills can ⟨rfl, rfl, rfl, rfl⟩).mono
        intro _ g' same
        exact same
  | drainOut =>
    obtain rfl : g = { role := .worker } := ready
    apply Follows.ask
    · exact ⟨rfl, rfl, rfl, rfl, rfl⟩
    · intro found can
      cases found with
      | none => exact ⟨⟨rfl, rfl, rfl, rfl⟩, fun _ _ => ⟨rfl, rfl, rfl, fun impossible => by cases impossible⟩⟩
      | some env =>
        apply Follows.bind
        apply (deliver_follows spills can ⟨rfl, rfl, rfl, rfl⟩).mono
        intro _ g' same
        exact same
  | close =>
    obtain rfl : g = { role := .closer } := ready
    refine Follows.ask ⟨rfl, trivial⟩ ?_
    intro first _
    cases first with
    | false => exact ⟨⟨rfl, rfl⟩, fun _ _ => rfl⟩
    | true =>
      refine Follows.ask ⟨rfl, trivial⟩ ?_
      intro _ _
      refine Follows.ask ⟨rfl, trivial⟩ ?_
      intro _ _
      refine Follows.ask ⟨rfl, rfl⟩ ?_
      intro _ _
      refine Follows.ask ⟨rfl, rfl⟩ ?_
      intro _ _
      exact ⟨⟨rfl, rfl⟩, fun _ _ => rfl⟩
  | sweep =>
    obtain rfl : g = { role := .closer, signalled := true, waited := true } := ready
    apply Follows.ask
    · exact ⟨rfl, rfl, rfl, rfl, rfl⟩
    · intro found _
      cases found with
      | none => exact ⟨rfl, rfl, rfl, fun _ => ⟨rfl, rfl⟩⟩
      | some env =>
        apply Follows.ask
        · exact ⟨rfl, fun _ => ⟨rfl, rfl, rfl⟩⟩
        · intro _ _
          exact rfl

end Programs

structure Goroutine where
  prog : Client (Option Body)
  stage : Stage

def Goroutine.role (g : Goroutine) : Role := g.stage.role

def Goroutine.ended (g : Goroutine) : Bool :=
  match g.prog with
  | .done none => true
  | _ => false

inductive Once where
  | fresh | running | finished
  deriving Repr, DecidableEq

/-- The client with everybody who works on it. `handed`, `acknowledged` and `ledger` only record:
    what Send was called with, what the log answered with a 2xx, and what was counted for which
    event. -/
structure Pipeline where
  channel : List Event := []
  closed : Bool := false
  shutdown : Bool := false
  done : Bool := false
  once : Once := .fresh
  running : Nat
  spillSeq : Nat := 0
  files : List (Chars × SpillRecord) := []
  goroutines : List Goroutine
  handed : List Event := []
  acknowledged : List Event := []
  ledger : List (Counter × Event) := []

inductive Turn where
  | send (env : Event)
  | close
  | step (goroutine : Nat) (answers : (c : ClientCall) → c.Answer)

namespace Pipeline

def mayAnswer (opts : Options) (s : Pipeline) : (c : ClientCall) → c.Answer → Prop
  | .loadClosed, closed => closed = s.closed
  | .offer _, taken => taken = decide (s.channel.length < opts.bufferSize)
  | .take, some env => s.channel.head? = some env
  | .take, none => s.done = true
  | .takeNow, found => found = s.channel.head?
  | .once, first => s.once = if first then .fresh else .finished
  | .wait, _ => s.running = 0
  | .expired, err => err.isSome = true → s.shutdown = true
  | .nextSpill, seq => seq = s.spillSeq + 1
  | _, _ => True

instance (opts : Options) (s : Pipeline) (c : ClientCall) (answer : c.Answer) :
    Decidable (s.mayAnswer opts c answer) := by
  cases c <;> try cases answer
  all_goals unfold mayAnswer; infer_instance

def effect (s : Pipeline) : (c : ClientCall) → c.Answer → Pipeline
  | .offer env, true => { s with channel := s.channel ++ [env] }
  | .take, some _ | .takeNow, some _ => { s with channel := s.channel.tail }
  | .count counter env, _ => { s with ledger := (counter, env) :: s.ledger }
  | .storeClosed, _ => { s with closed := true }
  | .storeShutdown, _ => { s with shutdown := true }
  | .closeDone, _ => { s with done := true }
  | .once, true => { s with once := .running }
  | .onceDone, _ => { s with once := .finished }
  | .workerDone, _ => { s with running := s.running - 1 }
  | .post env _, answer =>
    { s with acknowledged := if isAck answer then env :: s.acknowledged else s.acknowledged }
  | .nextSpill, seq => { s with spillSeq := seq }
  | .write name record, true => { s with files := (name, record) :: s.files.filter (·.1 ≠ name) }
  | _, _ => s

example (s : Pipeline) (env : Event) : (effect s (.offer env) false).channel = s.channel := by simp [effect]

def settle (opts : Options) : Client (Option Body) → Client (Option Body)
  | .done (some b) => b.prog opts
  | p => p

def start (opts : Options) (b : Body) (hand : List Event) : Goroutine where
  prog := b.prog opts
  stage := { role := b.role, hand }

def new (opts : Options) : Pipeline where
  running := opts.senders
  goroutines := List.replicate opts.senders (start opts .work [])

def next (opts : Options) (s : Pipeline) : Turn → Option Pipeline
  | .send env =>
    some { s with goroutines := start opts (.send env) [env] :: s.goroutines, handed := env :: s.handed }
  | .close => some { s with goroutines := start opts .close [] :: s.goroutines }
  | .step i answers =>
    match s.goroutines[i]? with
    | some { prog := .call c rest, stage } =>
      if s.mayAnswer opts c (answers c) then
        some { s.effect c (answers c) with
          goroutines := s.goroutines.set i ⟨settle opts (rest (answers c)), stage.after c (answers c)⟩ }
      else none
    | _ => none

/-- Somebody is still going to look into the buffer: the workers have not been told to stop, or a
    Close is on its way. -/
def Watched (s : Pipeline) : Prop := s.done = false ∨ ∃ g ∈ s.goroutines, g.role = .closer ∧ g.ended = false

/-- The branches that go wrong are not taken: no event is put into a buffer nobody looks into any
    more, no event without an endpoint is handed over, and no spill takes another one's name. -/
def Safe (s : Pipeline) : Turn → Prop
  | .send env => env.url ≠ [] ∧ env.json.isSome = true
  | .close => True
  | .step i _ =>
    match s.goroutines[i]? with
    | some { prog := .call (.offer _) _, .. } => s.Watched
    | some { prog := .call (.write name _) _, .. } => name ∉ s.files.map Prod.fst
    | _ => True

def countedAs (s : Pipeline) (counter : Counter) : List Event :=
  (s.ledger.filter fun entry => entry.1 = counter).map Prod.snd

def settled (s : Pipeline) : List Event := (s.ledger.filter fun entry => entry.1.isFinal).map Prod.snd

/-- Close has returned, and so has every Send and every other Close. -/
def Returned (s : Pipeline) : Prop :=
  (∃ g ∈ s.goroutines, g.role = .closer) ∧ ∀ g ∈ s.goroutines, g.role ≠ .worker → g.ended = true

/-- Every event handed over is counted once, as sent exactly those that were acknowledged, and every
    spilled one has a file of its own. -/
def Accounted (s : Pipeline) : Prop :=
  s.settled.Perm s.handed ∧ s.acknowledged.Perm (s.countedAs .sent) ∧
    (s.files.map fun file => file.2.event).Perm (s.countedAs .spilled)

end Pipeline

end Mailgw.Events
