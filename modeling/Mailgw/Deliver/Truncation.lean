import Mailgw.Deliver.Client

namespace Mailgw.Deliver

open Calls

abbrev Event := Σ request : Net, request.Answer

def Net.Aside : Net → Prop
  | .data _ | .write _ _ | .close _ | .closeWithResponse _ => False
  | _ => True

def Net.Apart : Net → Prop
  | .rcpt _ _ => False
  | request => request.Aside

theorem Net.Apart.aside {request : Net} (apart : request.Apart) : request.Aside := by
  cases request <;> first | exact apart | trivial

namespace Event

def Aside (event : Event) : Prop := event.1.Aside

def Terminates (event : Event) : Prop :=
  match event.1 with
  | .close _ | .closeWithResponse _ => True
  | _ => False

def Opens (event : Event) : Prop :=
  match event with
  | ⟨.data _, none⟩ => True
  | _ => False

def Fails (event : Event) : Prop :=
  match event with
  | ⟨.write _ chunk, answer⟩ => answer.failure chunk ≠ none
  | _ => False

def taken (event : Event) : Bytes :=
  match event with
  | ⟨.write _ chunk, answer⟩ => chunk.take answer.taken
  | _ => []

theorem Aside.not_terminates {event : Event} (aside : event.Aside) : ¬ event.Terminates := by
  obtain ⟨request, answer⟩ := event
  cases request <;> simp_all [Aside, Net.Aside, Terminates]

theorem Aside.not_opens {event : Event} (aside : event.Aside) : ¬ event.Opens := by
  obtain ⟨request, answer⟩ := event
  cases request <;> simp_all [Aside, Net.Aside, Opens]

theorem Aside.taken {event : Event} (aside : event.Aside) : event.taken = [] := by
  obtain ⟨request, answer⟩ := event
  cases request <;> simp_all [Aside, Net.Aside, Event.taken]

end Event

def Terminated (events : List Event) : Prop := ∃ event ∈ events, event.Terminates

def Opened (events : List Event) : Prop := ∃ event ∈ events, event.Opens

def Unhurt (body : Reader) (events : List Event) : Prop := body.Sound ∧ ∀ event ∈ events, ¬ event.Fails

def received (events : List Event) : Bytes := events.flatMap Event.taken

def Quiet (events : List Event) : Prop := ∀ event ∈ events, event.Aside

def Framed (body : Reader) (events : List Event) : Prop :=
  Quiet events ∨ ∃ before during after socket accepted res res',
    events = before ++ (during ++ after) ∧ Quiet before ∧ Quiet after ∧
      Trace (sendBody socket body accepted res) during res'

section Frames
variable {body : Reader} {events before during after : List Event}

theorem Quiet.append (first : Quiet before) (second : Quiet after) : Quiet (before ++ after) := by
  intro event member
  rcases List.mem_append.mp member with early | late
  · exact first event early
  · exact second event late

theorem Quiet.nil : Quiet [] := by
  intro event member
  cases member

theorem Quiet.received (quiet : Quiet events) : Deliver.received events = [] := by
  rw [Deliver.received, List.flatMap_eq_nil_iff]
  exact fun event member => (quiet event member).taken

theorem Framed.after_quiet (quiet : Quiet before) (framed : Framed body events) : Framed body (before ++ events) := by
  rcases framed with calm | ⟨early, during, late, socket, accepted, res, res', rfl, first, last, run⟩
  · exact .inl (quiet.append calm)
  · refine .inr ⟨before ++ early, during, late, socket, accepted, res, res', ?_, quiet.append first, last, run⟩
    simp only [List.append_assoc]

theorem Framed.before_quiet (framed : Framed body events) (quiet : Quiet after) : Framed body (events ++ after) := by
  rcases framed with calm | ⟨early, during, late, socket, accepted, res, res', rfl, first, last, run⟩
  · exact .inl (calm.append quiet)
  · refine .inr ⟨early, during, late ++ after, socket, accepted, res, res', ?_, first, last.append quiet, run⟩
    simp only [List.append_assoc]

end Frames

def Calm {α : Type} (p : Client α) : Prop := p.All Net.Aside

def Still {α : Type} (p : Client α) : Prop := p.All Net.Apart

section Calms
variable {α : Type}

theorem Calm.quiet {p : Client α} {events : List Event} {value : α} (calm : Calm p) (run : Trace p events value) :
    Quiet events :=
  run.all calm

theorem Calm.bind {β : Type} {p : Client α} {f : α → Client β} (first : Calm p) (rest : ∀ value, Calm (f value)) :
    Calm (p >>= f) := Prog.All.bind first rest

theorem Calm.done (value : α) : Calm (Prog.done value : Client α) := trivial

theorem Calm.call {request : Net} {next : request.Answer → Client α}
    (aside : request.Aside) (rest : ∀ answer, Calm (next answer)) :
    Calm (Prog.call request next) := ⟨aside, rest⟩

theorem Still.calm {p : Client α} (still : Still p) : Calm p :=
  still.mono fun _ apart => apart.aside

theorem Still.bind {β : Type} {p : Client α} {f : α → Client β} (first : Still p) (rest : ∀ value, Still (f value)) :
    Still (p >>= f) := Prog.All.bind first rest

theorem Still.done (value : α) : Still (Prog.done value : Client α) := trivial

theorem Still.call {request : Net} {next : request.Answer → Client α}
    (apart : request.Apart) (rest : ∀ answer, Still (next answer)) :
    Still (Prog.call request next) := ⟨apart, rest⟩

theorem Still.ite {condition : Prop} [Decidable condition] {p q : Client α} (yes : Still p) (no : Still q) :
    Still (if condition then p else q) := by
  split
  · exact yes
  · exact no

theorem calm_offer (socket : Socket) (rcpts : List Chars) (res : Result) : Calm (offer socket rcpts res) := by
  induction rcpts generalizing res with
  | nil => exact Calm.done _
  | cons addr rest ih =>
    apply Calm.call
    · trivial
    intro answer
    cases answer with
    | some err => exact ih _
    | none => exact (ih _).bind fun _ => Calm.done _

theorem still_quietQuit (socket : Socket) : Still (quietQuit socket) := by
  apply Still.call
  · trivial
  intro answer
  cases answer with
  | none => exact Still.done ()
  | some err => exact ⟨trivial, fun _ => trivial⟩

theorem still_get (pool : Pool) (relay : Relay) (opts : Options) : Still (pool.get relay opts) := by
  apply Still.call
  · trivial
  intro answer
  cases answer with
  | none => exact Still.done _
  | some conn =>
    apply Still.call
    · trivial
    intro now
    apply Still.ite
    · exact (still_quietQuit _).bind fun _ => Still.done _
    · apply Still.call
      · trivial
      intro alive
      cases alive with
      | none => exact Still.done _
      | some err => exact ⟨trivial, fun _ => trivial⟩

theorem still_acquire (relay : Relay) (opts : Options) (res : Result) : Still (acquire relay opts res) := by
  unfold acquire
  split
  · exact Still.done _
  · apply (still_get _ _ _).bind
    intro got
    cases got <;> exact Still.done _

theorem still_connectPlain (relay : Relay) (opts : Options) (res : Result) : Still (connectPlain relay opts res) := by
  apply Still.call
  · trivial
  intro answer
  cases answer with
  | error err => exact Still.done _
  | ok socket =>
    apply Still.call
    · trivial
    intro greeting
    cases greeting with
    | none => exact Still.done _
    | some err => exact ⟨trivial, fun _ => trivial⟩

theorem still_connect (relay : Relay) (opts : Options) (res : Result) : Still (connect relay opts res) := by
  unfold connect
  split
  · exact still_connectPlain relay opts res
  · apply Still.call
    · trivial
    intro answer
    cases answer with
    | error err => exact Still.done _
    | ok socket =>
      apply Still.call
      · trivial
      intro upgrade
      cases upgrade with
      | none =>
        apply Still.call
        · trivial
        intro greeting
        cases greeting with
        | none => exact Still.done _
        | some err => exact ⟨trivial, fun _ => trivial⟩
      | some err =>
        split
        · exact Still.done _
        · exact still_connectPlain relay opts _

theorem still_authenticate (relay : Relay) (socket : Socket) (res : Result) : Still (authenticate relay socket res) := by
  unfold authenticate
  split
  · exact Still.done _
  apply Still.ite
  · exact Still.done _
  apply Still.call
  · trivial
  intro offered
  apply Still.ite
  · exact Still.done _
  apply Still.call
  · trivial
  intro answer
  cases answer <;> exact Still.done _

theorem still_probe (needed : Bool) (socket : Socket) (name : Chars) : Still (probe needed socket name) := by
  cases needed with
  | true => exact ⟨trivial, fun _ => trivial⟩
  | false => exact Still.done _

theorem still_put (pool : Pool) (relay : Relay) (opts : Options) (socket : Socket) (messages : Int) :
    Still (pool.put relay opts socket messages) := by
  unfold Pool.put
  apply Still.ite
  · exact (still_quietQuit socket).bind fun _ => Still.done _
  · apply Still.call
    · trivial
    intro verdict
    apply Still.ite
    · exact (still_quietQuit socket).bind fun _ => Still.done _
    · exact Still.done _

theorem still_release (relay : Relay) (opts : Options) (socket : Socket) (res : Result) :
    Still (release relay opts socket res) := by
  unfold release
  split
  · exact (still_quietQuit socket).bind fun _ => Still.done _
  · split
    · exact (still_put _ _ _ _ _).bind fun _ => Still.done _
    · exact (still_quietQuit socket).bind fun _ => Still.done _

end Calms

theorem Written.taken_all {answer : Written} {chunk : Bytes} (fine : answer.failure chunk = none) :
    answer.taken = chunk.length := by
  unfold Written.failure at fine
  split at fine
  · cases fine
  split at fine
  · cases fine
  split at fine
  · cases fine
  · rename_i same
    exact not_not.mp same

@[simp] theorem received_nil : received [] = [] := rfl

@[simp] theorem received_cons (event : Event) (events : List Event) :
    received (event :: events) = event.taken ++ received events := rfl

@[simp] theorem received_append (first second : List Event) :
    received (first ++ second) = received first ++ received second := by
  simp [received]

theorem copy_run {socket : Socket} {broken : Option Break} {chunks : List Bytes} {events : List Event}
    {err : Option Chars} (run : Trace (copy socket broken chunks) events err) :
    (∀ event ∈ events, ¬ event.Terminates ∧ ¬ event.Opens) ∧
      (err = none ↔ broken = none ∧ ∀ event ∈ events, ¬ event.Fails) ∧
      (err = none → received events = chunks.flatten) := by
  induction chunks generalizing events with
  | nil =>
    obtain ⟨rfl, rfl⟩ := run.done_inv
    cases broken <;> simp [received]
  | cons chunk rest ih =>
    simp only [copy] at run
    split at run
    · rename_i empty
      obtain ⟨calm, ended, given⟩ := ih run
      refine ⟨calm, ended, fun finished => ?_⟩
      rw [given finished, empty]
      simp
    · obtain ⟨answer, later, rfl, rerun⟩ := run.ask_inv
      cases failed : answer.failure chunk with
      | some fault =>
        simp only [failed] at rerun
        obtain ⟨rfl, rfl⟩ := rerun.done_inv
        simp [Event.Terminates, Event.Opens, Event.Fails, failed]
      | none =>
        simp only [failed] at rerun
        obtain ⟨calm, ended, given⟩ := ih rerun
        have whole : chunk.take answer.taken = chunk := by
          apply List.take_of_length_le
          exact Nat.le_of_eq (Written.taken_all failed).symm
        refine ⟨?_, ?_, fun finished => ?_⟩
        · intro event member
          rcases List.mem_cons.mp member with rfl | member
          · simp [Event.Terminates, Event.Opens]
          · exact calm event member
        · simp [ended, Event.Fails, failed]
        · rw [List.flatten_cons, ← given finished, received_cons]
          exact congrArg (· ++ received later) whole

/-- The DATA phase sends its terminator whenever the relay let it begin. -/
theorem sendBody_run {socket : Socket} {body : Reader} {accepted : List Chars} {res res' : Result}
    {events : List Event} (run : Trace (sendBody socket body accepted res) events res') :
    (Terminated events ↔ Opened events) ∧
      (Opened events → Unhurt body events → received events = body.content) := by
  obtain ⟨answer, later, rfl, phase⟩ := run.ask_inv
  cases answer with
  | some err =>
    obtain ⟨rfl, rfl⟩ := phase.done_inv
    simp [Terminated, Opened, Event.Terminates, Event.Opens]
  | none =>
    obtain ⟨copied, rest, outcome, rfl, copying, closing⟩ := Trace.bind_inv phase
    obtain ⟨calm, ended, given⟩ := copy_run copying
    have opened : Opened (⟨.data socket, none⟩ :: (copied ++ rest)) :=
      ⟨⟨.data socket, none⟩, List.mem_cons_self, trivial⟩
    have closed : ∃ request answer, rest = [⟨request, answer⟩] ∧ Event.Terminates ⟨request, answer⟩ := by
      cases outcome with
      | some err =>
        obtain ⟨answer, later, rfl, tail⟩ := closing.ask_inv
        obtain ⟨rfl, -⟩ := tail.done_inv
        exact ⟨_, _, rfl, trivial⟩
      | none =>
        obtain ⟨answer, later, rfl, tail⟩ := closing.ask_inv
        cases answer with
        | error err =>
          obtain ⟨rfl, -⟩ := tail.done_inv
          exact ⟨_, _, rfl, trivial⟩
        | ok status =>
          obtain ⟨rfl, -⟩ := tail.done_inv
          exact ⟨_, _, rfl, trivial⟩
    obtain ⟨request, answer, rfl, terminates⟩ := closed
    refine ⟨⟨fun _ => opened, fun _ => ⟨_, by simp, terminates⟩⟩, fun _ unhurt => ?_⟩
    have finished : outcome = none := by
      apply ended.mpr
      exact ⟨unhurt.1, fun event member => unhurt.2 event (by simp [member])⟩
    have nothing : Event.taken ⟨request, answer⟩ = [] := by
      cases request <;> simp_all [Event.Terminates, Event.taken]
    rw [unhurt.1.content_eq, Reader.readable, ← given finished]
    simp only [received_cons, received_append, received_nil, nothing, List.append_nil]
    rfl

theorem transaction_framed {socket : Socket} {msg : Message} {res res' : Result} {events : List Event}
    (run : Trace (transaction socket msg res) events res') : Framed msg.body events := by
  obtain ⟨first, rest, utf8, rfl, probing, probed⟩ := Trace.bind_inv run
  apply Framed.after_quiet ((still_probe _ _ _).calm.quiet probing)
  obtain ⟨second, rest, body8Bit, rfl, probing', asking⟩ := Trace.bind_inv probed
  apply Framed.after_quiet ((still_probe _ _ _).calm.quiet probing')
  obtain ⟨answer, rest, rfl, answered⟩ := asking.ask_inv
  have begun : Quiet [⟨.mail socket msg.mailFrom { utf8, body8Bit }, answer⟩] := by
    intro event member
    rw [List.mem_singleton.mp member]
    trivial
  apply Framed.after_quiet begun
  cases answer with
  | some err =>
    obtain ⟨rfl, -⟩ := answered.done_inv
    exact .inl Quiet.nil
  | none =>
    obtain ⟨offered, rest, ⟨accepted, res⟩, rfl, offering, decided⟩ := Trace.bind_inv answered
    apply Framed.after_quiet ((calm_offer _ _ _).quiet offering)
    dsimp only at decided
    split at decided
    · obtain ⟨rfl, -⟩ := decided.done_inv
      exact .inl Quiet.nil
    · exact .inr ⟨[], rest, [], socket, accepted, res, res', by simp, Quiet.nil, Quiet.nil, decided⟩

theorem session_framed {relay : Relay} {opts : Options} {socket : Socket} {msg : Message} {res : Result}
    {out : Option Result} {events : List Event}
    (run : Trace (transaction socket msg res >>= fun res => some <$> release relay opts socket res) events out) :
    Framed msg.body events := by
  obtain ⟨first, rest, res, rfl, sending, releasing⟩ := Trace.bind_inv run
  apply (transaction_framed sending).before_quiet
  exact ((still_release _ _ _ _).calm.bind fun _ => Calm.done _).quiet releasing

theorem deliver_framed {relay : Relay} {msg : Message} {opts : Options} {out : Option Result} {events : List Event}
    (run : Trace (deliver relay msg opts) events out) : Framed msg.body events ∧ (out = none → Quiet events) := by
  obtain ⟨first, rest, acquired, rfl, acquiring, session⟩ := Trace.bind_inv run
  have calm := (still_acquire _ _ _).calm.quiet acquiring
  cases acquired with
  | again =>
    obtain ⟨rfl, -⟩ := session.done_inv
    have quiet := calm.append Quiet.nil
    exact ⟨.inl quiet, fun _ => quiet⟩
  | borrowed socket res =>
    refine ⟨(session_framed session).after_quiet calm, fun again => ?_⟩
    obtain ⟨_, _, _, _, _, releasing⟩ := Trace.bind_inv session
    obtain ⟨_, _, _, _, _, ended⟩ := Trace.bind_inv releasing
    cases again.symm.trans ended.done_inv.2
  | nothing =>
    obtain ⟨dialling, rest, ⟨res, connection⟩, rfl, connecting, opened⟩ := Trace.bind_inv session
    have calm := calm.append ((still_connect _ _ _).calm.quiet connecting)
    rw [← List.append_assoc]
    cases connection with
    | error err =>
      obtain ⟨rfl, rfl⟩ := opened.done_inv
      exact ⟨.inl (calm.append Quiet.nil), fun again => by cases again⟩
    | ok socket =>
      obtain ⟨proving, rest, ⟨res, verdict⟩, rfl, authenticating, decided⟩ := Trace.bind_inv opened
      have calm := calm.append ((still_authenticate _ _ _).calm.quiet authenticating)
      rw [← List.append_assoc]
      cases verdict with
      | some err =>
        obtain ⟨answer, later, rfl, ended⟩ := decided.ask_inv
        obtain ⟨rfl, rfl⟩ := ended.done_inv
        refine ⟨.inl (calm.append ?_), fun again => by cases again⟩
        intro event member
        rw [List.mem_singleton.mp member]
        trivial
      | none =>
        refine ⟨(session_framed decided).after_quiet calm, fun again => ?_⟩
        obtain ⟨_, _, _, _, _, releasing⟩ := Trace.bind_inv decided
        obtain ⟨_, _, _, _, _, ended⟩ := Trace.bind_inv releasing
        cases again.symm.trans ended.done_inv.2

theorem rounds_framed {relay : Relay} {msg : Message} {opts : Options} {res : Result} {events : List Event}
    (run : Rounds (deliver relay msg opts) events res) : Framed msg.body events := by
  induction run with
  | last trace => exact (deliver_framed trace).1
  | again trace _ ih => exact ih.after_quiet ((deliver_framed trace).2 rfl)

theorem Framed.terminated_iff {body : Reader} {events : List Event} (framed : Framed body events) :
    (Terminated events ↔ Opened events) ∧
      (Opened events → Unhurt body events → received events = body.content) := by
  rcases framed with quiet | ⟨before, during, after, socket, accepted, res, res', rfl, early, late, run⟩
  · have closed : ¬ Terminated events := fun ⟨event, member, ends⟩ => (quiet event member).not_terminates ends
    have unopened : ¬ Opened events := fun ⟨event, member, opens⟩ => (quiet event member).not_opens opens
    simp [closed, unopened]
  · obtain ⟨ended, given⟩ := sendBody_run run
    have terminated : Terminated (before ++ (during ++ after)) ↔ Terminated during := by
      constructor
      · rintro ⟨event, member, ends⟩
        simp only [List.mem_append] at member
        rcases member with member | member | member
        · exact absurd ends (early event member).not_terminates
        · exact ⟨event, member, ends⟩
        · exact absurd ends (late event member).not_terminates
      · rintro ⟨event, member, ends⟩
        exact ⟨event, by simp [member], ends⟩
    have opened : Opened (before ++ (during ++ after)) ↔ Opened during := by
      constructor
      · rintro ⟨event, member, opens⟩
        simp only [List.mem_append] at member
        rcases member with member | member | member
        · exact absurd opens (early event member).not_opens
        · exact ⟨event, member, opens⟩
        · exact absurd opens (late event member).not_opens
      · rintro ⟨event, member, opens⟩
        exact ⟨event, by simp [member], opens⟩
    refine ⟨by rw [terminated, opened, ended], fun begun unhurt => ?_⟩
    simp only [received_append, early.received, late.received, List.nil_append, List.append_nil]
    apply given (opened.mp begun)
    exact ⟨unhurt.1, fun event member => unhurt.2 event (by simp [member])⟩

/-- Once the relay has agreed to receive the message the terminator goes out, whatever happens to
    the body; it marks a complete message exactly when nothing happened to it. -/
theorem terminator_withheld (relay : Relay) (msg : Message) (opts : Options) (res : Result) (events : List Event)
    (run : Rounds (deliver relay msg opts) events res) :
    ((Terminated events → Unhurt msg.body events) ↔ (¬ Opened events ∨ Unhurt msg.body events)) ∧
      (Terminated events → Unhurt msg.body events → received events = msg.body.content) := by
  obtain ⟨ended, given⟩ := (rounds_framed run).terminated_iff
  rw [ended]
  exact ⟨imp_iff_not_or, given⟩

section Sample

def sampleRelay : Relay := { name := "r".toList, exchange := "mx".toList, port := 25, tls := "none".toList }

def cutFile : Reader := { chunks := [[65, 66]], broken := some ⟨"input/output error".toList, [67, 68]⟩ }

def sampleMessage (file : Reader) : Message :=
  { mailFrom := "a@b".toList, rcpts := ["c@d".toList], body := messageBody [] "X: y\r\n".toList file }

def sampleOptions : Options := { localName := "gw".toList }

def sampleSocket : Socket := ⟨0, none⟩

/-- Dialled in the clear, the one recipient accepted, and every write of the head and of the first
    half of the file complete. -/
def sampleEvents (closing : Event) : List Event := [
  ⟨.dial "mx:25".toList, .ok sampleSocket⟩,
  ⟨.hello sampleSocket "gw".toList, none⟩,
  ⟨.mail sampleSocket "a@b".toList ⟨false, false⟩, none⟩,
  ⟨.rcpt sampleSocket "c@d".toList, none⟩,
  ⟨.data sampleSocket, none⟩,
  ⟨.write sampleSocket (encode "X: y\r\n".toList), ⟨6, none⟩⟩,
  ⟨.write sampleSocket [65, 66], ⟨2, none⟩⟩,
  closing,
  ⟨.quit sampleSocket, none⟩]

/-- A read error after some bytes are on the wire: the terminator follows, and the relay holds a
    strict prefix of the message as complete. -/
theorem truncated_prefix_committed : ∃ events res,
    Rounds (deliver sampleRelay (sampleMessage cutFile) sampleOptions) events res ∧ Opened events ∧
      Terminated events ∧ ¬ (sampleMessage cutFile).body.Sound ∧
      received events <+: (sampleMessage cutFile).body.content ∧
      received events ≠ (sampleMessage cutFile).body.content := by
  obtain ⟨res, run⟩ : ∃ res, Trace (deliver sampleRelay (sampleMessage cutFile) sampleOptions)
      (sampleEvents ⟨.close sampleSocket, none⟩) (some res) :=
    ⟨_, .call _ (.call _ (.call _ (.call _ (.call _ (.call _ (.call _ (.call _ (.call _ (.done _)))))))))⟩
  refine ⟨_, res, .last run, ?_, ?_, ?_⟩
  · exact ⟨⟨.data sampleSocket, none⟩, by simp [sampleEvents], trivial⟩
  · exact ⟨⟨.close sampleSocket, none⟩, by simp [sampleEvents], trivial⟩
  · decide

def wholeFile : Reader := { chunks := [[65, 66]] }

/-- The same attempt on a readable file. -/
theorem terminator_withheld_sample : ∃ events res,
    Rounds (deliver sampleRelay (sampleMessage wholeFile) sampleOptions) events res ∧ Terminated events ∧
      ((Terminated events → Unhurt (sampleMessage wholeFile).body events) ↔
        (¬ Opened events ∨ Unhurt (sampleMessage wholeFile).body events)) := by
  obtain ⟨res, run⟩ : ∃ res, Trace (deliver sampleRelay (sampleMessage wholeFile) sampleOptions)
      (sampleEvents ⟨.closeWithResponse sampleSocket, .ok []⟩) (some res) :=
    ⟨_, .call _ (.call _ (.call _ (.call _ (.call _ (.call _ (.call _ (.call _ (.call _ (.done _)))))))))⟩
  refine ⟨_, res, .last run, ?_, (terminator_withheld _ _ _ _ _ (.last run)).1⟩
  exact ⟨⟨.closeWithResponse sampleSocket, .ok []⟩, by simp [sampleEvents], trivial⟩

end Sample

end Mailgw.Deliver
