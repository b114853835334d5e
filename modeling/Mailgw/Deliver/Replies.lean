import Mailgw.Deliver.Truncation

namespace Mailgw.Deliver

open Calls

namespace Event

def rcptReply (event : Event) : Option (Option Failure) :=
  match event with
  | ⟨.rcpt _ _, answer⟩ => some answer
  | _ => none

def verdict (addr : Chars) (event : Event) : Option RcptResult :=
  match event with
  | ⟨.data _, some err⟩ => some (classify addr err)
  | ⟨.closeWithResponse _, .error err⟩ => some (classify addr err)
  | ⟨.closeWithResponse _, .ok status⟩ => some {
      addr
      outcome := .delivered
      code := 250
      message := if Text.trimSpace status = [] then "250 OK".toList else Text.trimSpace status }
  | _ => none

theorem rcptReply_of_apart {event : Event} (apart : event.1.Apart) : event.rcptReply = none := by
  obtain ⟨request, answer⟩ := event
  cases request <;> first | rfl | exact apart.elim

theorem verdict_of_aside {event : Event} (aside : event.1.Aside) (addr : Chars) : event.verdict addr = none := by
  obtain ⟨request, answer⟩ := event
  cases request <;> first | rfl | exact aside.elim

end Event

def rcptReplies (events : List Event) : List (Option Failure) := events.filterMap Event.rcptReply

def dataVerdict (events : List Event) (addr : Chars) : Option RcptResult := events.findSome? (Event.verdict addr)

def outcomeOf (accepted : Chars → RcptResult) (addr : Chars) (reply : Option Failure) : RcptResult :=
  match reply with
  | some err => classify addr err
  | none => accepted addr

def acceptedOutcome (events : List Event) (addr : Chars) : RcptResult :=
  (dataVerdict events addr).getD { addr, outcome := .deferred, code := 0, message := [] }

/-- The outcomes of the RCPT commands of an attempt, in their order: the reply of its own for one
    that was refused, the end of the DATA phase for one that was accepted. -/
def ownOutcomes (addrs : List Chars) (events : List Event) : List RcptResult :=
  List.zipWith (outcomeOf (acceptedOutcome events)) addrs (rcptReplies events)

structure Answered (addrs : List Chars) (events : List Event) (res : Result) : Prop where
  replies : (rcptReplies events).length = addrs.length
  outcomes : (ownOutcomes addrs events).Perm res.rcpts

section Runs
variable {addrs : List Chars} {events before after : List Event} {res res' : Result}

@[simp] theorem rcptReplies_append (first second : List Event) :
    rcptReplies (first ++ second) = rcptReplies first ++ rcptReplies second := by
  simp [rcptReplies]

theorem rcptReplies_apart (apart : ∀ event ∈ events, event.1.Apart) : rcptReplies events = [] := by
  rw [rcptReplies, List.filterMap_eq_nil_iff]
  exact fun event member => Event.rcptReply_of_apart (apart event member)

theorem dataVerdict_append (first second : List Event) (addr : Chars) :
    dataVerdict (first ++ second) addr = (dataVerdict first addr).or (dataVerdict second addr) := by
  simp [dataVerdict, List.findSome?_append]

theorem dataVerdict_quiet (quiet : Quiet events) (addr : Chars) : dataVerdict events addr = none := by
  rw [dataVerdict, List.findSome?_eq_none_iff]
  exact fun event member => Event.verdict_of_aside (quiet event member) addr

theorem Answered.surround (first : ∀ event ∈ before, event.1.Apart) (last : ∀ event ∈ after, event.1.Apart)
    (answered : Answered addrs events res) : Answered addrs (before ++ events ++ after) res := by
  have replies : rcptReplies (before ++ events ++ after) = rcptReplies events := by
    simp [rcptReplies_apart first, rcptReplies_apart last]
  have accepted : acceptedOutcome (before ++ events ++ after) = acceptedOutcome events := by
    funext addr
    have early := dataVerdict_quiet (fun event member => (first event member).aside) addr
    have late := dataVerdict_quiet (fun event member => (last event member).aside) addr
    simp only [acceptedOutcome, dataVerdict_append, early, late, Option.none_or, Option.or_none]
  refine ⟨by rw [replies, answered.replies], ?_⟩
  simp only [ownOutcomes, replies, accepted]
  exact answered.outcomes

theorem Answered.behind (first : ∀ event ∈ before, event.1.Apart) (answered : Answered addrs events res) :
    Answered addrs (before ++ events) res := by
  have whole := answered.surround first (fun event (member : event ∈ []) => by cases member)
  rwa [List.append_nil] at whole

theorem offer_run {socket : Socket} {accepted : List Chars} (run : Trace (offer socket addrs res) events (accepted, res')) :
    Quiet events ∧ (rcptReplies events).length = addrs.length ∧ ∃ refused, res' = { res with rcpts := res.rcpts ++ refused } ∧
      ∀ ofAccepted : Chars → RcptResult,
        (List.zipWith (outcomeOf ofAccepted) addrs (rcptReplies events)).Perm (refused ++ accepted.map ofAccepted) := by
  induction addrs generalizing res events accepted with
  | nil =>
    obtain ⟨rfl, same⟩ := run.done_inv
    cases same
    exact ⟨Quiet.nil, rfl, [], by simp, fun _ => by simp⟩
  | cons addr rest ih =>
    obtain ⟨answer, later, rfl, continued⟩ := run.ask_inv
    have calm : Quiet [⟨.rcpt socket addr, answer⟩] := by
      intro event member
      rw [List.mem_singleton.mp member]
      trivial
    cases answer with
    | some err =>
      obtain ⟨quiet, count, refused, rfl, outcomes⟩ := ih continued
      refine ⟨calm.append quiet, congrArg (· + 1) count, classify addr err :: refused, by simp, fun ofAccepted => ?_⟩
      exact (outcomes ofAccepted).cons _
    | none =>
      obtain ⟨first, last, ⟨accepted', res''⟩, rfl, offering, finished⟩ := Trace.bind_inv continued
      obtain ⟨rfl, same⟩ := finished.done_inv
      cases same
      obtain ⟨quiet, count, refused, rfl, outcomes⟩ := ih offering
      rw [List.append_nil]
      refine ⟨calm.append quiet, congrArg (· + 1) count, refused, rfl, fun ofAccepted => ?_⟩
      apply ((outcomes ofAccepted).cons _).trans
      rw [List.map_cons]
      exact List.perm_middle.symm

theorem still_copy (socket : Socket) (broken : Option Break) (chunks : List Bytes) :
    (copy socket broken chunks).All fun request => ∃ chunk, request = .write socket chunk := by
  induction chunks with
  | nil => exact trivial
  | cons chunk rest ih =>
    simp only [copy]
    split
    · exact ih
    · refine .ask ⟨chunk, rfl⟩ fun answer => ?_
      split
      · exact trivial
      · exact ih

/-- A DATA phase gives every accepted recipient the same outcome, or fails as a whole and says nothing about them. -/
theorem sendBody_ended {socket : Socket} {body : Reader} {accepted : List Chars}
    (run : Trace (sendBody socket body accepted res) events res') : rcptReplies events = [] ∧
      ((res'.err = res.err ∧ ∃ ofAccepted : Chars → RcptResult, (∀ addr, dataVerdict events addr = some (ofAccepted addr)) ∧
          res'.rcpts = res.rcpts ++ accepted.map ofAccepted) ∨
        res'.err ≠ none ∧ (∀ addr, dataVerdict events addr = none) ∧ res'.rcpts = res.rcpts) := by
  obtain ⟨answer, later, rfl, phase⟩ := run.ask_inv
  cases answer with
  | some err =>
    obtain ⟨rfl, rfl⟩ := phase.done_inv
    exact ⟨rfl, .inl ⟨rfl, fun addr => classify addr err, fun _ => rfl, rfl⟩⟩
  | none =>
    obtain ⟨copied, rest, outcome, rfl, copying, closing⟩ := Trace.bind_inv phase
    have writes := copying.all (still_copy _ _ _)
    have silent : rcptReplies copied = [] := by
      rw [rcptReplies, List.filterMap_eq_nil_iff]
      intro event member
      obtain ⟨chunk, write⟩ := writes event member
      obtain ⟨request, answer⟩ := event
      cases write
      rfl
    have open_ : ∀ addr, dataVerdict copied addr = none := by
      intro addr
      rw [dataVerdict, List.findSome?_eq_none_iff]
      intro event member
      obtain ⟨chunk, write⟩ := writes event member
      obtain ⟨request, answer⟩ := event
      cases write
      rfl
    have begun : ∀ tail, rcptReplies (⟨.data socket, none⟩ :: (copied ++ tail)) = rcptReplies tail := by
      intro tail
      rw [← List.singleton_append, rcptReplies_append, rcptReplies_append, silent]
      rfl
    have decided : ∀ tail addr, dataVerdict (⟨.data socket, none⟩ :: (copied ++ tail)) addr = dataVerdict tail addr := by
      intro tail addr
      rw [← List.singleton_append, dataVerdict_append, dataVerdict_append, open_ addr]
      rfl
    cases outcome with
    | some err =>
      obtain ⟨answer, later, rfl, tail⟩ := closing.ask_inv
      obtain ⟨rfl, rfl⟩ := tail.done_inv
      exact ⟨begun _, .inr ⟨by simp, decided _, rfl⟩⟩
    | none =>
      obtain ⟨answer, later, rfl, tail⟩ := closing.ask_inv
      cases answer with
      | error err =>
        obtain ⟨rfl, rfl⟩ := tail.done_inv
        exact ⟨begun _, .inl ⟨rfl, fun addr => classify addr err, decided _, rfl⟩⟩
      | ok status =>
        obtain ⟨rfl, rfl⟩ := tail.done_inv
        exact ⟨begun _, .inl ⟨rfl, _, decided _, rfl⟩⟩

/-- A transaction that is refused at MAIL, and one that offers the recipients and goes on with those that are accepted. -/
theorem transaction_inv {socket : Socket} {msg : Message} (run : Trace (transaction socket msg res) events res') :
    ∃ begun rest, events = begun ++ rest ∧ (∀ event ∈ begun, event.1.Apart) ∧
      ((rest = [] ∧ ∃ problem, res' = { res with err := some problem }) ∨
        ∃ offered later accepted offeredRes, rest = offered ++ later ∧
          Trace (offer socket msg.rcpts res) offered (accepted, offeredRes) ∧
          ((accepted = [] ∧ later = [] ∧ res' = offeredRes.completed) ∨
            accepted ≠ [] ∧ Trace (sendBody socket msg.body accepted offeredRes) later res')) := by
  obtain ⟨first, rest, utf8, rfl, probing, probed⟩ := Trace.bind_inv run
  obtain ⟨second, rest, body8Bit, rfl, probing', asking⟩ := Trace.bind_inv probed
  obtain ⟨answer, rest, rfl, answered⟩ := asking.ask_inv
  refine ⟨first ++ second ++ [⟨.mail socket msg.mailFrom { utf8, body8Bit }, answer⟩], rest, by simp, ?_, ?_⟩
  · intro event member
    simp only [List.mem_append, List.mem_singleton] at member
    rcases member with (early | early) | rfl
    · exact probing.all (still_probe _ _ _) event early
    · exact probing'.all (still_probe _ _ _) event early
    · trivial
  · cases answer with
    | some err =>
      obtain ⟨rfl, rfl⟩ := answered.done_inv
      exact .inl ⟨rfl, _, rfl⟩
    | none =>
      obtain ⟨offered, later, ⟨accepted, offeredRes⟩, rfl, offering, decided⟩ := Trace.bind_inv answered
      refine .inr ⟨offered, later, accepted, offeredRes, rfl, offering, ?_⟩
      dsimp only at decided
      split at decided
      · rename_i nobodyAccepted
        obtain ⟨rfl, rfl⟩ := decided.done_inv
        exact .inl ⟨nobodyAccepted, rfl, rfl⟩
      · rename_i someAccepted
        exact .inr ⟨someAccepted, decided⟩

theorem transaction_answered {socket : Socket} {msg : Message} (run : Trace (transaction socket msg res) events res')
    (nobody : res.rcpts = []) (fine : res'.err = none) : Answered msg.rcpts events res' := by
  obtain ⟨begun, rest, rfl, apart, ⟨rfl, problem, rfl⟩ | ⟨offered, later, accepted, _, rfl, offering, decided⟩⟩ :=
    transaction_inv run
  · cases fine
  apply Answered.behind apart
  obtain ⟨quiet, count, refused, rfl, outcomes⟩ := offer_run offering
  rcases decided with ⟨nobodyAccepted, rfl, rfl⟩ | ⟨_, decided⟩
  · rw [List.append_nil]
    refine ⟨count, ?_⟩
    have settled := outcomes (acceptedOutcome offered)
    simpa [ownOutcomes, nobodyAccepted, nobody, Result.completed] using settled
  · obtain ⟨none_, told⟩ := sendBody_ended decided
    obtain ⟨_, ofAccepted, verdicts, applied⟩ := told.resolve_right fun failed => failed.1 fine
    have replies : rcptReplies (offered ++ later) = rcptReplies offered := by
      rw [rcptReplies_append, none_, List.append_nil]
    have accepted_ : acceptedOutcome (offered ++ later) = ofAccepted := by
      funext addr
      rw [acceptedOutcome, dataVerdict_append, dataVerdict_quiet quiet, Option.none_or, verdicts]
      rfl
    refine ⟨by rw [replies, count], ?_⟩
    have settled := outcomes ofAccepted
    simpa [ownOutcomes, replies, accepted_, applied, nobody] using settled

@[simp] theorem recordPeer_rcpts (socket : Socket) (res : Result) : (recordPeer socket res).rcpts = res.rcpts := by
  unfold recordPeer
  split <;> rfl

@[simp] theorem recordPeer_err (socket : Socket) (res : Result) : (recordPeer socket res).err = res.err := by
  unfold recordPeer
  split <;> rfl

theorem acquire_keeps {relay : Relay} {opts : Options} {socket : Socket}
    (run : Trace (acquire relay opts res) events (.borrowed socket res')) : res'.rcpts = res.rcpts ∧ res'.err = res.err := by
  unfold acquire at run
  split at run
  · cases run.done_inv.2
  obtain ⟨_, _, got, rfl, _, answered⟩ := Trace.bind_inv run
  cases got with
  | nothing => cases answered.done_inv.2
  | again => cases answered.done_inv.2
  | found conn =>
    cases answered.done_inv.2
    simp

theorem connectPlain_keeps {relay : Relay} {opts : Options} {outcome : Except Chars Socket}
    (run : Trace (connectPlain relay opts res) events (res', outcome)) : res'.rcpts = res.rcpts ∧ res'.err = res.err := by
  unfold connectPlain at run
  obtain ⟨dialled, _, rfl, greeting⟩ := run.ask_inv
  cases dialled with
  | error err =>
    cases greeting.done_inv.2
    simp
  | ok socket =>
    obtain ⟨greeted, _, rfl, finished⟩ := greeting.ask_inv
    cases greeted with
    | none =>
      cases finished.done_inv.2
      simp
    | some err =>
      obtain ⟨_, _, rfl, ended⟩ := finished.ask_inv
      cases ended.done_inv.2
      simp

theorem connect_keeps {relay : Relay} {opts : Options} {outcome : Except Chars Socket}
    (run : Trace (connect relay opts res) events (res', outcome)) : res'.rcpts = res.rcpts ∧ res'.err = res.err := by
  unfold connect at run
  split at run
  · exact connectPlain_keeps run
  obtain ⟨dialled, _, rfl, upgrading⟩ := run.ask_inv
  cases dialled with
  | error err =>
    cases upgrading.done_inv.2
    simp
  | ok socket =>
    obtain ⟨upgraded, _, rfl, greeting⟩ := upgrading.ask_inv
    cases upgraded with
    | none =>
      obtain ⟨greeted, _, rfl, finished⟩ := greeting.ask_inv
      cases greeted with
      | none =>
        cases finished.done_inv.2
        simp
      | some err =>
        obtain ⟨_, _, rfl, ended⟩ := finished.ask_inv
        cases ended.done_inv.2
        simp
    | some err =>
      dsimp only at greeting
      split at greeting
      · cases greeting.done_inv.2
        simp
      · have kept := connectPlain_keeps greeting
        simpa using kept

theorem authenticate_keeps {relay : Relay} {socket : Socket} {err : Option Chars}
    (run : Trace (authenticate relay socket res) events (res', err)) : res'.rcpts = res.rcpts ∧ res'.err = res.err := by
  unfold authenticate at run
  split at run
  · cases run.done_inv.2
    simp
  split at run
  · cases run.done_inv.2
    simp
  obtain ⟨offered, _, rfl, proving⟩ := run.ask_inv
  split at proving
  · cases proving.done_inv.2
    simp
  obtain ⟨proved, _, rfl, finished⟩ := proving.ask_inv
  cases proved with
  | none =>
    cases finished.done_inv.2
    simp
  | some err =>
    cases finished.done_inv.2
    simp

theorem release_keeps {relay : Relay} {opts : Options} {socket : Socket}
    (run : Trace (release relay opts socket res) events res') : res'.rcpts = res.rcpts ∧ res'.err = res.err := by
  unfold release at run
  split at run
  · obtain ⟨_, _, _, rfl, _, ended⟩ := Trace.bind_inv run
    cases ended.done_inv.2
    exact ⟨rfl, rfl⟩
  split at run
  · obtain ⟨_, _, _, rfl, _, ended⟩ := Trace.bind_inv run
    cases ended.done_inv.2
    exact ⟨rfl, rfl⟩
  · obtain ⟨_, _, _, rfl, _, ended⟩ := Trace.bind_inv run
    cases ended.done_inv.2
    exact ⟨rfl, rfl⟩

/-- What a run comes to, where only the transaction in it counts: what comes before the transaction, behind it and in
    its place changes nothing. -/
structure OfTransaction (msg : Message) (holds : List Event → Result → Prop) : Prop where
  surround {before events after : List Event} {res : Result} (first : ∀ event ∈ before, event.1.Apart)
    (last : ∀ event ∈ after, event.1.Apart) (held : holds events res) : holds (before ++ events ++ after) res
  same {events : List Event} {res res' : Result} (rcpts : res'.rcpts = res.rcpts) (err : res'.err = res.err)
    (held : holds events res) : holds events res'
  failed {res : Result} (nobody : res.rcpts = []) (failed : res.err ≠ none) : holds [] res
  sent {socket : Socket} {events : List Event} {res res' : Result} (nobody : res.rcpts = []) (fine : res.err = none)
    (run : Trace (transaction socket msg res) events res') : holds events res'

section Lifted
variable {msg : Message} {relay : Relay} {opts : Options} {holds : List Event → Result → Prop}

theorem OfTransaction.behind (of : OfTransaction msg holds) (first : ∀ event ∈ before, event.1.Apart)
    (held : holds events res) : holds (before ++ events) res := by
  have whole := of.surround first (fun event (member : event ∈ []) => by cases member) held
  rwa [List.append_nil] at whole

theorem OfTransaction.apart (of : OfTransaction msg holds) (nobody : res.rcpts = []) (failed : res.err ≠ none)
    (first : ∀ event ∈ events, event.1.Apart) : holds events res := by
  have whole := of.behind first (of.failed nobody failed)
  rwa [List.append_nil] at whole

theorem OfTransaction.session (of : OfTransaction msg holds) {socket : Socket} (nobody : res.rcpts = []) (fine : res.err = none)
    (run : Trace (transaction socket msg res >>= fun res => some <$> release relay opts socket res) events (some res')) :
    holds events res' := by
  obtain ⟨sending, rest, sent, rfl, transacting, releasing⟩ := Trace.bind_inv run
  obtain ⟨closing, _, released, rfl, letting, ended⟩ := Trace.bind_inv releasing
  obtain ⟨rfl, same⟩ := ended.done_inv
  cases same
  obtain ⟨rcpts, err⟩ := release_keeps letting
  have before : ∀ event ∈ ([] : List Event), event.1.Apart := by simp
  have whole := of.surround before (letting.all (still_release _ _ _ _)) (of.sent nobody fine transacting)
  simpa using of.same rcpts err whole

theorem OfTransaction.deliver (of : OfTransaction msg holds) (run : Trace (deliver relay msg opts) events (some res)) :
    holds events res := by
  obtain ⟨before, rest, acquired, rfl, acquiring, session⟩ := Trace.bind_inv run
  have still := acquiring.all (still_acquire _ _ _)
  cases acquired with
  | again => cases session.done_inv.2
  | borrowed socket reused =>
    obtain ⟨rcpts, err⟩ := acquire_keeps acquiring
    apply of.behind still
    apply of.session _ _ session
    · exact rcpts
    · exact err
  | nothing =>
    obtain ⟨dialling, rest, ⟨connected, connection⟩, rfl, connecting, opened⟩ := Trace.bind_inv session
    obtain ⟨rcpts, err⟩ := connect_keeps connecting
    have calm := connecting.all (still_connect _ _ _)
    apply of.behind still
    cases connection with
    | error problem =>
      obtain ⟨rfl, same⟩ := opened.done_inv
      cases same
      rw [List.append_nil]
      exact of.apart rcpts (by simp) calm
    | ok socket =>
      obtain ⟨proving, rest, ⟨proved, verdict⟩, rfl, authenticating, decided⟩ := Trace.bind_inv opened
      obtain ⟨rcpts', err'⟩ := authenticate_keeps authenticating
      have proved_ := authenticating.all (still_authenticate _ _ _)
      apply of.behind calm
      cases verdict with
      | some problem =>
        obtain ⟨answer, later, rfl, ended⟩ := decided.ask_inv
        obtain ⟨rfl, same⟩ := ended.done_inv
        cases same
        apply of.behind proved_
        apply of.apart
        · exact rcpts'.trans rcpts
        · simp
        · intro event member
          rw [List.mem_singleton.mp member]
          trivial
      | none => exact of.behind proved_ (of.session (rcpts'.trans rcpts) (err'.trans err) decided)

theorem deliver_again (run : Trace (deliver relay msg opts) events none) : ∀ event ∈ events, event.1.Apart := by
  obtain ⟨before, rest, acquired, rfl, acquiring, session⟩ := Trace.bind_inv run
  cases acquired with
  | again =>
    obtain ⟨rfl, -⟩ := session.done_inv
    simpa using acquiring.all (still_acquire _ _ _)
  | borrowed socket res =>
    obtain ⟨_, _, _, _, _, releasing⟩ := Trace.bind_inv session
    obtain ⟨_, _, _, _, _, ended⟩ := Trace.bind_inv releasing
    cases ended.done_inv.2
  | nothing =>
    obtain ⟨_, _, ⟨connected, connection⟩, _, _, opened⟩ := Trace.bind_inv session
    cases connection with
    | error err => cases opened.done_inv.2
    | ok socket =>
      obtain ⟨_, _, ⟨proved, verdict⟩, _, _, decided⟩ := Trace.bind_inv opened
      cases verdict with
      | some err =>
        obtain ⟨_, _, _, ended⟩ := decided.ask_inv
        cases ended.done_inv.2
      | none =>
        obtain ⟨_, _, _, _, _, releasing⟩ := Trace.bind_inv decided
        obtain ⟨_, _, _, _, _, ended⟩ := Trace.bind_inv releasing
        cases ended.done_inv.2

theorem OfTransaction.rounds (of : OfTransaction msg holds) (run : Rounds (Deliver.deliver relay msg opts) events res) :
    holds events res := by
  induction run with
  | last trace => exact of.deliver trace
  | again trace _ ih => exact of.behind (deliver_again trace) ih

theorem answered_ofTransaction (msg : Message) :
    OfTransaction msg fun events res => res.err = none → Answered msg.rcpts events res where
  surround first last held fine := (held fine).surround first last
  same rcpts err held fine := by
    have answered := held (err ▸ fine)
    exact ⟨answered.replies, rcpts ▸ answered.outcomes⟩
  failed _ failed fine := absurd fine failed
  sent nobody _ run fine := transaction_answered run nobody fine

/-- A delivery that reports no failure of its own reports one outcome for each recipient it was
    given, and each is the outcome of a RCPT command of its own. -/
theorem rounds_answered (run : Rounds (Deliver.deliver relay msg opts) events res) (fine : res.err = none) :
    Answered msg.rcpts events res := (answered_ofTransaction msg).rounds run fine

end Lifted

theorem classify_addr (addr : Chars) (err : Failure) : (classify addr err).addr = addr := by
  unfold classify
  split <;> rfl

theorem outcomeOf_addr {accepted : Chars → RcptResult} (same : ∀ addr, (accepted addr).addr = addr) (addr : Chars)
    (reply : Option Failure) : (outcomeOf accepted addr reply).addr = addr := by
  cases reply with
  | none => exact same addr
  | some err => exact classify_addr addr err

theorem Event.verdict_addr {event : Event} {addr : Chars} {rr : RcptResult} (found : event.verdict addr = some rr) :
    rr.addr = addr := by
  have classified : ∀ err, (classify addr err).addr = addr := classify_addr addr
  unfold Event.verdict at found
  split at found
  · cases found
    exact classified _
  · cases found
    exact classified _
  · cases found
    rfl
  · cases found

theorem acceptedOutcome_addr (events : List Event) (addr : Chars) : (acceptedOutcome events addr).addr = addr := by
  rw [acceptedOutcome]
  cases found : dataVerdict events addr with
  | none => rfl
  | some rr =>
    obtain ⟨event, _, verdict⟩ := List.exists_of_findSome?_eq_some found
    exact Event.verdict_addr verdict

theorem zipWith_outcomeOf_addr {accepted : Chars → RcptResult} (same : ∀ addr, (accepted addr).addr = addr)
    {replies : List (Option Failure)} (sizes : replies.length = addrs.length) :
    (List.zipWith (outcomeOf accepted) addrs replies).map RcptResult.addr = addrs := by
  induction addrs generalizing replies with
  | nil => rfl
  | cons addr rest ih =>
    cases replies with
    | nil => cases sizes
    | cons reply replies =>
      simp only [List.zipWith_cons_cons, List.map_cons, outcomeOf_addr same]
      rw [ih (by simpa using sizes)]

theorem Answered.own (answered : Answered addrs events res) :
    (ownOutcomes addrs events).map RcptResult.addr = addrs :=
  zipWith_outcomeOf_addr (acceptedOutcome_addr events) answered.replies

end Runs

def Result.Towards (relay : Relay) (res : Result) : Prop :=
  res.host = relay.exchange ∧ res.port = Nat.toDigits 10 relay.port

section Towards
variable {relay : Relay} {opts : Options} {res res' : Result} {events : List Event}

theorem Result.Towards.recordPeer {socket : Socket} (towards : res.Towards relay) :
    (recordPeer socket res).Towards relay := by
  unfold Deliver.recordPeer
  split <;> exact towards

theorem acquire_towards {socket : Socket} (run : Trace (acquire relay opts res) events (.borrowed socket res')) :
    res'.Towards relay := by
  unfold acquire at run
  split at run
  · cases run.done_inv.2
  obtain ⟨_, _, got, rfl, _, answered⟩ := Trace.bind_inv run
  cases got with
  | nothing => cases answered.done_inv.2
  | again => cases answered.done_inv.2
  | found conn =>
    cases answered.done_inv.2
    exact Result.Towards.recordPeer ⟨rfl, rfl⟩

theorem connectPlain_towards {outcome : Except Chars Socket} (towards : res.Towards relay)
    (run : Trace (connectPlain relay opts res) events (res', outcome)) : res'.Towards relay := by
  unfold connectPlain at run
  obtain ⟨dialled, _, rfl, greeting⟩ := run.ask_inv
  cases dialled with
  | error err =>
    cases greeting.done_inv.2
    exact towards
  | ok socket =>
    obtain ⟨greeted, _, rfl, finished⟩ := greeting.ask_inv
    cases greeted with
    | none =>
      cases finished.done_inv.2
      exact towards.recordPeer
    | some err =>
      obtain ⟨_, _, rfl, ended⟩ := finished.ask_inv
      cases ended.done_inv.2
      exact towards.recordPeer

theorem connect_towards {outcome : Except Chars Socket} (towards : res.Towards relay)
    (run : Trace (connect relay opts res) events (res', outcome)) : res'.Towards relay := by
  unfold connect at run
  split at run
  · exact connectPlain_towards towards run
  obtain ⟨dialled, _, rfl, upgrading⟩ := run.ask_inv
  cases dialled with
  | error err =>
    cases upgrading.done_inv.2
    exact towards
  | ok socket =>
    obtain ⟨upgraded, _, rfl, greeting⟩ := upgrading.ask_inv
    have kept : (Deliver.recordPeer socket res).Towards relay := towards.recordPeer
    cases upgraded with
    | none =>
      obtain ⟨greeted, _, rfl, finished⟩ := greeting.ask_inv
      cases greeted with
      | none =>
        cases finished.done_inv.2
        exact kept
      | some err =>
        obtain ⟨_, _, rfl, ended⟩ := finished.ask_inv
        cases ended.done_inv.2
        exact kept
    | some err =>
      dsimp only at greeting
      split at greeting
      · cases greeting.done_inv.2
        exact kept
      · apply connectPlain_towards _ greeting
        exact kept

theorem authenticate_towards {socket : Socket} {err : Option Chars} (towards : res.Towards relay)
    (run : Trace (authenticate relay socket res) events (res', err)) : res'.Towards relay := by
  unfold authenticate at run
  split at run
  · cases run.done_inv.2
    exact towards
  split at run
  · cases run.done_inv.2
    exact towards
  obtain ⟨offered, _, rfl, proving⟩ := run.ask_inv
  split at proving
  · cases proving.done_inv.2
    exact towards
  obtain ⟨proved, _, rfl, finished⟩ := proving.ask_inv
  cases proved with
  | none =>
    cases finished.done_inv.2
    exact towards
  | some err =>
    cases finished.done_inv.2
    exact towards

theorem sendBody_towards {socket : Socket} {body : Reader} {accepted : List Chars} (towards : res.Towards relay)
    (run : Trace (sendBody socket body accepted res) events res') : res'.Towards relay := by
  obtain ⟨answer, later, rfl, phase⟩ := run.ask_inv
  cases answer with
  | some err =>
    cases phase.done_inv.2
    exact towards
  | none =>
    obtain ⟨copied, rest, outcome, rfl, copying, closing⟩ := Trace.bind_inv phase
    cases outcome with
    | some err =>
      obtain ⟨answer, later, rfl, tail⟩ := closing.ask_inv
      cases tail.done_inv.2
      exact towards
    | none =>
      obtain ⟨answer, later, rfl, tail⟩ := closing.ask_inv
      cases answer with
      | error err =>
        cases tail.done_inv.2
        exact towards
      | ok status =>
        cases tail.done_inv.2
        exact towards

theorem transaction_towards {socket : Socket} {msg : Message} (towards : res.Towards relay)
    (run : Trace (transaction socket msg res) events res') : res'.Towards relay := by
  obtain ⟨_, _, utf8, rfl, _, probed⟩ := Trace.bind_inv run
  obtain ⟨_, _, body8Bit, rfl, _, asking⟩ := Trace.bind_inv probed
  obtain ⟨answer, rest, rfl, answered⟩ := asking.ask_inv
  cases answer with
  | some err =>
    cases answered.done_inv.2
    exact towards
  | none =>
    obtain ⟨offered, rest, ⟨accepted, offeredRes⟩, rfl, offering, decided⟩ := Trace.bind_inv answered
    obtain ⟨-, -, refused, rfl, -⟩ := offer_run offering
    dsimp only at decided
    split at decided
    · cases decided.done_inv.2
      exact towards
    · apply sendBody_towards _ decided
      exact towards

theorem release_towards {socket : Socket} (towards : res.Towards relay)
    (run : Trace (release relay opts socket res) events res') : res'.Towards relay := by
  unfold release at run
  split at run
  · obtain ⟨_, _, _, rfl, _, ended⟩ := Trace.bind_inv run
    cases ended.done_inv.2
    exact towards
  split at run
  · obtain ⟨_, _, _, rfl, _, ended⟩ := Trace.bind_inv run
    cases ended.done_inv.2
    exact towards
  · obtain ⟨_, _, _, rfl, _, ended⟩ := Trace.bind_inv run
    cases ended.done_inv.2
    exact towards

theorem session_towards {socket : Socket} {msg : Message} (towards : res.Towards relay)
    (run : Trace (transaction socket msg res >>= fun res => some <$> release relay opts socket res) events (some res')) :
    res'.Towards relay := by
  obtain ⟨_, _, sent, rfl, transacting, releasing⟩ := Trace.bind_inv run
  obtain ⟨_, _, released, rfl, letting, ended⟩ := Trace.bind_inv releasing
  cases ended.done_inv.2
  exact release_towards (transaction_towards towards transacting) letting

theorem deliver_towards {msg : Message} (run : Trace (deliver relay msg opts) events (some res)) :
    res.Towards relay := by
  obtain ⟨_, _, acquired, rfl, acquiring, session⟩ := Trace.bind_inv run
  cases acquired with
  | again => cases session.done_inv.2
  | borrowed socket reused =>
    have towards := acquire_towards acquiring
    apply session_towards _ session
    exact towards
  | nothing =>
    obtain ⟨_, _, ⟨connected, connection⟩, rfl, connecting, opened⟩ := Trace.bind_inv session
    have towards : connected.Towards relay := connect_towards ⟨rfl, rfl⟩ connecting
    cases connection with
    | error err =>
      cases opened.done_inv.2
      exact towards
    | ok socket =>
      obtain ⟨_, _, ⟨proved, verdict⟩, rfl, authenticating, decided⟩ := Trace.bind_inv opened
      have towards := authenticate_towards towards authenticating
      cases verdict with
      | some err =>
        obtain ⟨_, _, rfl, ended⟩ := decided.ask_inv
        cases ended.done_inv.2
        exact towards
      | none => exact session_towards towards decided

theorem rounds_towards {msg : Message} (run : Rounds (deliver relay msg opts) events res) : res.Towards relay := by
  induction run with
  | last trace => exact deliver_towards trace
  | again _ _ ih => exact ih

end Towards

end Mailgw.Deliver
