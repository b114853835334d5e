import Mathlib.Data.List.Forall2
import Mailgw.Deliver.Replies

namespace Mailgw.Deliver

open Calls

def Failure.permanent (err : Failure) : Bool := err.smtp.any fun se => 500 ≤ se.code && se.code < 600

def Failure.beyond (err : Failure) : Bool := err.smtp.any fun se => 600 ≤ se.code

/-- A refusal of DATA, or the reply to the final dot; `some none` is a positive one. -/
def Event.ending (event : Event) : Option (Option Failure) :=
  match event with
  | ⟨.data _, some err⟩ => some (some err)
  | ⟨.closeWithResponse _, .error err⟩ => some (some err)
  | ⟨.closeWithResponse _, .ok _⟩ => some none
  | _ => none

def ending (events : List Event) : Option (Option Failure) := events.findSome? Event.ending

/-- The reply that decides about a recipient: the refusal of its own RCPT command, or for one that was accepted the
    refusal of DATA or the reply to the final dot. -/
def decision (events : List Event) (own : Option Failure) : Option (Option Failure) :=
  match own with
  | some err => some (some err)
  | none => ending events

def refusedAs (kind : Failure → Bool) (decided : Option (Option Failure)) : Bool :=
  match decided with
  | some (some err) => kind err
  | _ => false

structure Accounted (addr : Chars) (decided : Option (Option Failure)) (rr : RcptResult) : Prop where
  addr : rr.addr = addr
  delivered : rr.outcome = .delivered ↔ decided = some none
  rejected : rr.outcome = .rejected → refusedAs Failure.permanent decided = true
  deferred : decided ≠ some none → refusedAs Failure.permanent decided = false → rr.outcome = .deferred

/-- One entry for each recipient, by the reply to its RCPT command and those to DATA and to the final dot. -/
structure Accounts (addrs : List Chars) (events : List Event) (res : Result) : Prop where
  replies : (rcptReplies events).length = addrs.length
  entries : ∃ entries, entries.Perm res.rcpts ∧ List.Forall₂ (fun pair rr => Accounted pair.1 (decision events pair.2) rr)
    (addrs.zip (rcptReplies events)) entries

/-- A recipient was accepted, but the message did not get as far as a reply of the relay. -/
def Abandoned (events : List Event) : Prop := none ∈ rcptReplies events ∧ ending events = none

def fate (decided : Option (Option Failure)) : Outcome :=
  match decided with
  | none => .deferred
  | some none => .delivered
  | some (some err) => (classify [] err).outcome

section Entries
variable {addrs : List Chars} {events before after : List Event} {res res' : Result} {decided : Option (Option Failure)}

theorem classify_outcome (addr : Chars) (err : Failure) : (classify addr err).outcome = (classify [] err).outcome := by
  unfold classify
  split <;> rfl

theorem classify_not_delivered (addr : Chars) (err : Failure) : (classify addr err).outcome ≠ .delivered := by
  unfold classify
  split
  · dsimp only
    split <;> simp
  · simp

theorem classify_rejected_iff (err : Failure) :
    (classify [] err).outcome = .rejected ↔ err.permanent = true ∨ err.beyond = true := by
  unfold classify Failure.permanent Failure.beyond
  cases err.smtp with
  | none => simp
  | some se =>
    simp only [ite_eq_left_iff, reduceCtorEq, imp_false, not_not, Option.any_some, Bool.and_eq_true, decide_eq_true_eq]
    omega

theorem permanent_not_beyond {err : Failure} (permanent : err.permanent = true) : err.beyond = false := by
  unfold Failure.permanent at permanent
  unfold Failure.beyond
  cases kind : err.smtp with
  | none => rfl
  | some se =>
    simp only [kind, Option.any_some, Bool.and_eq_true, decide_eq_true_eq, decide_eq_false_iff_not] at permanent ⊢
    omega

theorem fate_delivered_iff : fate decided = .delivered ↔ decided = some none := by
  match decided with
  | none => simp [fate]
  | some none => simp [fate]
  | some (some err) => simp [fate, classify_not_delivered]

theorem fate_rejected_iff :
    fate decided = .rejected ↔ refusedAs Failure.permanent decided = true ∨ refusedAs Failure.beyond decided = true := by
  match decided with
  | none => simp [fate, refusedAs]
  | some none => simp [fate, refusedAs]
  | some (some err) => exact classify_rejected_iff err

theorem verdict_ending (event : Event) (addr : Chars) :
    (event.verdict addr).map RcptResult.outcome = event.ending.map fun reply => fate (some reply) := by
  obtain ⟨request, answer⟩ := event
  cases request <;> try rfl
  case data =>
    cases answer with
    | none => rfl
    | some err => exact congrArg some (classify_outcome addr err)
  case closeWithResponse =>
    cases answer with
    | error err => exact congrArg some (classify_outcome addr err)
    | ok status => rfl

theorem dataVerdict_ending (events : List Event) (addr : Chars) :
    (dataVerdict events addr).map RcptResult.outcome = (ending events).map fun reply => fate (some reply) := by
  rw [dataVerdict, ending, List.map_findSome?, List.map_findSome?]
  congr 1
  funext event
  exact verdict_ending event addr

theorem ending_eq_none_iff (addr : Chars) : ending events = none ↔ dataVerdict events addr = none := by
  have same := congrArg Option.isNone (dataVerdict_ending events addr)
  simpa [← Option.isNone_iff_eq_none] using same.symm

theorem outcomeOf_fate (addr : Chars) (own : Option Failure) :
    (outcomeOf (acceptedOutcome events) addr own).outcome = fate (decision events own) := by
  cases own with
  | some err => exact classify_outcome addr err
  | none =>
    have same := dataVerdict_ending events addr
    simp only [outcomeOf, acceptedOutcome, decision]
    cases verdict : dataVerdict events addr with
    | none =>
      rw [(ending_eq_none_iff addr).mpr verdict]
      rfl
    | some rr =>
      rw [verdict] at same
      cases replied : ending events with
      | none => rw [replied] at same; cases same
      | some reply =>
        rw [replied] at same
        exact Option.some.inj same

theorem ownOutcomes_eq_map (addrs : List Chars) (events : List Event) : ownOutcomes addrs events =
    (addrs.zip (rcptReplies events)).map fun pair => outcomeOf (acceptedOutcome events) pair.1 pair.2 :=
  List.map_uncurry_zip_eq_zipWith.symm

theorem accounted_of_fate {addr : Chars} {rr : RcptResult} (own : rr.addr = addr) (same : rr.outcome = fate decided)
    (known : refusedAs Failure.beyond decided = false) : Accounted addr decided rr := by
  have rejected : rr.outcome = .rejected ↔ refusedAs Failure.permanent decided = true := by
    rw [same, fate_rejected_iff]
    simp [known]
  have delivered : rr.outcome = .delivered ↔ decided = some none := by rw [same, fate_delivered_iff]
  refine ⟨own, delivered, rejected.mp, ?_⟩
  intro negative temporary
  cases outcome : rr.outcome with
  | delivered => exact absurd (delivered.mp outcome) negative
  | deferred => rfl
  | rejected => simp [rejected.mp outcome] at temporary

theorem Answered.accounts (answered : Answered addrs events res)
    (known : ∀ own ∈ rcptReplies events, refusedAs Failure.beyond (decision events own) = false) : Accounts addrs events res := by
  refine ⟨answered.replies, ownOutcomes addrs events, answered.outcomes, ?_⟩
  rw [ownOutcomes_eq_map, List.forall₂_map_right_iff, List.forall₂_same]
  intro pair member
  apply accounted_of_fate _ (outcomeOf_fate _ _)
  · exact known _ (List.of_mem_zip member).2
  · exact outcomeOf_addr (acceptedOutcome_addr events) _ _

theorem countP_le_of_forall₂ {α β : Type} {R : α → β → Prop} {p : α → Bool} {q : β → Bool} {l : List α} {m : List β}
    (each : List.Forall₂ R l m) (implies : ∀ a b, R a b → q b = true → p a = true) : m.countP q ≤ l.countP p := by
  induction each with
  | nil => simp
  | @cons a b l m related _ ih =>
    have head := implies a b related
    simp only [List.countP_cons]
    split <;> split <;> first | omega | simp_all

theorem countP_or {α : Type} {p q : α → Bool} (apart : ∀ a, p a = true → q a = false) (l : List α) :
    l.countP (fun a => p a || q a) = l.countP p + l.countP q := by
  induction l with
  | nil => rfl
  | cons a l ih =>
    have head := apart a
    cases first : p a <;> cases second : q a <;> simp_all <;> omega

theorem refusedAs_apart (decided : Option (Option Failure)) (permanent : refusedAs Failure.permanent decided = true) :
    refusedAs Failure.beyond decided = false := by
  match decided with
  | none => rfl
  | some none => rfl
  | some (some err) => exact permanent_not_beyond permanent

theorem Answered.known (answered : Answered addrs events res) (accounts : Accounts addrs events res) :
    ∀ own ∈ rcptReplies events, refusedAs Failure.beyond (decision events own) = false := by
  obtain ⟨entries, same, each⟩ := accounts.entries
  have few := countP_le_of_forall₂ (p := fun pair => refusedAs Failure.permanent (decision events pair.2))
    (q := fun rr => rr.outcome = .rejected) each fun pair rr accounted rejected => accounted.rejected (of_decide_eq_true rejected)
  have reported : entries.countP (fun rr => rr.outcome = .rejected) = (addrs.zip (rcptReplies events)).countP fun pair =>
      refusedAs Failure.permanent (decision events pair.2) || refusedAs Failure.beyond (decision events pair.2) := by
    rw [(same.trans answered.outcomes.symm).countP_eq, ownOutcomes_eq_map, List.countP_map]
    apply List.countP_congr
    intro pair _
    simp [outcomeOf_fate, fate_rejected_iff]
  rw [reported, countP_or fun pair => refusedAs_apart _] at few
  have none_ : (addrs.zip (rcptReplies events)).countP (fun pair => refusedAs Failure.beyond (decision events pair.2)) = 0 := by
    omega
  intro own member
  have all : (addrs.zip (rcptReplies events)).map Prod.snd = rcptReplies events := List.map_snd_zip (by simp [answered.replies])
  rw [← all] at member
  obtain ⟨pair, among, rfl⟩ := List.mem_map.mp member
  simpa using List.countP_eq_zero.mp none_ pair among

end Entries

section Endings
variable {events before after : List Event} {res res' : Result}

theorem ending_apart (apart : ∀ event ∈ events, event.1.Apart) : ending events = none := by
  rw [ending_eq_none_iff []]
  exact dataVerdict_quiet (fun event member => (apart event member).aside) []

theorem ending_append (first second : List Event) : ending (first ++ second) = (ending first).or (ending second) := by
  simp [ending, List.findSome?_append]

structure Ends (events : List Event) (res : Result) : Prop where
  fine : res.err = none → ¬ Abandoned events
  failed : res.err ≠ none → (rcptReplies events = [] ∨ Abandoned events) ∧ ∀ rr ∈ res.rcpts, rr.outcome ≠ .delivered

theorem Ends.surround (first : ∀ event ∈ before, event.1.Apart) (last : ∀ event ∈ after, event.1.Apart)
    (ends : Ends events res) : Ends (before ++ events ++ after) res := by
  have replies : rcptReplies (before ++ events ++ after) = rcptReplies events := by
    simp [rcptReplies_apart first, rcptReplies_apart last]
  have ended : ending (before ++ events ++ after) = ending events := by
    simp [ending_append, ending_apart first, ending_apart last]
  constructor
  · rw [Abandoned, replies, ended]
    exact ends.fine
  · rw [Abandoned, replies, ended]
    exact ends.failed

theorem offer_accepted {socket : Socket} {addrs accepted : List Chars}
    (run : Trace (offer socket addrs res) events (accepted, res')) : none ∈ rcptReplies events ↔ accepted ≠ [] := by
  induction addrs generalizing res events accepted with
  | nil =>
    obtain ⟨rfl, same⟩ := run.done_inv
    cases same
    simp [rcptReplies]
  | cons addr rest ih =>
    obtain ⟨answer, later, rfl, continued⟩ := run.ask_inv
    cases answer with
    | some err =>
      rw [← ih continued]
      simp [rcptReplies, Event.rcptReply]
    | none =>
      obtain ⟨first, last, ⟨accepted', res''⟩, rfl, offering, finished⟩ := Trace.bind_inv continued
      obtain ⟨rfl, same⟩ := finished.done_inv
      cases same
      simp [rcptReplies, Event.rcptReply]

theorem offer_refuses {socket : Socket} {addrs accepted : List Chars}
    (run : Trace (offer socket addrs res) events (accepted, res')) (nothing : ∀ rr ∈ res.rcpts, rr.outcome ≠ .delivered) :
    ∀ rr ∈ res'.rcpts, rr.outcome ≠ .delivered := by
  induction addrs generalizing res events accepted with
  | nil =>
    obtain ⟨-, same⟩ := run.done_inv
    cases same
    exact nothing
  | cons addr rest ih =>
    obtain ⟨answer, later, rfl, continued⟩ := run.ask_inv
    cases answer with
    | some err =>
      apply ih continued
      intro rr member
      rcases List.mem_append.mp member with early | own
      · exact nothing rr early
      · rw [List.mem_singleton.mp own]
        exact classify_not_delivered addr err
    | none =>
      obtain ⟨first, last, ⟨accepted', res''⟩, rfl, offering, finished⟩ := Trace.bind_inv continued
      obtain ⟨rfl, same⟩ := finished.done_inv
      cases same
      exact ih offering nothing

theorem transaction_ends {socket : Socket} {msg : Message} (nobody : res.rcpts = []) (fine : res.err = none)
    (run : Trace (transaction socket msg res) events res') : Ends events res' := by
  obtain ⟨begun, rest, rfl, apart, ⟨rfl, problem, rfl⟩ | ⟨offered, later, accepted, _, rfl, offering, decided⟩⟩ :=
    transaction_inv run
  · refine ⟨by simp, fun _ => ⟨.inl ?_, by simp [nobody]⟩⟩
    rw [List.append_nil, rcptReplies_apart apart]
  suffices ends : Ends (offered ++ later) res' by
    simpa using ends.surround apart fun event (member : event ∈ []) => by cases member
  obtain ⟨quiet, _, refused, rfl, _⟩ := offer_run offering
  have accepts := offer_accepted offering
  have negative := offer_refuses offering (by simp [nobody])
  rcases decided with ⟨nobodyAccepted, rfl, rfl⟩ | ⟨someAccepted, decided⟩
  · rw [List.append_nil]
    refine ⟨fun _ abandoned => accepts.mp abandoned.1 nobodyAccepted, fun failed => absurd fine failed⟩
  · obtain ⟨none_, told⟩ := sendBody_ended decided
    have replies : rcptReplies (offered ++ later) = rcptReplies offered := by
      rw [rcptReplies_append, none_, List.append_nil]
    have open_ : ending (offered ++ later) = ending later := by
      rw [ending_append, (ending_eq_none_iff []).mpr (dataVerdict_quiet quiet []), Option.none_or]
    rw [← replies] at accepts
    rcases told with ⟨err, ofAccepted, verdicts, _⟩ | ⟨failed, verdicts, kept⟩
    · refine ⟨fun _ abandoned => ?_, fun failed => absurd (err.trans fine) failed⟩
      have ended := abandoned.2
      rw [open_, ending_eq_none_iff [], verdicts] at ended
      cases ended
    · refine ⟨fun fine => absurd fine failed, fun _ => ⟨.inr ⟨accepts.mpr someAccepted, ?_⟩, ?_⟩⟩
      · rw [open_, ending_eq_none_iff [], verdicts]
      · rw [kept]
        exact negative

theorem ends_ofTransaction (msg : Message) : OfTransaction msg Ends where
  surround first last ends := ends.surround first last
  same rcpts err ends := ⟨err ▸ ends.fine, by rw [rcpts, err]; exact ends.failed⟩
  failed nobody failed := ⟨fun fine => absurd fine failed, fun _ => ⟨.inl rfl, by simp [nobody]⟩⟩
  sent nobody fine run := transaction_ends nobody fine run

end Endings

/-- A delivery accounts for every recipient, and delivers to none when it fails as a whole, exactly if the replies that
    decide are of the kinds there are, or the message did not get as far as a reply. -/
theorem accounts_iff (relay : Relay) (msg : Message) (opts : Options) (res : Result) (events : List Event)
    (run : Rounds (deliver relay msg opts) events res) :
    ((res.err = none → Accounts msg.rcpts events res) ∧ (res.err ≠ none → ∀ rr ∈ res.rcpts, rr.outcome ≠ .delivered)) ↔
      Abandoned events ∨ ∀ own ∈ rcptReplies events, refusedAs Failure.beyond (decision events own) = false := by
  have ends := (ends_ofTransaction msg).rounds run
  by_cases fine : res.err = none
  · have answered := rounds_answered run fine
    constructor
    · intro ⟨accounts, _⟩
      exact .inr (answered.known (accounts fine))
    · intro known
      exact ⟨fun _ => answered.accounts (known.resolve_left (ends.fine fine)), absurd fine⟩
  · obtain ⟨unanswered, negative⟩ := ends.failed fine
    constructor
    · intro _
      apply unanswered.symm.imp_right
      intro nobody
      simp [nobody]
    · intro _
      exact ⟨fun fine' => absurd fine' fine, fun _ => negative⟩

section Sample

def toTwo : Message := { sampleMessage wholeFile with rcpts := ["c@d".toList, "e@f".toList] }

def noSuchUser : Failure := { text := "550 no".toList, smtp := some { code := 550, enhanced := (5, 1, 1), message := "no".toList } }

def toTwoEvents : List Event := [
  ⟨.dial "mx:25".toList, .ok sampleSocket⟩,
  ⟨.hello sampleSocket "gw".toList, none⟩,
  ⟨.mail sampleSocket "a@b".toList ⟨false, false⟩, none⟩,
  ⟨.rcpt sampleSocket "c@d".toList, none⟩,
  ⟨.rcpt sampleSocket "e@f".toList, some noSuchUser⟩,
  ⟨.data sampleSocket, none⟩,
  ⟨.write sampleSocket (encode "X: y\r\n".toList), ⟨6, none⟩⟩,
  ⟨.write sampleSocket [65, 66], ⟨2, none⟩⟩,
  ⟨.closeWithResponse sampleSocket, .ok []⟩,
  ⟨.quit sampleSocket, none⟩]

theorem accounts_sample : ∃ events res, Rounds (deliver sampleRelay toTwo sampleOptions) events res ∧ res.err = none ∧
    res.rcpts.map (fun rr => (rr.addr, rr.outcome)) = [("e@f".toList, .rejected), ("c@d".toList, .delivered)] ∧
    Accounts toTwo.rcpts events res := by
  obtain ⟨res, fine, outcomes, run⟩ : ∃ res, res.err = none ∧
      res.rcpts.map (fun rr => (rr.addr, rr.outcome)) = [("e@f".toList, .rejected), ("c@d".toList, .delivered)] ∧
      Trace (deliver sampleRelay toTwo sampleOptions) toTwoEvents (some res) :=
    ⟨_, rfl, rfl, .call _ (.call _ (.call _ (.call _ (.call _ (.call _ (.call _ (.call _ (.call _ (.call _
      (.done _))))))))))⟩
  have kinds := (accounts_iff _ _ _ _ _ (.last run)).mpr (.inr (by decide))
  exact ⟨_, res, .last run, fine, outcomes, kinds.1 fine⟩

def oddReply : Failure where
  text := "SMTP error 600: what?".toList
  smtp := some { code := 600, enhanced := (0, 0, 0), message := "what?".toList }

def oddEvents : List Event := [
  ⟨.dial "mx:25".toList, .ok sampleSocket⟩,
  ⟨.hello sampleSocket "gw".toList, none⟩,
  ⟨.mail sampleSocket "a@b".toList ⟨false, false⟩, none⟩,
  ⟨.rcpt sampleSocket "c@d".toList, some oddReply⟩,
  ⟨.quit sampleSocket, none⟩]

/-- The recipient is reported as rejected, without any reply of the 5xx kind. -/
theorem odd_reply_rejected : ∃ events res, Rounds (deliver sampleRelay (sampleMessage wholeFile) sampleOptions) events res ∧
    res.err = none ∧ (∃ rr ∈ res.rcpts, rr.outcome = .rejected) ∧ ¬ Accounts (sampleMessage wholeFile).rcpts events res := by
  have run : Trace (deliver sampleRelay (sampleMessage wholeFile) sampleOptions) oddEvents (some _) :=
    .call _ (.call _ (.call _ (.call _ (.call _ (.done _)))))
  refine ⟨oddEvents, _, .last run, rfl, ⟨classify "c@d".toList oddReply, List.mem_singleton_self _, rfl⟩, ?_⟩
  intro accounts
  obtain ⟨entries, same, each⟩ := accounts.entries
  obtain rfl := List.perm_singleton.mp same
  cases each with
  | cons accounted _ => cases accounted.rejected rfl

end Sample

end Mailgw.Deliver
