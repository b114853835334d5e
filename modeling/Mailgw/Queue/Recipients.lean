import Mailgw.Deliver.Replies
import Mailgw.Queue.Attempts

namespace Mailgw.Queue

open Calls Deliver

def RunnerConfig.deliverOptions (cfg : RunnerConfig) : Options := { localName := cfg.localName, pool := cfg.pool }

def Genuine (cfg : RunnerConfig) (events : List Happening) : Prop :=
  ∀ relay msg res, ⟨.deliver relay msg, res⟩ ∈ events →
    ∃ net, Rounds (Deliver.deliver relay msg cfg.deliverOptions) net res

def Happening.written (event : Happening) : Option Envelope :=
  match event with
  | ⟨.reschedule _ e due, _⟩ => some (e.dueAt (Instant.ofNanos due))
  | ⟨.complete _ e, _⟩ => some e
  | ⟨.bury _ e, _⟩ => some e
  | _ => none

theorem Happening.written_aside {event : Happening} (aside : event.1.Aside) : Happening.written event = none := by
  obtain ⟨request, answer⟩ := event
  cases request <;> first | rfl | exact aside.elim

/-- The same address, and what has been decided stays decided. -/
structure Kept (r r' : Recipient) : Prop where
  addr : r'.addr = r.addr
  notify : r'.notify = r.notify
  decided : r.isPending = false → r'.status = r.status ∧ r'.lastCode = r.lastCode ∧ r'.lastMsg = r.lastMsg

namespace Kept

theorem refl (r : Recipient) : Kept r r := ⟨rfl, rfl, fun _ => ⟨rfl, rfl, rfl⟩⟩

theorem settled {r r' : Recipient} (kept : Kept r r') (decided : r.isPending = false) : r'.isPending = false := by
  rw [Recipient.isPending, (kept.decided decided).1]
  exact decided

theorem trans {r r' r'' : Recipient} (first : Kept r r') (second : Kept r' r'') : Kept r r'' where
  addr := second.addr.trans first.addr
  notify := second.notify.trans first.notify
  decided := by
    intro decided
    have early := first.decided decided
    have late := second.decided (first.settled decided)
    exact ⟨late.1.trans early.1, late.2.1.trans early.2.1, late.2.2.trans early.2.2⟩

end Kept

def KeptAll (rs rs' : List Recipient) : Prop := List.Forall₂ Kept rs rs'

theorem KeptAll.refl (rs : List Recipient) : KeptAll rs rs := List.forall₂_same.mpr fun r _ => Kept.refl r

theorem KeptAll.trans {rs rs' rs'' : List Recipient} (first : KeptAll rs rs') (second : KeptAll rs' rs'') :
    KeptAll rs rs'' := by
  induction first generalizing rs'' with
  | nil => exact second
  | cons head _ ih =>
    cases second with
    | cons head' tail' => exact .cons (head.trans head') (ih tail')

theorem KeptAll.addrs {rs rs' : List Recipient} (kept : KeptAll rs rs') :
    rs'.map Recipient.addr = rs.map Recipient.addr := by
  induction kept with
  | nil => rfl
  | cons head _ ih => rw [List.map_cons, List.map_cons, head.addr, ih]

theorem KeptAll.mem {rs rs' : List Recipient} (kept : KeptAll rs rs') {r : Recipient} (member : r ∈ rs) :
    ∃ r' ∈ rs', Kept r r' := by
  induction kept with
  | nil => cases member
  | cons head _ ih =>
    rcases List.mem_cons.mp member with rfl | later
    · exact ⟨_, by simp, head⟩
    · obtain ⟨r', within, same⟩ := ih later
      exact ⟨r', by simp [within], same⟩

theorem KeptAll.of_map {f : Recipient → Recipient} {rs : List Recipient} (kept : ∀ r ∈ rs, Kept r (f r)) :
    KeptAll rs (rs.map f) :=
  List.forall₂_map_right_iff.mpr (List.forall₂_same.mpr kept)

/-- The recipient keeps what it has, but for the notification mark, unless it is still pending and expires. -/
structure Lapsed (r r' : Recipient) : Prop where
  same : r' = { r with status := r'.status, dsnSent := r'.dsnSent }
  status : r'.status = r.status ∨ r.isPending = true ∧ r'.status = .expired

def LapsedAll (rs rs' : List Recipient) : Prop := List.Forall₂ Lapsed rs rs'

theorem Lapsed.kept {r r' : Recipient} (lapsed : Lapsed r r') : Kept r r' := by
  rw [lapsed.same]
  refine ⟨rfl, rfl, fun decided => ⟨?_, rfl, rfl⟩⟩
  rcases lapsed.status with same | ⟨pending, -⟩
  · exact same
  · rw [decided] at pending
    cases pending

theorem LapsedAll.refl (rs : List Recipient) : LapsedAll rs rs := List.forall₂_same.mpr fun _ _ => ⟨rfl, .inl rfl⟩

theorem LapsedAll.kept {rs rs' : List Recipient} (lapsed : LapsedAll rs rs') : KeptAll rs rs' :=
  List.Forall₂.imp (fun _ _ => Lapsed.kept) lapsed

theorem Marked.lapsed {rs rs' : List Recipient} (marked : Marked rs rs') : LapsedAll rs rs' := by
  apply List.Forall₂.imp _ marked
  intro r r' same
  rcases same with rfl | rfl
  · exact ⟨rfl, .inl rfl⟩
  · exact ⟨rfl, .inl rfl⟩

theorem KeptAll.done {rs rs' : List Recipient} (kept : KeptAll rs rs') (done : ∀ r ∈ rs, r.isPending = false) :
    ∀ r' ∈ rs', r'.isPending = false := by
  induction kept with
  | nil => simp
  | cons head _ ih =>
    intro r' member
    rcases List.mem_cons.mp member with rfl | later
    · exact head.settled (done _ (by simp))
    · exact ih (fun r rest => done r (by simp [rest])) r' later

theorem Envelope.isDone_iff (e : Envelope) : e.isDone = true ↔ ∀ r ∈ e.rcpts, r.isPending = false := by
  simp [Envelope.isDone, Envelope.pendingRcpts]

def answerOne (r : Recipient) (rr : RcptResult) : Recipient :=
  match rr.outcome with
  | .delivered => { r with status := .delivered, lastCode := rr.code, lastMsg := rr.message }
  | .rejected => { r with status := .permfail, lastCode := rr.code, lastMsg := rr.message }
  | .deferred => r

@[simp] theorem answerOne_addr (r : Recipient) (rr : RcptResult) : (answerOne r rr).addr = r.addr := by
  unfold answerOne
  split <;> rfl

@[simp] theorem answerOne_notify (r : Recipient) (rr : RcptResult) : (answerOne r rr).notify = r.notify := by
  unfold answerOne
  split <;> rfl

theorem answerOne_decided {r : Recipient} {rr : RcptResult} (decisive : rr.outcome ≠ .deferred) :
    (answerOne r rr).isPending = false := by
  unfold answerOne
  split
  · rfl
  · rfl
  · contradiction

/-- Each pending recipient takes the next outcome, the others stay as they are. -/
def assign : List Recipient → List RcptResult → List Recipient
  | [], _ => []
  | r :: rest, outcomes =>
    if r.isPending then
      match outcomes with
      | [] => r :: assign rest []
      | rr :: outcomes => answerOne r rr :: assign rest outcomes
    else r :: assign rest outcomes

def pendingAddrs (rs : List Recipient) : List Name := (rs.filter Recipient.isPending).map Recipient.addr

theorem pendingAddrs_cons (r : Recipient) (rest : List Recipient) :
    pendingAddrs (r :: rest) = if r.isPending then r.addr :: pendingAddrs rest else pendingAddrs rest := by
  simp only [pendingAddrs, List.filter_cons]
  split <;> rfl

theorem pendingAddrs_sublist (rs : List Recipient) : (pendingAddrs rs).Sublist (rs.map Recipient.addr) :=
  List.Sublist.map _ List.filter_sublist

section Folded
variable [CaseFolding]

theorem lapsed_expireRcpt (r : Recipient) : Lapsed r (expireRcpt r) := by
  unfold expireRcpt
  split
  · rename_i pending
    split <;> exact ⟨rfl, .inr ⟨pending, rfl⟩⟩
  · exact ⟨rfl, .inl rfl⟩

theorem Exit.lapsed {env after : Envelope} {exit : Happening} (left : Exit env exit)
    (written : Happening.written exit = some after) : LapsedAll env.rcpts after.rcpts := by
  cases left with
  | reschedule kept =>
    cases written
    exact kept.rcpts.symm ▸ LapsedAll.refl _
  | complete mail done marked =>
    cases written
    exact marked.lapsed
  | bury mail expired =>
    cases written
    rw [expired]
    exact List.forall₂_map_right_iff.mpr (List.forall₂_same.mpr fun r _ => lapsed_expireRcpt r)

section Folding

theorem equalFold_of_common {s t u : Name} (left : equalFold s u = true) (right : equalFold t u = true) :
    equalFold s t = true := by
  rw [equalFold_iff] at *
  exact left.trans right.symm

def DistinctAddrs (addrs : List Name) : Prop := addrs.Pairwise fun a b => equalFold a b = false

theorem DistinctAddrs.sublist {addrs addrs' : List Name} (distinct : DistinctAddrs addrs)
    (sub : addrs'.Sublist addrs) : DistinctAddrs addrs' := List.Pairwise.sublist sub distinct

theorem DistinctAddrs.perm {addrs addrs' : List Name} (distinct : DistinctAddrs addrs) (perm : addrs.Perm addrs') :
    DistinctAddrs addrs' :=
  List.Pairwise.perm distinct perm fun {a b} differ => by rwa [equalFold_comm]

end Folding

/-- The recipient takes the first outcome reported for its address. -/
def answered (results : List RcptResult) (r : Recipient) : Recipient :=
  match results.find? fun rr => equalFold r.addr rr.addr with
  | some rr => answerOne r rr
  | none => r

@[simp] theorem answered_addr (results : List RcptResult) (r : Recipient) : (answered results r).addr = r.addr := by
  unfold answered
  split <;> simp

theorem answered_of_none {results : List RcptResult} {r : Recipient}
    (nobody : ∀ rr ∈ results, equalFold r.addr rr.addr = false) : answered results r = r := by
  have missing : (results.find? fun rr => equalFold r.addr rr.addr) = none := by
    rw [List.find?_eq_none]
    intro rr member
    simp [nobody rr member]
  simp [answered, missing]

theorem answered_of_mem {results : List RcptResult} {r : Recipient} {rr : RcptResult}
    (distinct : DistinctAddrs (results.map RcptResult.addr)) (member : rr ∈ results)
    (same : equalFold r.addr rr.addr = true) : answered results r = answerOne r rr := by
  induction results with
  | nil => cases member
  | cons head rest ih =>
    rw [List.map_cons] at distinct
    obtain ⟨apart, distinct⟩ := List.pairwise_cons.mp distinct
    rcases List.mem_cons.mp member with rfl | later
    · simp [answered, same]
    · have other : equalFold r.addr head.addr = false := by
        by_contra equal
        rw [Bool.not_eq_false] at equal
        have clash := apart rr.addr (List.mem_map_of_mem later)
        rw [equalFold_comm] at same equal
        rw [equalFold_of_common equal same] at clash
        cases clash
      have skipped : answered (head :: rest) r = answered rest r := by
        simp [answered, other]
      rw [skipped]
      exact ih distinct later

section Recording
variable {rs : List Recipient} {results : List RcptResult}

theorem setStatusIn_map {addr : Name} {status : Status} {code : Int} {msg : Name}
    (distinct : DistinctAddrs (rs.map Recipient.addr)) :
    Envelope.setStatusIn addr status code msg rs = rs.map fun r =>
      if equalFold r.addr addr then { r with status, lastCode := code, lastMsg := msg } else r := by
  induction rs with
  | nil => rfl
  | cons head rest ih =>
    rw [List.map_cons] at distinct
    obtain ⟨apart, distinct⟩ := List.pairwise_cons.mp distinct
    rw [Envelope.setStatusIn, List.map_cons]
    split
    · rename_i same
      have others : ∀ r ∈ rest, (if equalFold r.addr addr then { r with status, lastCode := code, lastMsg := msg }
          else r) = r := by
        intro r member
        rw [if_neg]
        intro equal
        have clash := apart r.addr (List.mem_map_of_mem member)
        rw [equalFold_of_common same equal] at clash
        cases clash
      rw [List.map_congr_left others, List.map_id']
    · rw [ih distinct]

theorem recordIn_map {rr : RcptResult} (distinct : DistinctAddrs (rs.map Recipient.addr)) :
    recordIn rs rr = rs.map fun r => if equalFold r.addr rr.addr then answerOne r rr else r := by
  cases outcome : rr.outcome with
  | delivered =>
    simp only [recordIn, answerOne, outcome]
    exact setStatusIn_map distinct
  | rejected =>
    simp only [recordIn, answerOne, outcome]
    exact setStatusIn_map distinct
  | deferred => simp [recordIn, answerOne, outcome]

/-- Between distinct addresses no outcome goes astray. -/
theorem foldl_recordIn (distinct : DistinctAddrs (rs.map Recipient.addr))
    (reported : DistinctAddrs (results.map RcptResult.addr)) :
    results.foldl recordIn rs = rs.map (answered results) := by
  induction results generalizing rs with
  | nil => exact (List.map_id' rs).symm
  | cons rr rest ih =>
    obtain ⟨apart, reported'⟩ := List.pairwise_cons.mp (List.map_cons ▸ reported)
    have addrs : (recordIn rs rr).map Recipient.addr = rs.map Recipient.addr := by
      rw [recordIn_map distinct, List.map_map]
      apply List.map_congr_left
      intro r _
      simp only [Function.comp]
      split <;> simp
    rw [List.foldl_cons, ih (addrs ▸ distinct) reported', recordIn_map distinct, List.map_map]
    apply List.map_congr_left
    intro r _
    simp only [Function.comp]
    split
    · rename_i same
      rw [answered_of_mem reported List.mem_cons_self same]
      apply answered_of_none
      intro other member
      have differ := apart other.addr (List.mem_map_of_mem member)
      by_contra equal
      rw [Bool.not_eq_false, answerOne_addr, equalFold_comm] at equal
      rw [equalFold_comm] at same
      rw [equalFold_of_common same equal] at differ
      cases differ
    · rename_i differ
      simp [answered, differ]

end Recording

theorem decided_apart {rs : List Recipient} (distinct : DistinctAddrs (rs.map Recipient.addr)) {r : Recipient}
    (member : r ∈ rs) (decided : r.isPending = false) {addr : Name} (pending : addr ∈ pendingAddrs rs) :
    equalFold r.addr addr = false := by
  induction rs with
  | nil => cases member
  | cons head rest ih =>
    rw [List.map_cons] at distinct
    obtain ⟨apart, distinct⟩ := List.pairwise_cons.mp distinct
    rw [pendingAddrs_cons] at pending
    rcases List.mem_cons.mp member with rfl | later
    · rw [decided] at pending
      exact apart addr ((pendingAddrs_sublist rest).subset pending)
    · split at pending
      · rcases List.mem_cons.mp pending with rfl | pending
        · rw [equalFold_comm]
          exact apart r.addr (List.mem_map_of_mem later)
        · exact ih distinct later pending
      · exact ih distinct later pending

theorem assign_eq {rs : List Recipient} {outcomes results : List RcptResult}
    (own : outcomes.map RcptResult.addr = pendingAddrs rs) (listed : ∀ rr ∈ outcomes, rr ∈ results)
    (reported : DistinctAddrs (results.map RcptResult.addr))
    (others : ∀ r ∈ rs, r.isPending = false → ∀ rr ∈ results, equalFold r.addr rr.addr = false) :
    assign rs outcomes = rs.map (answered results) := by
  induction rs generalizing outcomes with
  | nil => rfl
  | cons r rest ih =>
    rw [pendingAddrs_cons] at own
    have others' : ∀ r ∈ rest, r.isPending = false → ∀ rr ∈ results, equalFold r.addr rr.addr = false :=
      fun r member => others r (List.mem_cons_of_mem _ member)
    rw [assign.eq_def, List.map_cons]
    dsimp only
    split
    · rename_i pending
      rw [if_pos pending] at own
      cases outcomes with
      | nil => cases own
      | cons rr outcomes =>
        rw [List.map_cons, List.cons.injEq] at own
        have mine : answered results r = answerOne r rr := by
          apply answered_of_mem reported (listed rr (by simp))
          rw [own.1]
          exact equalFold_refl _
        rw [mine]
        dsimp only
        rw [ih own.2 (fun rr member => listed rr (by simp [member])) others']
    · rename_i decided
      rw [if_neg decided] at own
      have untouched : answered results r = r := by
        apply answered_of_none
        exact others r (by simp) (by simpa using decided)
      rw [untouched, ih own listed others']

structure AttemptMade (env : Envelope) (events : List Happening) (settled : Envelope) (exit : Happening) : Prop where
  left : Exit settled exit
  wrote : exit ∈ events
  last : ∀ event ∈ events, Happening.written event ≠ none → event = exit
  mail : settled.mail = env.mail
  sent : ∀ relay msg res, ⟨.deliver relay msg, res⟩ ∈ events → msg.rcpts = pendingAddrs env.rcpts
  outcome : (settled.rcpts = env.rcpts ∧ ∀ relay msg res, ⟨.deliver relay msg, res⟩ ∈ events → res.err ≠ none) ∨
    ∃ relay msg res, ⟨.deliver relay msg, res⟩ ∈ events ∧ res.err = none ∧
      settled.rcpts = res.rcpts.foldl recordIn env.rcpts ∧
      ∀ relay' msg' res', ⟨.deliver relay' msg', res'⟩ ∈ events → res'.err = none → res' = res

section Attempt
variable {cfg : RunnerConfig} {inflight : Name} {env settled after : Envelope} {events : List Happening}
  {exit : Happening}

theorem attempt_parts (run : Trace (attempt cfg inflight env) events ()) :
    ∃ offering closing settled exit, events = offering ++ closing ∧
      Offers env (pendingAddrs env.rcpts) offering settled ∧ Closing cfg inflight settled closing ∧
      AttemptMade env events settled exit := by
  obtain ⟨offering, closing, settled, rfl, offers, closed⟩ := attempt_run run
  have ends := closed.ends
  obtain ⟨before, exit, rfl, aside, left⟩ := ends
  have quiet : ∀ {relay msg} {res : Result}, (⟨.deliver relay msg, res⟩ : Happening) ∈ offering ++ (before ++ [exit]) →
      (⟨.deliver relay msg, res⟩ : Happening) ∈ offering := by
    intro relay msg res member
    simp only [List.mem_append, List.mem_singleton] at member
    rcases member with early | middle | final
    · exact early
    · exact (aside _ middle).elim
    · subst final
      cases left
  refine ⟨offering, _, settled, exit, rfl, offers, closed, left, by simp, ?_, offers.mail, ?_, ?_⟩
  · intro event member writes
    simp only [List.mem_append, List.mem_singleton] at member
    rcases member with early | middle | final
    · rcases offers.writes event early with calm | ⟨relay, msg, offer⟩
      · exact absurd (Happening.written_aside calm) writes
      · obtain ⟨request, answer⟩ := event
        cases offer
        exact absurd rfl writes
    · exact absurd (Happening.written_aside (aside event middle)) writes
    · exact final
  · exact fun relay msg res member => (offers.sent relay msg res (quiet member)).2
  · rcases offers.outcome with ⟨same, failed⟩ | ⟨relay, msg, res, answered, fine, applied, only⟩
    · exact .inl ⟨same, fun relay msg res member => failed relay msg res (quiet member)⟩
    · refine .inr ⟨relay, msg, res, List.mem_append_left _ answered, fine, ?_, ?_⟩
      · rw [applied, settle_rcpts]
      · exact fun relay' msg' res' member => only relay' msg' res' (quiet member)

theorem attempt_attempted (run : Trace (attempt cfg inflight env) events ()) :
    ∃ settled exit, AttemptMade env events settled exit := by
  obtain ⟨_, _, settled, exit, _, _, _, attempted⟩ := attempt_parts run
  exact ⟨settled, exit, attempted⟩

/-- A result that reports no failure of the attempt settles exactly the recipients it was for. -/
theorem AttemptMade.settles (attempted : AttemptMade env events settled exit)
    (distinct : DistinctAddrs (env.rcpts.map Recipient.addr)) {relay : Relay} {msg : Message} {res : Result}
    {net : List Deliver.Event} (member : ⟨.deliver relay msg, res⟩ ∈ events)
    (genuine : Rounds (Deliver.deliver relay msg cfg.deliverOptions) net res) (fine : res.err = none) :
    settled.rcpts = env.rcpts.map (answered res.rcpts) ∧ DistinctAddrs (res.rcpts.map RcptResult.addr) ∧
      (∀ r ∈ env.rcpts, r.isPending = false → ∀ rr ∈ res.rcpts, equalFold r.addr rr.addr = false) ∧
      assign env.rcpts (ownOutcomes msg.rcpts net) = settled.rcpts := by
  have answers := rounds_answered genuine fine
  have sent := attempted.sent relay msg res member
  have own := answers.own
  rw [sent] at own
  have addrs : (pendingAddrs env.rcpts).Perm (res.rcpts.map RcptResult.addr) := by
    have listed := answers.outcomes.map RcptResult.addr
    rwa [sent, own] at listed
  have reported := (distinct.sublist (pendingAddrs_sublist _)).perm addrs
  have others : ∀ r ∈ env.rcpts, r.isPending = false → ∀ rr ∈ res.rcpts, equalFold r.addr rr.addr = false := by
    intro r within decided rr listed
    exact decided_apart distinct within decided (addrs.mem_iff.mpr (List.mem_map_of_mem listed))
  have applied : settled.rcpts = env.rcpts.map (answered res.rcpts) := by
    rcases attempted.outcome with ⟨_, failed⟩ | ⟨relay', msg', res', _, fine', applied, only⟩
    · exact absurd fine (failed relay msg res member)
    · rw [applied, ← only relay msg res member fine, foldl_recordIn distinct reported]
  refine ⟨applied, reported, others, ?_⟩
  rw [applied, sent]
  apply assign_eq own _ reported others
  rw [← sent]
  exact fun rr listed => answers.outcomes.mem_iff.mp listed

theorem kept_answered {results : List RcptResult} {r : Recipient}
    (others : r.isPending = false → ∀ rr ∈ results, equalFold r.addr rr.addr = false) :
    Kept r (answered results r) where
  addr := answered_addr results r
  notify := by
    unfold answered
    split <;> simp
  decided := by
    intro decided
    rw [answered_of_none (others decided)]
    exact ⟨rfl, rfl, rfl⟩

theorem AttemptMade.settled_kept (attempted : AttemptMade env events settled exit) (genuine : Genuine cfg events)
    (distinct : DistinctAddrs (env.rcpts.map Recipient.addr)) : KeptAll env.rcpts settled.rcpts := by
  rcases attempted.outcome with ⟨same, _⟩ | ⟨relay, msg, res, member, fine, _⟩
  · rw [same]
    exact .refl _
  · obtain ⟨net, rounds⟩ := genuine relay msg res member
    obtain ⟨applied, _, others, _⟩ := attempted.settles distinct member rounds fine
    rw [applied]
    exact KeptAll.of_map fun r within => kept_answered (others r within)

end Attempt

structure OutcomesLand (cfg : RunnerConfig) (env : Envelope) (events : List Happening) (after : Envelope) : Prop where
  resolved : ∀ relay msg res, ⟨.deliver relay msg, res⟩ ∈ events → res.err = none →
    (∀ addr ∈ msg.rcpts, ∃ rr ∈ res.rcpts, rr.addr = addr ∧ rr.outcome ≠ .deferred) → after.isDone = true
  final : KeptAll env.rcpts after.rcpts
  untouched : (∀ relay msg res, ⟨.deliver relay msg, res⟩ ∈ events → res.err ≠ none) → LapsedAll env.rcpts after.rcpts
  unsent : ∀ relay msg res, ⟨.deliver relay msg, res⟩ ∈ events → ∀ r ∈ env.rcpts, r.isPending = false →
    r.addr ∉ msg.rcpts
  own : ∀ relay msg res net, ⟨.deliver relay msg, res⟩ ∈ events →
    Rounds (Deliver.deliver relay msg cfg.deliverOptions) net res → res.err = none →
      LapsedAll (assign env.rcpts (ownOutcomes msg.rcpts net)) after.rcpts

theorem attempt_unsent {cfg : RunnerConfig} {inflight : Name} {env : Envelope} {events : List Happening}
    (run : Trace (attempt cfg inflight env) events ()) (distinct : DistinctAddrs (env.rcpts.map Recipient.addr))
    {relay : Relay} {msg : Message} {res : Result} (offered : ⟨.deliver relay msg, res⟩ ∈ events) {r : Recipient}
    (member : r ∈ env.rcpts) (decided : r.isPending = false) : r.addr ∉ msg.rcpts := by
  obtain ⟨settled, exit, attempted⟩ := attempt_attempted run
  intro asked
  rw [attempted.sent relay msg res offered] at asked
  have clash := decided_apart distinct member decided asked
  simp at clash

theorem attempt_lands {cfg : RunnerConfig} {inflight : Name} {env after : Envelope} {events : List Happening}
    {event : Happening} (run : Trace (attempt cfg inflight env) events ()) (genuine : Genuine cfg events)
    (distinct : DistinctAddrs (env.rcpts.map Recipient.addr)) (member : event ∈ events)
    (written : Happening.written event = some after) : OutcomesLand cfg env events after := by
  obtain ⟨settled, exit, attempted⟩ := attempt_attempted run
  obtain rfl := attempted.last event member (by simp [written])
  have leaving := attempted.left.lapsed written
  refine ⟨?_, (attempted.settled_kept genuine distinct).trans leaving.kept, ?_, ?_, ?_⟩
  · intro relay msg res offered fine decisive
    obtain ⟨net, rounds⟩ := genuine relay msg res offered
    obtain ⟨applied, reported, others, _⟩ := attempted.settles distinct offered rounds fine
    rw [Envelope.isDone_iff]
    apply leaving.kept.done
    rw [applied]
    intro r' mapped
    obtain ⟨r, within, rfl⟩ := List.mem_map.mp mapped
    by_cases pending : r.isPending = true
    · have asked : r.addr ∈ msg.rcpts := by
        rw [attempted.sent relay msg res offered]
        exact List.mem_map_of_mem (List.mem_filter.mpr ⟨within, pending⟩)
      obtain ⟨rr, listed, same, decided⟩ := decisive r.addr asked
      rw [answered_of_mem reported listed (same ▸ equalFold_refl _)]
      exact answerOne_decided decided
    · have decided : r.isPending = false := by simpa using pending
      rw [answered_of_none (others r within decided)]
      exact decided
  · intro failed
    rcases attempted.outcome with ⟨same, -⟩ | ⟨relay, msg, res, offered, fine, -⟩
    · exact same ▸ leaving
    · exact absurd fine (failed relay msg res offered)
  · exact fun relay msg res offered r within decided => attempt_unsent run distinct offered within decided
  · intro relay msg res net offered rounds fine
    rw [(attempted.settles distinct offered rounds fine).2.2.2]
    exact leaving

/-- The attempts on an envelope, with all they asked of the outside. An attempt may be cut short
    anywhere, or end in a write that does not last: then the envelope it began with comes back. -/
inductive History (cfg : RunnerConfig) (first : Envelope) : List Happening → Envelope → Prop where
  | fresh : History cfg first [] first
  | lost {past events rest : List Happening} {env : Envelope} {inflight : Name}
      (earlier : History cfg first past env) (run : Trace (attempt cfg inflight env) (events ++ rest) ())
      (genuine : Genuine cfg events) : History cfg first (past ++ events) env
  | retried {past events : List Happening} {env e : Envelope} {inflight : Name} {due : Int} {answer : Option Chars}
      (earlier : History cfg first past env) (run : Trace (attempt cfg inflight env) events ())
      (genuine : Genuine cfg events) (kept : ⟨.reschedule inflight e due, answer⟩ ∈ events) :
      History cfg first (past ++ events) (e.dueAt (Instant.ofNanos due))

theorem History.kept {cfg : RunnerConfig} {first env : Envelope} {past : List Happening}
    (history : History cfg first past env) (distinct : DistinctAddrs (first.rcpts.map Recipient.addr)) :
    KeptAll first.rcpts env.rcpts := by
  induction history with
  | fresh => exact .refl _
  | lost _ _ _ ih => exact ih
  | retried _ run genuine kept ih =>
    have distinct' := ih.addrs ▸ distinct
    exact ih.trans (attempt_lands run genuine distinct' kept rfl).final

theorem History.unsent {cfg : RunnerConfig} {first env : Envelope} {past : List Happening}
    (history : History cfg first past env) (distinct : DistinctAddrs (first.rcpts.map Recipient.addr))
    {relay : Relay} {msg : Message} {res : Result} (offered : ⟨.deliver relay msg, res⟩ ∈ past) {r : Recipient}
    (member : r ∈ first.rcpts) (decided : r.isPending = false) : r.addr ∉ msg.rcpts := by
  have step : ∀ {env : Envelope} {inflight : Name} {events : List Happening},
      KeptAll first.rcpts env.rcpts → Trace (attempt cfg inflight env) events () →
        (⟨.deliver relay msg, res⟩ : Happening) ∈ events → r.addr ∉ msg.rcpts := by
    intro env inflight events kept run sent
    obtain ⟨r', within, same⟩ := kept.mem member
    rw [← same.addr]
    exact attempt_unsent run (kept.addrs ▸ distinct) sent within (same.settled decided)
  induction history with
  | fresh => cases offered
  | lost earlier run _ ih =>
    rcases List.mem_append.mp offered with early | late
    · exact ih early
    · exact step (earlier.kept distinct) run (List.mem_append_left _ late)
  | retried earlier run _ _ ih =>
    rcases List.mem_append.mp offered with early | late
    · exact ih early
    · exact step (earlier.kept distinct) run late

def Leaves (events : List Happening) (after : Envelope) : Prop :=
  ∃ event ∈ events, Happening.written event = some after

theorem Exit.written {env : Envelope} {exit : Happening} (left : Exit env exit) :
    ∃ after, Happening.written exit = some after := by
  cases left with
  | reschedule => exact ⟨_, rfl⟩
  | complete => exact ⟨_, rfl⟩
  | bury => exact ⟨_, rfl⟩

/-- Between recipients no two of which are the same up to case, every attempt of every history
    settles exactly the recipients its outcomes are about, and nobody is sent to again. -/
theorem outcomes_land (cfg : RunnerConfig) (first : Envelope)
    (distinct : DistinctAddrs (first.rcpts.map Recipient.addr)) (past : List Happening) (env : Envelope)
    (history : History cfg first past env) :
    (∀ inflight events, Trace (attempt cfg inflight env) events () → Genuine cfg events →
      (∃ after, Leaves events after) ∧ ∀ after, Leaves events after → OutcomesLand cfg env events after) ∧
    (∀ later env', History cfg env later env' → KeptAll env.rcpts env'.rcpts ∧
      ∀ relay msg res, ⟨.deliver relay msg, res⟩ ∈ later → ∀ r ∈ env.rcpts, r.isPending = false →
        r.addr ∉ msg.rcpts) := by
  have distinct' : DistinctAddrs (env.rcpts.map Recipient.addr) := (history.kept distinct).addrs ▸ distinct
  constructor
  · intro inflight events run genuine
    obtain ⟨settled, exit, attempted⟩ := attempt_attempted run
    obtain ⟨after, written⟩ := attempted.left.written
    refine ⟨⟨after, exit, attempted.wrote, written⟩, fun after left => ?_⟩
    obtain ⟨event, member, written⟩ := left
    exact attempt_lands run genuine distinct' member written
  · intro later env' continued
    refine ⟨continued.kept distinct', fun relay msg res offered r member decided => ?_⟩
    exact continued.unsent distinct' offered member decided

end Folded

section Sample

local instance : CaseFolding := ⟨Char.toLower⟩

def plainEnvelope (addrs : List String) : Envelope where
  uuid := "a.1.1".toList
  txnUUID := "a.1".toList
  connUUID := "a".toList
  body := "a.1.eml".toList
  mailFrom := "a@b".toList
  rcpts := addrs.map fun addr => { addr := addr.toList }
  relayGrp := "g".toList

def plainConfig : RunnerConfig := { backoff := fun _ => 60000000000, localName := "gw".toList }

def plainOffer (addrs : List String) : Message where
  mailFrom := "a@b".toList
  rcpts := addrs.map String.toList
  body := wholeFile

def acceptingNet (addrs : List String) : List Deliver.Event :=
  [⟨.dial "mx:25".toList, .ok sampleSocket⟩, ⟨.hello sampleSocket "gw".toList, none⟩,
    ⟨.mail sampleSocket "a@b".toList ⟨false, false⟩, none⟩] ++
  addrs.map (fun addr => ⟨.rcpt sampleSocket addr.toList, none⟩) ++
  [⟨.data sampleSocket, none⟩, ⟨.write sampleSocket [65, 66], ⟨2, none⟩⟩,
    ⟨.closeWithResponse sampleSocket, .ok []⟩, ⟨.quit sampleSocket, none⟩]

def acceptedResult (addrs : List String) : Result where
  relay := sampleRelay
  host := "mx".toList
  port := "25".toList
  tlsForced := false
  response := "250 OK".toList
  rcpts := addrs.map fun addr =>
    { addr := addr.toList, outcome := .delivered, code := 250, message := "250 OK".toList }
  poolable := true
  messages := 1

def acceptedEvents (addrs : List String) (closing : List Happening) : List Happening :=
  [⟨.lookup "g".toList, true⟩, ⟨.acquire "g".toList, true⟩, ⟨.targets "g".toList, ([sampleRelay], none)⟩,
    ⟨.sign { plainEnvelope addrs with attempts := 1 } [], []⟩, ⟨.openBody "a.1.eml".toList, .ok wholeFile⟩,
    ⟨.deliver sampleRelay (plainOffer addrs), acceptedResult addrs⟩] ++ closing

theorem genuine_accepted {addrs : List String} {closing : List Happening}
    (rounds : Rounds (Deliver.deliver sampleRelay (plainOffer addrs) plainConfig.deliverOptions)
      (acceptingNet addrs) (acceptedResult addrs))
    (aside : ∀ relay msg res, (⟨.deliver relay msg, res⟩ : Happening) ∉ closing) :
    Genuine plainConfig (acceptedEvents addrs closing) := by
  intro relay msg res member
  simp only [acceptedEvents, List.cons_append, List.nil_append, List.mem_cons] at member
  rcases member with same | same | same | same | same | same | later
  · cases same
  · cases same
  · cases same
  · cases same
  · cases same
  · cases same
    exact ⟨_, rounds⟩
  · exact absurd later (aside relay msg res)

/-- The relay accepts the message for both spellings, and the second one stays pending: the
    recipient listed first takes both outcomes. -/
def halfSettled : Envelope where
  uuid := "a.1.1".toList
  txnUUID := "a.1".toList
  connUUID := "a".toList
  body := "a.1.eml".toList
  mailFrom := "a@b".toList
  rcpts := [
    { addr := "c@d".toList, status := .delivered, lastCode := 250, lastMsg := "250 OK".toList },
    { addr := "C@d".toList }]
  relayGrp := "g".toList
  attempts := 1

def halfSettledClosing : List Happening := [
  ⟨.jitter 60000000000, 60000000000⟩, ⟨.now, (0 : Int)⟩,
  ⟨.reschedule "1.x".toList halfSettled 60000000000, none⟩]

theorem duplicate_left_pending : ∃ events after relay msg res,
    History plainConfig (plainEnvelope ["c@d", "C@d"]) [] (plainEnvelope ["c@d", "C@d"]) ∧
    Trace (attempt plainConfig "1.x".toList (plainEnvelope ["c@d", "C@d"])) events () ∧
    Genuine plainConfig events ∧ Leaves events after ∧ ⟨.deliver relay msg, res⟩ ∈ events ∧ res.err = none ∧
    (∀ addr ∈ msg.rcpts, ∃ rr ∈ res.rcpts, rr.addr = addr ∧ rr.outcome = .delivered) ∧ after.isDone = false := by
  have rounds : Rounds (Deliver.deliver sampleRelay (plainOffer ["c@d", "C@d"]) plainConfig.deliverOptions)
      (acceptingNet ["c@d", "C@d"]) (acceptedResult ["c@d", "C@d"]) :=
    .last (Trace.of_replay (by decide))
  have run : Trace (attempt plainConfig "1.x".toList (plainEnvelope ["c@d", "C@d"]))
      (acceptedEvents ["c@d", "C@d"] halfSettledClosing) () :=
    Trace.of_replay (by decide)
  refine ⟨_, halfSettled.dueAt (Instant.ofNanos 60000000000), sampleRelay, plainOffer ["c@d", "C@d"],
    acceptedResult ["c@d", "C@d"], .fresh, run, ?_, ?_, ?_, rfl, ?_, by decide⟩
  · apply genuine_accepted rounds
    simp [halfSettledClosing]
  · exact ⟨⟨.reschedule "1.x".toList halfSettled 60000000000, none⟩, by simp [acceptedEvents, halfSettledClosing], rfl⟩
  · simp [acceptedEvents]
  · decide

def rejection : Deliver.Failure := { text := "550 no".toList, smtp := some ⟨550, (5, 1, 1), "no".toList⟩ }
def greylisting : Deliver.Failure := { text := "450 busy".toList, smtp := some ⟨450, (4, 2, 1), "busy".toList⟩ }

def mixedNet : List Deliver.Event :=
  [⟨.dial "mx:25".toList, .ok sampleSocket⟩, ⟨.hello sampleSocket "gw".toList, none⟩,
    ⟨.mail sampleSocket "a@b".toList ⟨false, false⟩, none⟩, ⟨.rcpt sampleSocket "c@d".toList, none⟩,
    ⟨.rcpt sampleSocket "e@f".toList, some rejection⟩, ⟨.rcpt sampleSocket "g@h".toList, some greylisting⟩,
    ⟨.data sampleSocket, none⟩, ⟨.write sampleSocket [65, 66], ⟨2, none⟩⟩, ⟨.closeWithResponse sampleSocket, .ok []⟩,
    ⟨.quit sampleSocket, none⟩]

def mixedResult : Result where
  relay := sampleRelay
  host := "mx".toList
  port := "25".toList
  tlsForced := false
  response := "250 OK".toList
  rcpts := [classify "e@f".toList rejection, classify "g@h".toList greylisting,
    { addr := "c@d".toList, outcome := .delivered, code := 250, message := "250 OK".toList }]
  poolable := true
  messages := 1

def mixedEnvelope : Envelope :=
  { plainEnvelope ["c@d", "e@f", "g@h"] with
    attempts := 1
    lastErr := "busy".toList
    rcpts := [{ addr := "c@d".toList, status := .delivered, lastCode := 250, lastMsg := "250 OK".toList },
      { addr := "e@f".toList, status := .permfail, lastCode := 550, lastMsg := "no".toList }, { addr := "g@h".toList }] }

def mixedEvents : List Happening :=
  [⟨.lookup "g".toList, true⟩, ⟨.acquire "g".toList, true⟩, ⟨.targets "g".toList, ([sampleRelay], none)⟩,
    ⟨.sign { plainEnvelope ["c@d", "e@f", "g@h"] with attempts := 1 } [], []⟩,
    ⟨.openBody "a.1.eml".toList, .ok wholeFile⟩,
    ⟨.deliver sampleRelay (plainOffer ["c@d", "e@f", "g@h"]), mixedResult⟩, ⟨.jitter 60000000000, 60000000000⟩,
    ⟨.now, (0 : Int)⟩, ⟨.reschedule "1.x".toList mixedEnvelope 60000000000, none⟩]

theorem outcomes_land_sample : ∃ events after,
    Trace (attempt plainConfig "1.x".toList (plainEnvelope ["c@d", "e@f", "g@h"])) events () ∧ Leaves events after ∧
      after.rcpts.map Recipient.status = [.delivered, .permfail, .pending] ∧
      OutcomesLand plainConfig (plainEnvelope ["c@d", "e@f", "g@h"]) events after := by
  have rounds : Rounds (Deliver.deliver sampleRelay (plainOffer ["c@d", "e@f", "g@h"]) plainConfig.deliverOptions)
      mixedNet mixedResult :=
    .last (Trace.of_replay (by decide))
  have distinct : DistinctAddrs ((plainEnvelope ["c@d", "e@f", "g@h"]).rcpts.map Recipient.addr) := by
    unfold DistinctAddrs
    decide
  have run : Trace (attempt plainConfig "1.x".toList (plainEnvelope ["c@d", "e@f", "g@h"])) mixedEvents () :=
    Trace.of_replay (by decide)
  have genuine : Genuine plainConfig mixedEvents := by
    intro relay msg res member
    simp only [mixedEvents, List.mem_cons, Sigma.mk.injEq, reduceCtorEq, false_and, false_or, Effect.deliver.injEq,
      List.not_mem_nil, or_false] at member
    obtain ⟨⟨rfl, rfl⟩, same⟩ := member
    exact ⟨_, eq_of_heq same ▸ rounds⟩
  have left : Leaves mixedEvents (mixedEnvelope.dueAt (Instant.ofNanos 60000000000)) :=
    ⟨⟨.reschedule "1.x".toList mixedEnvelope 60000000000, none⟩, by simp [mixedEvents], rfl⟩
  obtain ⟨-, lands⟩ :=
    (outcomes_land plainConfig (plainEnvelope ["c@d", "e@f", "g@h"]) distinct [] _ .fresh).1 "1.x".toList _ run genuine
  exact ⟨_, _, run, left, rfl, lands _ left⟩

end Sample

end Mailgw.Queue
