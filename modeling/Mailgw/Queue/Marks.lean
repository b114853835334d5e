import Mailgw.Queue.Reports

namespace Mailgw.Queue

open Calls Deliver

/-- An element of two lists put together is in the first one, or in the second one with the first one before it. -/
theorem cut_append {α : Type} {first second before rest : List α} {x : α} (split : first ++ second = before ++ x :: rest) :
    (∃ more, first = before ++ x :: more) ∨ ∃ middle, before = first ++ middle ∧ second = middle ++ x :: rest := by
  rcases List.append_eq_append_iff.mp split with ⟨middle, within, later⟩ | ⟨left, early, tail⟩
  · exact .inr ⟨middle, within, later⟩
  · cases left with
    | nil => exact .inr ⟨[], by simpa using early.symm, by simpa using tail.symm⟩
    | cons y left =>
      obtain ⟨rfl, -⟩ := List.cons.inj tail
      exact .inl ⟨left, early⟩

section Burials
variable [CaseFolding] {cfg : RunnerConfig} {b : Bouncer} {inflight : Name} {env env' : Envelope}
  {events before rest : List Happening}

def BuriedBy (cfg : RunnerConfig) (env : Envelope) (before : List Happening) (gone : Envelope) : Prop :=
  ∃ expiring telling, env.Alike expiring ∧ telling ⊆ before ∧
    Trace (bounceExpired cfg expiring { expiring with rcpts := expiring.rcpts.map expireRcpt }) telling gone

theorem BuriedBy.of_alike {gone : Envelope} (same : env.Alike env') (buried : BuriedBy cfg env' before gone) :
    BuriedBy cfg env before gone := by
  obtain ⟨expiring, telling, alike, sub, told⟩ := buried
  exact ⟨expiring, telling, same.trans alike, sub, told⟩

theorem BuriedBy.behind {gone : Envelope} (earlier : List Happening) (buried : BuriedBy cfg env before gone) :
    BuriedBy cfg env (earlier ++ before) gone := by
  obtain ⟨expiring, telling, alike, within, told⟩ := buried
  exact ⟨expiring, telling, alike, fun event member => List.mem_append_right _ (within member), told⟩

omit [CaseFolding] in
theorem not_buried {gone : Envelope} {answer : Option Chars} (aside : ∀ event ∈ events, event.1.Aside) :
    ∀ more, events ≠ before ++ ⟨.bury inflight gone, answer⟩ :: more := by
  rintro more rfl
  exact aside ⟨.bury inflight gone, answer⟩ (by simp)

theorem expire_burial {buried : Bool} (run : Trace (expire cfg inflight env) events buried) {gone : Envelope}
    {answer : Option Chars} (split : events = before ++ ⟨.bury inflight gone, answer⟩ :: rest) :
    BuriedBy cfg env before gone := by
  unfold expire at run
  split at run
  · obtain ⟨rfl, -⟩ := Trace.done_inv run
    simp at split
  obtain ⟨now, later, rfl, judging⟩ := Trace.ask_inv run
  split at judging
  · obtain ⟨rfl, -⟩ := Trace.done_inv judging
    exact absurd split (not_buried (by simp [Effect.Aside]) rest)
  · obtain ⟨telling, _, gone', rfl, told, burying⟩ := Trace.bind_inv judging
    obtain ⟨answer', _, rfl, finished⟩ := Trace.ask_inv burying
    obtain ⟨rfl, -⟩ := Trace.done_inv finished
    have quiet : ∀ event ∈ (⟨.now, now⟩ : Happening) :: telling, event.1.Aside :=
      List.forall_mem_cons.mpr ⟨trivial, aside_of_clerical told bounceExpired_clerical⟩
    rw [← List.cons_append] at split
    rcases cut_append split with ⟨more, early⟩ | ⟨middle, rfl, last⟩
    · exact absurd early (not_buried quiet more)
    · cases middle with
      | nil =>
        cases last
        exact ⟨env, telling, .refl env, fun event member => by simp [member], told⟩
      | cons event middle => simp at last

theorem deferEnvelope_burial {reason : Chars} (run : Trace (deferEnvelope cfg inflight env reason) events ())
    {gone : Envelope} {answer : Option Chars} (split : events = before ++ ⟨.bury inflight gone, answer⟩ :: rest) :
    BuriedBy cfg env before gone := by
  unfold deferEnvelope at run
  dsimp only at run
  have reasoned : env.Alike (if reason ≠ [] then { env with lastErr := reason } else env) := by
    split
    · exact ⟨rfl, rfl⟩
    · exact .refl _
  apply BuriedBy.of_alike reasoned
  obtain ⟨ageing, _, buried, rfl, aged, run⟩ := Trace.bind_inv run
  rcases cut_append split with ⟨more, early⟩ | ⟨middle, rfl, late⟩
  · exact expire_burial aged early
  · cases buried with
    | true =>
      obtain ⟨rfl, -⟩ := Trace.done_inv run
      simp at late
    | false =>
      obtain ⟨warning, _, warned, rfl, told, waiting⟩ := Trace.bind_inv run
      obtain ⟨delay, _, rfl, timing⟩ := Trace.ask_inv waiting
      obtain ⟨now, _, rfl, writing⟩ := Trace.ask_inv timing
      obtain ⟨answer', _, rfl, finished⟩ := Trace.ask_inv writing
      obtain ⟨rfl, -⟩ := Trace.done_inv finished
      have buries : (⟨.bury inflight gone, answer⟩ : Happening) ∈ middle ++ ⟨.bury inflight gone, answer⟩ :: rest := by simp
      rw [← late] at buries
      rcases List.mem_append.mp buries with warns | waits
      · exact (aside_of_clerical told warnDelayed_clerical _ warns).elim
      · simp at waits

theorem Closing.burial (closing : Closing cfg inflight env events) {gone : Envelope} {answer : Option Chars}
    (split : events = before ++ ⟨.bury inflight gone, answer⟩ :: rest) : BuriedBy cfg env before gone := by
  have buries : (⟨.bury inflight gone, answer⟩ : Happening) ∈ events := by simp [split]
  cases closing with
  | deferred reason run => exact deferEnvelope_burial run split
  | stopped now answer' all =>
    rw [all] at buries
    simp at buries
  | concluded run =>
    unfold conclude at run
    split at run
    · obtain ⟨failing, _, failed, rfl, first, remaining⟩ := Trace.bind_inv run
      obtain ⟨relaying, _, relayed, rfl, second, completing⟩ := Trace.bind_inv remaining
      obtain ⟨answer', _, rfl, finished⟩ := Trace.ask_inv completing
      obtain ⟨rfl, -⟩ := Trace.done_inv finished
      rcases List.mem_append.mp buries with early | late
      · exact (aside_of_clerical first bounceFailed_clerical _ early).elim
      · rcases List.mem_append.mp late with middle | last
        · exact (aside_of_clerical second notifyRelayed_clerical _ middle).elim
        · simp at last
    · exact deferEnvelope_burial run split

theorem BuriedBy.marks {gone : Envelope} (buried : BuriedBy cfg env before gone)
    (unreported : ∀ r ∈ env.rcpts, r.Unreported)
    (reports : (∃ r ∈ env.rcpts, expiredUnreported r = true) → ∃ b, cfg.bouncer = some b ∧ b.Usable ∧
      suppress env = false ∧ (∀ event ∈ before, Obliging b event) ∧
        (b.quotesFullMessage env .failed = true → ∀ event ∈ before, Legible event)) :
    ∀ r ∈ gone.rcpts, r.dsnSent = true → NamedIn .failed env.mailFrom r.addr before := by
  obtain ⟨expiring, telling, alike, sub, told⟩ := buried
  intro r' member marked
  rw [(bounceExpired_alike told).rcpts] at member
  obtain ⟨r, within, rfl⟩ := List.mem_map.mp member
  rw [alike.rcpts] at within
  obtain ⟨unsent, -⟩ := unreported r within
  have about : expiredUnreported r = true := by
    simp only [expireRcpt] at marked
    split at marked
    · split at marked
      · rename_i pending wants
        simp [expiredUnreported, pending, wants, unsent]
      · simp [unsent] at marked
    · simp [unsent] at marked
  obtain ⟨b, bouncer, usable, answerable, obliging, legible⟩ := reports ⟨r, within, about⟩
  have listed : r ∈ expiring.rcpts.filter expiredUnreported := by
    rw [alike.rcpts]
    exact List.mem_filter.mpr ⟨within, about⟩
  have somebody : expiring.rcpts.filter expiredUnreported ≠ [] := List.ne_nil_of_mem listed
  have answerable' : suppress expiring = false := (suppress_mail alike.mail).trans answerable
  simp only [bounceExpired, bouncer, answerable', Bool.false_eq_true, or_false, somebody, ite_false] at told
  rw [(lapsed_expireRcpt r).kept.addr, ← (Envelope.same_mail alike.mail).2.1]
  apply NamedIn.of_subset _ sub
  apply bounce_names usable told (fun event early => obliging event (sub early)) answerable' _ rfl
  · rw [List.map_map]
    exact List.mem_map_of_mem (f := Recipient.addr) listed
  · intro full event early
    exact legible (quotesFullMessage_mail alike.mail _ ▸ full) event (sub early)

/-- If somebody expires who is to be told, a bouncer is on and knows who it is, the sender can be
    reached, and the spool takes the report. -/
def Reports (cfg : RunnerConfig) (env : Envelope) (events : List Happening) : Prop :=
  (∃ event ∈ events, Happening.Buries event) → (∃ r ∈ settledBy env.rcpts events, expiredUnreported r = true) →
    ∃ b, cfg.bouncer = some b ∧ b.Usable ∧ suppress env = false ∧ (∀ event ∈ events, Obliging b event) ∧
      (b.quotesFullMessage env .failed = true → ∀ event ∈ events, Legible event)

/-- Nothing is marked as reported in the queue, and in dead/ only who is named in a notification that was
    queued before the envelope was buried, as long as every report of an expiry can be made. -/
theorem marks_faithful (cfg : RunnerConfig) (first : Envelope) (unreported : ∀ r ∈ first.rcpts, r.Unreported)
    (past : List Happening) (env : Envelope) (history : History cfg first past env) :
    (∀ r ∈ env.rcpts, r.dsnSent = false) ∧
    ∀ inflight events, Trace (attempt cfg inflight env) events () → Reports cfg env events →
      (∀ e due answer, ⟨.reschedule inflight e due, answer⟩ ∈ events → ∀ r ∈ e.rcpts, r.dsnSent = false) ∧
      ∀ before rest e answer, events = before ++ ⟨.bury inflight e, answer⟩ :: rest → ∀ r ∈ e.rcpts, r.dsnSent = true →
        NamedIn .failed first.mailFrom r.addr (past ++ before) := by
  obtain ⟨mail, clean⟩ := history.steady unreported
  refine ⟨fun r member => (clean r member).1, ?_⟩
  intro inflight events run reports
  obtain ⟨offering, closing, settled, exit, rfl, offers, closed, made⟩ := attempt_parts run
  have settled_clean : ∀ r ∈ settled.rcpts, r.Unreported := by
    rw [made.settledBy, Queue.settledBy]
    split
    · exact foldl_recordIn_unreported _ clean
    · exact clean
  constructor
  · intro e due answer kept r member
    have left := made.left
    rw [← made.last _ kept (by simp [Happening.written])] at left
    cases left with
    | reschedule alike =>
      rw [alike.rcpts] at member
      exact (settled_clean r member).1
  · intro before rest e answer split r member marked
    rcases cut_append split with ⟨more, early⟩ | ⟨middle, rfl, late⟩
    · have within : (⟨.bury inflight e, answer⟩ : Happening) ∈ offering := by simp [early]
      rcases offers.writes _ within with calm | ⟨relay, msg, offer⟩
      · exact calm.elim
      · cases offer
    · have sender : settled.mailFrom = first.mailFrom :=
        (Envelope.same_mail made.mail).2.1.trans (Envelope.same_mail mail).2.1
      rw [← sender]
      have sub : middle ⊆ past ++ (offering ++ middle) := fun event member => by simp [member]
      apply NamedIn.of_subset _ sub
      apply (closed.burial late).marks settled_clean _ r member marked
      intro about
      rw [made.settledBy] at about
      have buries : (⟨.bury inflight e, answer⟩ : Happening) ∈ offering ++ closing := by simp [late]
      have inside : ∀ event ∈ middle, event ∈ offering ++ closing := fun event member => by simp [late, member]
      obtain ⟨b, bouncer, usable, answerable, obliging, legible⟩ := reports ⟨_, buries, trivial⟩ about
      refine ⟨b, bouncer, usable, (suppress_mail made.mail).trans answerable, ?_, ?_⟩
      · exact fun event member => obliging event (inside event member)
      · intro full event member
        exact legible (quotesFullMessage_mail made.mail _ ▸ full) event (inside event member)

end Burials

section Sample

local instance asciiFolding : CaseFolding := ⟨Char.toLower⟩

def expiredUntried : Envelope :=
  { plainEnvelope ["e@f"] with
    attempts := 1
    lastErr := "unknown relay group".toList
    rcpts := [{ addr := "e@f".toList, status := .expired, dsnSent := true }] }

def expiringEvents (telling : List Happening) (gone : Envelope) : List Happening :=
  [⟨.lookup "g".toList, false⟩, ⟨.now, (2000000000 : Int)⟩] ++ telling ++ [⟨.bury "1.x".toList gone, none⟩]

def mutedConfig : RunnerConfig := { bouncingConfig with bouncer := some { plainBouncer with enabled := false } }

/-- With notifications off, a recipient that expires is marked as told all the same. -/
theorem untold_marked : ∃ events r,
    History mutedConfig (plainEnvelope ["e@f"]) [] (plainEnvelope ["e@f"]) ∧
    Trace (attempt mutedConfig "1.x".toList (plainEnvelope ["e@f"])) events () ∧
    ⟨.bury "1.x".toList expiredUntried, none⟩ ∈ events ∧ r ∈ expiredUntried.rcpts ∧ r.dsnSent = true ∧
    ¬ NamedIn .failed "a@b".toList r.addr events := by
  refine ⟨expiringEvents [⟨.openBody "a.1.eml".toList, .ok wholeFile⟩] expiredUntried,
    { addr := "e@f".toList, status := .expired, dsnSent := true }, .fresh, Trace.of_replay (by decide),
    by simp [expiringEvents], by simp [expiredUntried], rfl, ?_⟩
  intro named
  obtain ⟨name, report, ⟨event, member, written⟩, -⟩ := named
  simp only [expiringEvents, List.cons_append, List.nil_append, List.mem_cons, List.not_mem_nil, or_false] at member
  rcases member with same | same | same | same <;> rw [same] at written <;> cases written

theorem marks_faithful_sample : ∃ before gone,
    Trace (attempt bouncingConfig "1.x".toList (plainEnvelope ["e@f"])) (before ++ [⟨.bury "1.x".toList gone, none⟩]) () ∧
      (∃ r ∈ gone.rcpts, r.dsnSent = true) ∧
      ∀ r ∈ gone.rcpts, r.dsnSent = true → NamedIn .failed "a@b".toList r.addr before := by
  let telling := tellingEvents .failed expiredUntried 2000000000
    [describeExpired "unknown relay group".toList { addr := "e@f".toList }] none
  let gone : Envelope := { expiredUntried with dsnSeq := 1 }
  let before : List Happening := [⟨.lookup "g".toList, false⟩, ⟨.now, (2000000000 : Int)⟩] ++ telling
  let burial : Happening := ⟨.bury "1.x".toList gone, none⟩
  have run : Trace (attempt bouncingConfig "1.x".toList (plainEnvelope ["e@f"])) (before ++ [burial]) () :=
    Trace.of_replay (by decide)
  have obliging : ∀ event ∈ before ++ [burial], Obliging plainBouncer event := by
    have first : ∀ event ∈ ([⟨.lookup "g".toList, false⟩, ⟨.now, (2000000000 : Int)⟩] : List Happening),
        Obliging plainBouncer event := by simp [Obliging]
    exact List.forall_mem_append.mpr
      ⟨List.forall_mem_append.mpr ⟨first, telling_obliging _ _ _ _ _⟩, List.forall_mem_singleton.mpr trivial⟩
  have reports : Reports bouncingConfig (plainEnvelope ["e@f"]) (before ++ [burial]) := by
    intro _ _
    refine ⟨plainBouncer, rfl, ⟨rfl, by decide, by decide⟩, by decide, obliging, ?_⟩
    intro full
    exact absurd full (by decide)
  have faithful := marks_faithful bouncingConfig (plainEnvelope ["e@f"])
    (by simp [plainEnvelope, Recipient.Unreported]) [] (plainEnvelope ["e@f"]) .fresh
  exact ⟨before, gone, run, ⟨_, List.mem_singleton_self _, rfl⟩, (faithful.2 _ _ run reports).2 before [] gone none rfl⟩

end Sample

end Mailgw.Queue
