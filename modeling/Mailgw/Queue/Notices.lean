import Mailgw.Queue.Reports

namespace Mailgw.Queue

open Calls Deliver

def Happening.names (kind : Dsn.Kind) (event : Happening) : List Name :=
  match event with
  | ⟨.writeBody _ (.report report), _⟩ => if report.kind = kind then report.rcpts.map Dsn.Rcpt.addr else []
  | _ => []

def namedBy (kind : Dsn.Kind) (events : List Happening) : List Name := events.flatMap (Happening.names kind)

@[simp] theorem namedBy_append (kind : Dsn.Kind) (first second : List Happening) :
    namedBy kind (first ++ second) = namedBy kind first ++ namedBy kind second := List.flatMap_append

def Effect.Calm : Effect → Prop
  | .writeBody _ _ | .enqueue _ | .reschedule _ _ _ | .complete _ _ | .bury _ _ => False
  | _ => True

def Effect.Tells : Effect → Prop
  | .writeBody _ _ | .enqueue _ => True
  | _ => False

theorem Effect.Calm.untold {request : Effect} (calm : request.Calm) : ¬ request.Tells := by
  cases request <;> first | exact calm.elim | exact id

theorem namedBy_calm {kind : Dsn.Kind} {events : List Happening} (calm : ∀ event ∈ events, event.1.Calm) :
    namedBy kind events = [] := by
  apply List.flatMap_eq_nil_iff.mpr
  intro event member
  have quiet := calm event member
  obtain ⟨request, answer⟩ := event
  cases request <;> first | rfl | exact quiet.elim

abbrev Drafts := Name → Option Dsn.Report

def Happening.filed (event : Happening) (files : Drafts) : Drafts :=
  match event.reported with
  | some (name, report) => Function.update files name (some report)
  | none => files

def reportNames (kind : Dsn.Kind) : Option Dsn.Report → List Name
  | some report => if report.kind = kind then report.rcpts.map Dsn.Rcpt.addr else []
  | none => []

/-- Whom the message that a call queues names, if a report of the kind is its body. -/
def Happening.posts (kind : Dsn.Kind) (event : Happening) (files : Drafts) : List Name :=
  match event with
  | ⟨.enqueue env, _⟩ => reportNames kind (files env.body)
  | _ => []

/-- Whom the queued notifications of the kind name, each as often as it is queued. -/
def queuedBy (kind : Dsn.Kind) (files : Drafts) : List Happening → List Name
  | [] => []
  | event :: rest => event.posts kind files ++ queuedBy kind (event.filed files) rest

/-- No report is queued twice, and none that is not written. -/
def Paired (events : List Happening) : Prop := ∀ kind files, (queuedBy kind files events).Sublist (namedBy kind events)

theorem queuedBy_append (kind : Dsn.Kind) (files : Drafts) (first second : List Happening) :
    queuedBy kind files (first ++ second) = queuedBy kind files first ++
      queuedBy kind (first.foldl (fun files event => event.filed files) files) second := by
  induction first generalizing files with
  | nil => rfl
  | cons event rest ih => simp [queuedBy, ih]

theorem Paired.append {first second : List Happening} (early : Paired first) (late : Paired second) :
    Paired (first ++ second) := by
  intro kind files
  rw [queuedBy_append, namedBy_append]
  exact (early kind files).append (late kind _)

theorem queuedBy_unqueued {kind : Dsn.Kind} {files : Drafts} {events : List Happening}
    (unqueued : ∀ event ∈ events, ∀ e, event.1 ≠ .enqueue e) : queuedBy kind files events = [] := by
  induction events generalizing files with
  | nil => rfl
  | cons event rest ih =>
    have alone : event.posts kind files = [] := by
      have other := unqueued event (by simp)
      obtain ⟨request, answer⟩ := event
      cases request <;> first | rfl | exact (other _ rfl).elim
    rw [queuedBy, alone, ih fun event member => unqueued event (by simp [member]), List.nil_append]

theorem Paired.unqueued {events : List Happening} (unqueued : ∀ event ∈ events, ∀ e, event.1 ≠ .enqueue e) :
    Paired events := by
  intro kind files
  rw [queuedBy_unqueued unqueued]
  exact List.nil_sublist _

theorem Paired.untold {events : List Happening} (untold : ∀ event ∈ events, ¬ event.1.Tells) : Paired events := by
  apply Paired.unqueued
  intro event member e same
  have quiet := untold event member
  rw [same] at quiet
  exact quiet trivial

theorem Paired.calm {events : List Happening} (calm : ∀ event ∈ events, event.1.Calm) : Paired events :=
  .untold fun event member => (calm event member).untold

theorem Paired.queueing {id name : Name} {size : Nat} {report : Dsn.Report} {env : Envelope} {answer : Option Chars}
    {later : List Happening} (body : env.body = name) (calm : ∀ event ∈ later, event.1.Calm) :
    Paired (⟨.writeBody id (.report report), .ok (name, size)⟩ :: ⟨.enqueue env, answer⟩ :: later) := by
  intro kind files
  have named : namedBy kind (⟨.writeBody id (.report report), .ok (name, size)⟩ :: ⟨.enqueue env, answer⟩ :: later) =
      reportNames kind (some report) ++ namedBy kind later := rfl
  have found : Function.update files name (some report) env.body = some report := by
    rw [body, Function.update_self]
  have queued : queuedBy kind files
      (⟨.writeBody id (.report report), .ok (name, size)⟩ :: ⟨.enqueue env, answer⟩ :: later) =
      reportNames kind (Function.update files name (some report) env.body) ++
        queuedBy kind (Function.update files name (some report)) later := rfl
  rw [named, queued, found, namedBy_calm calm, queuedBy_unqueued fun event member e same => ?_]
  have quiet := calm event member
  rw [same] at quiet
  exact quiet

structure Envelope.Akin (e e' : Envelope) : Prop where
  mail : e'.mail = e.mail
  warned : e'.delayWarned = e.delayWarned
  seq : e'.dsnSeq = e.dsnSeq
  addrs : e'.rcpts.map Recipient.addr = e.rcpts.map Recipient.addr

namespace Envelope.Akin

variable {e e' e'' : Envelope}

theorem refl (e : Envelope) : Akin e e := ⟨rfl, rfl, rfl, rfl⟩

theorem trans (first : Akin e e') (second : Akin e' e'') : Akin e e'' where
  mail := second.mail.trans first.mail
  warned := second.warned.trans first.warned
  seq := second.seq.trans first.seq
  addrs := second.addrs.trans first.addrs

end Envelope.Akin

/-- What is written to tell the sender of an envelope: one report, of one kind, that names at most
    these recipients, queued once in an envelope that is not to be answered. -/
structure Notice (kind : Dsn.Kind) (env : Envelope) (addrs : List Name) (events : List Happening) : Prop where
  quiet : suppress env = true → ∀ event ∈ events, event.1.Calm
  back : ∀ e answer, ⟨.enqueue e, answer⟩ ∈ events → suppress e = true
  names : ∀ k, namedBy k events = [] ∨ k = kind ∧ namedBy k events = addrs
  paired : Paired events

theorem Marked.addrs {rs rs' : List Recipient} (marked : Marked rs rs') :
    rs'.map Recipient.addr = rs.map Recipient.addr := by
  induction marked with
  | nil => rfl
  | cons head _ ih => rcases head with rfl | rfl <;> simp [ih, markSent]

section Notifying
variable {b : Bouncer} {env env' : Envelope} {req : Request} {events : List Happening} {kind : Dsn.Kind} {addrs : List Name}

theorem Notice.of_calm (calm : ∀ event ∈ events, event.1.Calm) : Notice kind env addrs events where
  quiet _ := calm
  back _ _ member := (calm _ member).elim
  names _ := .inl (namedBy_calm calm)
  paired := .calm calm

theorem Notice.after {before : List Happening} (calm : ∀ event ∈ before, event.1.Calm)
    (notice : Notice kind env addrs events) : Notice kind env addrs (before ++ events) where
  quiet suppressed := List.forall_mem_append.mpr ⟨calm, notice.quiet suppressed⟩
  back e answer member := by
    rcases List.mem_append.mp member with early | late
    · exact (calm _ early).elim
    · exact notice.back e answer late
  names k := by
    rw [namedBy_append, namedBy_calm calm]
    exact notice.names k
  paired := (Paired.calm calm).append notice.paired

theorem Notice.of_mail (same : env'.mail = env.mail) (notice : Notice kind env' addrs events) :
    Notice kind env addrs events where
  quiet suppressed := notice.quiet ((suppress_mail same).trans suppressed)
  back := notice.back
  names := notice.names
  paired := notice.paired

theorem Bouncer.route_calm (sender : Name) : (b.route sender).All Effect.Calm := by
  unfold Bouncer.route
  refine .ask trivial fun answer => ?_
  repeat' split
  all_goals exact trivial

theorem Notice.written (answerable : suppress env = false) {id : Name} {report : Dsn.Report}
    {answer : Except Chars (Name × Nat)} {later : List Happening}
    (back : ∀ event ∈ later, event.1.Calm ∨ ∃ e, event.1 = .enqueue e ∧ suppress e = true)
    (paired : Paired (⟨.writeBody id (.report report), answer⟩ :: later)) :
    Notice report.kind env (report.rcpts.map Dsn.Rcpt.addr) (⟨.writeBody id (.report report), answer⟩ :: later) where
  quiet suppressed := by
    rw [answerable] at suppressed
    cases suppressed
  back e answer' member := by
    rcases List.mem_cons.mp member with same | member
    · cases same
    · rcases back _ member with calm | ⟨e', same, suppressed⟩
      · exact calm.elim
      · cases same
        exact suppressed
  names k := by
    have silent : namedBy k later = [] := by
      apply List.flatMap_eq_nil_iff.mpr
      intro event member
      rcases back event member with calm | ⟨e, same, -⟩
      · have alone : namedBy k [event] = [] := namedBy_calm (by simpa using calm)
        simpa [namedBy] using alone
      · obtain ⟨request, answer'⟩ := event
        cases same
        rfl
    by_cases same : report.kind = k
    · right
      refine ⟨same.symm, ?_⟩
      show (if report.kind = k then report.rcpts.map Dsn.Rcpt.addr else []) ++ namedBy k later = _
      rw [silent, if_pos same, List.append_nil]
    · left
      show (if report.kind = k then report.rcpts.map Dsn.Rcpt.addr else []) ++ namedBy k later = _
      rw [silent, if_neg same, List.append_nil]
  paired := paired

theorem suppress_notification (env : Envelope) (id group body : Name) (size : Nat) (now : Int) :
    suppress (Bouncer.notification env id group body size now) = true := rfl

theorem Bouncer.bounce_notice {outcome : Except Chars Bool} (run : Trace (b.bounce env req) events (env', outcome)) :
    env'.delayWarned = env.delayWarned ∧ Notice req.kind env (req.rcpts.map Dsn.Rcpt.addr) events := by
  unfold Bouncer.bounce at run
  split at run
  · obtain ⟨rfl, done⟩ := Trace.done_inv run
    cases done
    exact ⟨rfl, .of_calm (by simp)⟩
  split at run
  · obtain ⟨rfl, done⟩ := Trace.done_inv run
    cases done
    exact ⟨rfl, .of_calm (by simp)⟩
  split at run
  · obtain ⟨rfl, done⟩ := Trace.done_inv run
    cases done
    exact ⟨rfl, .of_calm (by simp)⟩
  rename_i answerable
  have answerable : suppress env = false := by simpa using answerable
  obtain ⟨routing, rest, routed, rfl, asked, telling⟩ := Trace.bind_inv run
  have calm := asked.all (Bouncer.route_calm _)
  cases routed with
  | none =>
    obtain ⟨rfl, done⟩ := Trace.done_inv telling
    cases done
    exact ⟨rfl, .after calm (.of_calm (by simp))⟩
  | some found =>
    obtain ⟨group, rule⟩ := found
    obtain ⟨now, _, rfl, building⟩ := Trace.ask_inv telling
    have clock : ∀ event ∈ [(⟨.now, now⟩ : Happening)], event.1.Calm := by simp [Effect.Calm]
    dsimp only at building
    split at building
    · obtain ⟨rfl, done⟩ := Trace.done_inv building
      cases done
      exact ⟨rfl, .after calm (.of_calm clock)⟩
    · rename_i report built
      have same := Dsn.build_ok built
      obtain ⟨written, _, rfl, queueing⟩ := Trace.ask_inv building
      have notice {later : List Happening}
          (back : ∀ event ∈ later, event.1.Calm ∨ ∃ e, event.1 = .enqueue e ∧ suppress e = true)
          (paired : Paired (⟨.writeBody (childID env.uuid (env.dsnSeq + 1)) (.report report), written⟩ :: later)) :
          Notice req.kind env (req.rcpts.map Dsn.Rcpt.addr) (routing ++ ⟨.now, now⟩ ::
            ⟨.writeBody (childID env.uuid (env.dsnSeq + 1)) (.report report), written⟩ :: later) := by
        have noticed : Notice report.kind env (report.rcpts.map Dsn.Rcpt.addr)
            (⟨.writeBody (childID env.uuid (env.dsnSeq + 1)) (.report report), written⟩ :: later) :=
          .written answerable back paired
        have kind : report.kind = req.kind := by rw [same]; rfl
        have rcpts : report.rcpts = req.rcpts := by rw [same]; rfl
        rw [kind, rcpts] at noticed
        exact .after calm (.after clock noticed)
      cases written with
      | error err =>
        obtain ⟨rfl, done⟩ := Trace.done_inv queueing
        cases done
        exact ⟨rfl, notice (by simp) (.unqueued (by simp))⟩
      | ok file =>
        obtain ⟨name, size⟩ := file
        obtain ⟨queued, _, rfl, finishing⟩ := Trace.ask_inv queueing
        cases queued with
        | none =>
          obtain ⟨rfl, done⟩ := Trace.done_inv finishing
          cases done
          refine ⟨rfl, notice ?_ (.queueing rfl (by simp))⟩
          simp [suppress_notification]
        | some err =>
          obtain ⟨removed, _, rfl, done⟩ := Trace.ask_inv finishing
          obtain ⟨rfl, done⟩ := Trace.done_inv done
          cases done
          refine ⟨rfl, notice ?_ (.queueing rfl (by simp [Effect.Calm]))⟩
          simp [suppress_notification, Effect.Calm]

theorem bounce_notice (run : Trace (bounce b env req) events env') :
    env'.delayWarned = env.delayWarned ∧ Notice req.kind env (req.rcpts.map Dsn.Rcpt.addr) events := by
  unfold bounce at run
  obtain ⟨opened, _, rfl, telling⟩ := Trace.ask_inv run
  have opening : ∀ event ∈ [(⟨.openBody env.body, opened⟩ : Happening)], event.1.Calm := by simp [Effect.Calm]
  cases opened
  all_goals
    obtain ⟨sending, _, ⟨sent, outcome⟩, rfl, bounced, finished⟩ := Trace.bind_inv telling
    obtain ⟨rfl, same⟩ := Trace.done_inv finished
    cases same
    have noticed := Bouncer.bounce_notice bounced
    rw [List.append_nil]
    exact ⟨noticed.1, .after opening noticed.2⟩

theorem map_describe {describe : Recipient → Dsn.Rcpt} (addr : ∀ r, (describe r).addr = r.addr) (rs : List Recipient) :
    (rs.map describe).map Dsn.Rcpt.addr = rs.map Recipient.addr := by
  rw [List.map_map]
  exact List.map_congr_left fun r _ => addr r

theorem reportGroup_notice {concerns : Recipient → Bool} {describe : Recipient → Dsn.Rcpt}
    (addr : ∀ r, (describe r).addr = r.addr) (run : Trace (reportGroup b kind concerns describe env) events env') :
    Notice kind env ((env.rcpts.filter concerns).map Recipient.addr) events := by
  unfold reportGroup at run
  dsimp only at run
  split at run
  · obtain ⟨rfl, -⟩ := Trace.done_inv run
    exact .of_calm (by simp)
  · obtain ⟨telling, _, sent, rfl, told, finished⟩ := Trace.bind_inv run
    obtain ⟨rfl, -⟩ := Trace.done_inv finished
    rw [List.append_nil, ← map_describe addr]
    exact (bounce_notice told).2

def NamesOf (env : Envelope) (addrs : List Name) : Prop := addrs.Sublist (env.rcpts.map Recipient.addr)

theorem namesOf_filter (env : Envelope) (concerns : Recipient → Bool) :
    NamesOf env ((env.rcpts.filter concerns).map Recipient.addr) := List.filter_sublist.map _

structure Retained (env e : Envelope) (events : List Happening) : Prop where
  mail : e.mail = env.mail
  addrs : e.rcpts.map Recipient.addr = env.rcpts.map Recipient.addr
  failed : namedBy .failed events = []
  relayed : namedBy .relayed events = []
  unwarned : e.delayWarned = false → env.delayWarned = false ∧ namedBy .delayed events = []

structure Discreet (env : Envelope) (events : List Happening) : Prop where
  once : ∀ kind, NamesOf env (namedBy kind events)
  spared : env.delayWarned = true → namedBy .delayed events = []
  quiet : suppress env = true → ∀ event ∈ events, ¬ event.1.Tells
  back : ∀ e answer, ⟨.enqueue e, answer⟩ ∈ events → suppress e = true
  paired : Paired events
  kept : ∀ inflight e due answer, ⟨.reschedule inflight e due, answer⟩ ∈ events → Retained env e events

theorem Discreet.after {before : List Happening} (calm : ∀ event ∈ before, event.1.Calm) (discreet : Discreet env events) :
    Discreet env (before ++ events) where
  once k := by
    rw [namedBy_append, namedBy_calm calm]
    exact discreet.once k
  spared warned := by
    rw [namedBy_append, namedBy_calm calm]
    exact discreet.spared warned
  quiet suppressed event member := by
    rcases List.mem_append.mp member with early | late
    · exact (calm event early).untold
    · exact discreet.quiet suppressed event late
  back e answer member := by
    rcases List.mem_append.mp member with early | late
    · exact (calm _ early).elim
    · exact discreet.back e answer late
  paired := (Paired.calm calm).append discreet.paired
  kept inflight e due answer member := by
    rcases List.mem_append.mp member with early | late
    · exact (calm _ early).elim
    · have same : ∀ k, namedBy k (before ++ events) = namedBy k events := by
        intro k
        rw [namedBy_append, namedBy_calm calm, List.nil_append]
      have retained := discreet.kept inflight e due answer late
      exact ⟨retained.mail, retained.addrs, (same _).trans retained.failed, (same _).trans retained.relayed,
        fun unwarned => ⟨(retained.unwarned unwarned).1, (same _).trans (retained.unwarned unwarned).2⟩⟩

theorem Discreet.of_akin (akin : env.Akin env') (discreet : Discreet env' events) : Discreet env events where
  once k := by
    have named := discreet.once k
    rwa [NamesOf, akin.addrs] at named
  spared warned := discreet.spared (akin.warned.trans warned)
  quiet suppressed := discreet.quiet ((suppress_mail akin.mail).trans suppressed)
  back := discreet.back
  paired := discreet.paired
  kept inflight e due answer member := by
    have retained := discreet.kept inflight e due answer member
    exact ⟨retained.mail.trans akin.mail, retained.addrs.trans akin.addrs, retained.failed, retained.relayed,
      fun unwarned => ⟨akin.warned.symm.trans (retained.unwarned unwarned).1, (retained.unwarned unwarned).2⟩⟩

/-- An envelope that leaves the queue may be reported on in two ways, neither of them a warning. -/
theorem Discreet.leaving {failing relaying : List Happening} {failed relayed : List Name} {exit : Happening}
    (first : Notice .failed env failed failing) (second : Notice .relayed env relayed relaying)
    (someFailed : NamesOf env failed) (someRelayed : NamesOf env relayed)
    (aside : ∀ event ∈ failing ++ relaying, event.1.Aside) (leaves : (Happening.removed exit).isSome = true) :
    Discreet env (failing ++ relaying ++ [exit]) := by
  have last : ∀ k, namedBy k [exit] = [] := by
    intro k
    obtain ⟨request, answer⟩ := exit
    cases request <;> first | rfl | cases leaves
  have named : ∀ k, namedBy k (failing ++ relaying ++ [exit]) = namedBy k failing ++ namedBy k relaying := by
    intro k
    rw [namedBy_append, namedBy_append, last, List.append_nil]
  have silent : ¬ exit.1.Tells := by
    obtain ⟨request, answer⟩ := exit
    cases request <;> first | exact id | cases leaves
  constructor
  · intro k
    rw [named]
    rcases first.names k with none₁ | ⟨rfl, all₁⟩
    · rw [none₁, List.nil_append]
      rcases second.names k with none₂ | ⟨-, all₂⟩
      · rw [none₂]
        exact List.nil_sublist _
      · rw [all₂]
        exact someRelayed
    · rcases second.names .failed with none₂ | ⟨clash, -⟩
      · rw [all₁, none₂, List.append_nil]
        exact someFailed
      · cases clash
  · intro _
    rw [named]
    rcases first.names .delayed with none₁ | ⟨clash, -⟩
    · rcases second.names .delayed with none₂ | ⟨clash, -⟩
      · rw [none₁, none₂, List.nil_append]
      · cases clash
    · cases clash
  · intro suppressed event member
    rcases List.mem_append.mp member with telling | only
    · rcases List.mem_append.mp telling with early | late
      · exact (first.quiet suppressed event early).untold
      · exact (second.quiet suppressed event late).untold
    · rw [List.mem_singleton.mp only]
      exact silent
  · intro e answer member
    rcases List.mem_append.mp member with telling | only
    · rcases List.mem_append.mp telling with early | late
      · exact first.back e answer early
      · exact second.back e answer late
    · rw [← List.mem_singleton.mp only] at silent
      exact (silent trivial).elim
  · exact (first.paired.append second.paired).append (.untold (by simpa using silent))
  · intro inflight e due answer member
    rcases List.mem_append.mp member with telling | only
    · exact (aside _ telling).elim
    · rw [← List.mem_singleton.mp only] at leaves
      cases leaves

theorem Discreet.waiting {e : Envelope} {warning clocks : List Happening} {inflight : Name} {due : Int}
    {answer : Option Chars} (alike : env.Alike e)
    (warned : (∀ event ∈ warning, event.1.Calm) ∧ e.delayWarned = env.delayWarned ∨
      env.delayWarned = false ∧ e.delayWarned = true ∧ ∃ addrs, NamesOf env addrs ∧ Notice .delayed env addrs warning)
    (aside : ∀ event ∈ warning, event.1.Aside) (clock : ∀ event ∈ clocks, event.1.Calm) :
    Discreet env (warning ++ (clocks ++ [⟨.reschedule inflight e due, answer⟩])) := by
  generalize last : (⟨.reschedule inflight e due, answer⟩ : Happening) = exit
  have kind : exit.1.Tells → False := by
    rw [← last]
    exact id
  have silent : ∀ event ∈ clocks ++ [exit], ¬ event.1.Tells := by
    intro event member
    rcases List.mem_append.mp member with middle | final
    · exact (clock event middle).untold
    · rw [List.mem_singleton.mp final]
      exact kind
  have named : ∀ k, namedBy k (warning ++ (clocks ++ [exit])) = namedBy k warning := by
    intro k
    rw [namedBy_append, namedBy_append, namedBy_calm clock, ← last]
    exact List.append_nil _
  have only : ∀ inflight' e' due' answer', (⟨.reschedule inflight' e' due', answer'⟩ : Happening) ∈
      warning ++ (clocks ++ [exit]) → e' = e := by
    intro inflight' e' due' answer' member
    rcases List.mem_append.mp member with early | late
    · exact (aside _ early).elim
    · rcases List.mem_append.mp late with middle | final
      · exact (clock _ middle).elim
      · rw [← last] at final
        cases List.mem_singleton.mp final
        rfl
  have back : ∀ {addrs}, Notice .delayed env addrs warning → ∀ e' answer',
      ⟨.enqueue e', answer'⟩ ∈ warning ++ (clocks ++ [exit]) → suppress e' = true := by
    intro addrs notice e' answer' member
    rcases List.mem_append.mp member with early | late
    · exact notice.back e' answer' early
    · exact (silent _ late trivial).elim
  have quiet : ∀ {addrs}, Notice .delayed env addrs warning → suppress env = true →
      ∀ event ∈ warning ++ (clocks ++ [exit]), ¬ event.1.Tells := by
    intro addrs notice suppressed event member
    rcases List.mem_append.mp member with early | late
    · exact (notice.quiet suppressed event early).untold
    · exact silent event late
  have addrs : e.rcpts.map Recipient.addr = env.rcpts.map Recipient.addr := by rw [alike.rcpts]
  rcases warned with ⟨calm, same⟩ | ⟨fresh, marked, listed, some, notice⟩
  · have notice : Notice .delayed env [] warning := .of_calm calm
    have nobody : ∀ k, namedBy k (warning ++ (clocks ++ [exit])) = [] := by
      intro k
      rw [named, namedBy_calm calm]
    refine ⟨?_, fun _ => nobody _, quiet notice, back notice, notice.paired.append (.untold silent), ?_⟩
    · intro k
      rw [nobody]
      exact List.nil_sublist _
    · intro inflight' e' due' answer' member
      rw [only _ _ _ _ member]
      exact ⟨alike.mail, addrs, nobody _, nobody _, fun unwarned => ⟨same.symm.trans unwarned, nobody _⟩⟩
  · refine ⟨?_, ?_, quiet notice, back notice, notice.paired.append (.untold silent), ?_⟩
    · intro k
      rw [named]
      rcases notice.names k with none | ⟨-, all⟩
      · rw [none]
        exact List.nil_sublist _
      · rw [all]
        exact some
    · intro warned
      rw [fresh] at warned
      cases warned
    · intro inflight' e' due' answer' member
      rw [only _ _ _ _ member]
      have others : ∀ k ≠ .delayed, namedBy k (warning ++ (clocks ++ [exit])) = [] := by
        intro k other
        rw [named]
        exact (notice.names k).resolve_right fun same => other same.1
      refine ⟨alike.mail, addrs, others _ (by simp), others _ (by simp), fun unwarned => ?_⟩
      rw [marked] at unwarned
      cases unwarned

theorem stampReason_akin (env : Envelope) (last : Option Result) (resolveErr : Option Chars) :
    env.Akin (stampReason env last resolveErr) := by
  unfold stampReason
  repeat' split
  all_goals exact ⟨rfl, rfl, rfl, rfl⟩

theorem postDelivery_calm {cfg : RunnerConfig} {res : Result} {rr : RcptResult} : (postDelivery cfg env res rr).All Effect.Calm := by
  unfold postDelivery
  split
  · exact trivial
  · exact .ask trivial fun _ => ⟨trivial, fun _ => trivial⟩

theorem stopped_discreet {inflight : Name} (now : Int) (answer : Option Chars) :
    Discreet env [⟨.now, now⟩, ⟨.reschedule inflight env now, answer⟩] := by
  show Discreet env ([] ++ ([⟨.now, now⟩] ++ [⟨.reschedule inflight env now, answer⟩]))
  exact .waiting (.refl _) (.inl ⟨by simp, rfl⟩) (by simp) (by simp [Effect.Calm])

structure Awaiting (first : Envelope) (past : List Happening) (env : Envelope) : Prop where
  mail : env.mail = first.mail
  addrs : env.rcpts.map Recipient.addr = first.rcpts.map Recipient.addr
  failed : namedBy .failed past = []
  relayed : namedBy .relayed past = []
  unwarned : env.delayWarned = false → namedBy .delayed past = []

structure ToldOnce (first : Envelope) (past : List Happening) : Prop where
  once : ∀ kind, NamesOf first (namedBy kind past)
  quiet : suppress first = true → ∀ event ∈ past, ¬ event.1.Tells
  back : ∀ e answer, ⟨.enqueue e, answer⟩ ∈ past → suppress e = true
  paired : Paired past

theorem Awaiting.attempted {first : Envelope} {past : List Happening} (awaiting : Awaiting first past env)
    (told : ToldOnce first past) (discreet : Discreet env events) : ToldOnce first (past ++ events) where
  once kind := by
    have now := discreet.once kind
    rw [NamesOf, awaiting.addrs] at now
    rw [namedBy_append]
    cases kind with
    | failed => rwa [awaiting.failed]
    | relayed => rwa [awaiting.relayed]
    | delayed =>
      cases warned : env.delayWarned with
      | false => rwa [awaiting.unwarned warned]
      | true =>
        rw [discreet.spared warned, List.append_nil]
        exact told.once .delayed
  quiet suppressed event member := by
    rcases List.mem_append.mp member with early | late
    · exact told.quiet suppressed event early
    · exact discreet.quiet ((suppress_mail awaiting.mail).trans suppressed) event late
  back e answer member := by
    rcases List.mem_append.mp member with early | late
    · exact told.back e answer early
    · exact discreet.back e answer late
  paired := told.paired.append discreet.paired

theorem Awaiting.retained {first e : Envelope} {past : List Happening} (awaiting : Awaiting first past env)
    (retained : Retained env e events) (due : Instant) : Awaiting first (past ++ events) (e.dueAt due) where
  mail := Eq.trans (show (e.dueAt due).mail = e.mail from rfl) (retained.mail.trans awaiting.mail)
  addrs := retained.addrs.trans awaiting.addrs
  failed := by rw [namedBy_append, awaiting.failed, retained.failed, List.append_nil]
  relayed := by rw [namedBy_append, awaiting.relayed, retained.relayed, List.append_nil]
  unwarned unwarned := by
    obtain ⟨before, silent⟩ := retained.unwarned unwarned
    rw [namedBy_append, awaiting.unwarned before, silent, List.append_nil]

section Exits
variable [CaseFolding] {cfg : RunnerConfig} {inflight : Name}

theorem bounceFailed_notice (run : Trace (bounceFailed cfg env) events env') :
    ∃ addrs, NamesOf env addrs ∧ Notice .failed env addrs events := by
  unfold bounceFailed at run
  split at run
  · obtain ⟨rfl, -⟩ := Trace.done_inv run
    exact ⟨[], List.nil_sublist _, .of_calm (by simp)⟩
  split at run
  · obtain ⟨rfl, -⟩ := Trace.done_inv run
    exact ⟨[], List.nil_sublist _, .of_calm (by simp)⟩
  · exact ⟨_, namesOf_filter env _, reportGroup_notice (fun _ => rfl) run⟩

theorem notifyRelayed_notice (run : Trace (notifyRelayed cfg env) events env') :
    ∃ addrs, NamesOf env addrs ∧ Notice .relayed env addrs events := by
  unfold notifyRelayed at run
  split at run
  · obtain ⟨rfl, -⟩ := Trace.done_inv run
    exact ⟨[], List.nil_sublist _, .of_calm (by simp)⟩
  split at run
  · obtain ⟨rfl, -⟩ := Trace.done_inv run
    exact ⟨[], List.nil_sublist _, .of_calm (by simp)⟩
  · exact ⟨_, namesOf_filter env _, reportGroup_notice (fun _ => rfl) run⟩

theorem bounceExpired_notice {gone : Envelope} (mail : gone.mail = env.mail)
    (run : Trace (bounceExpired cfg env gone) events env') : ∃ addrs, NamesOf env addrs ∧ Notice .failed env addrs events := by
  unfold bounceExpired at run
  split at run
  · obtain ⟨rfl, -⟩ := Trace.done_inv run
    exact ⟨[], List.nil_sublist _, .of_calm (by simp)⟩
  dsimp only at run
  split at run
  · obtain ⟨rfl, -⟩ := Trace.done_inv run
    exact ⟨[], List.nil_sublist _, .of_calm (by simp)⟩
  · have noticed := (bounce_notice run).2
    rw [map_describe (fun _ => rfl)] at noticed
    exact ⟨_, namesOf_filter env _, noticed.of_mail mail⟩

theorem warnDelayed_notice (run : Trace (warnDelayed cfg env) events env') :
    (∀ event ∈ events, event.1.Calm) ∧ env'.delayWarned = env.delayWarned ∨
    env.delayWarned = false ∧ env'.delayWarned = true ∧ ∃ addrs, NamesOf env addrs ∧ Notice .delayed env addrs events := by
  unfold warnDelayed at run
  split at run
  · obtain ⟨rfl, same⟩ := Trace.done_inv run
    exact .inl ⟨by simp, by rw [same]⟩
  split at run
  · obtain ⟨rfl, same⟩ := Trace.done_inv run
    exact .inl ⟨by simp, by rw [same]⟩
  rename_i open_
  have fresh : env.delayWarned = false := by
    simp only [not_or, Bool.not_eq_true] at open_
    exact open_.2.1
  obtain ⟨now, _, rfl, judging⟩ := Trace.ask_inv run
  have clock : ∀ event ∈ [(⟨.now, now⟩ : Happening)], event.1.Calm := by simp [Effect.Calm]
  split at judging
  · obtain ⟨rfl, same⟩ := Trace.done_inv judging
    exact .inl ⟨clock, by rw [same]⟩
  dsimp only at judging
  split at judging
  · obtain ⟨rfl, same⟩ := Trace.done_inv judging
    exact .inl ⟨clock, by rw [same]⟩
  · have noticed := bounce_notice judging
    rw [map_describe (fun _ => rfl)] at noticed
    have same : ({ env with delayWarned := true } : Envelope).mail = env.mail := rfl
    exact .inr ⟨fresh, noticed.1, _, namesOf_filter env _, .after clock (.of_mail same noticed.2)⟩

theorem expire_discreet {buried : Bool} (run : Trace (expire cfg inflight env) events buried) :
    if buried then Discreet env events else ∀ event ∈ events, event.1.Calm := by
  unfold expire at run
  split at run
  · obtain ⟨rfl, rfl⟩ := Trace.done_inv run
    simp
  obtain ⟨now, rest, rfl, judging⟩ := Trace.ask_inv run
  have clock : ∀ event ∈ [(⟨.now, now⟩ : Happening)], event.1.Calm := by simp [Effect.Calm]
  split at judging
  · obtain ⟨rfl, rfl⟩ := Trace.done_inv judging
    exact clock
  · obtain ⟨telling, _, gone, rfl, told, burying⟩ := Trace.bind_inv judging
    obtain ⟨answer, _, rfl, finished⟩ := Trace.ask_inv burying
    obtain ⟨rfl, rfl⟩ := Trace.done_inv finished
    have same : ({ env with rcpts := env.rcpts.map expireRcpt } : Envelope).mail = env.mail := rfl
    obtain ⟨addrs, some, noticed⟩ := bounceExpired_notice same told
    rw [← List.singleton_append, if_pos rfl]
    apply Discreet.after clock
    have aside := aside_of_clerical told bounceExpired_clerical
    have nobody : Notice .relayed env [] [] := .of_calm (by simp)
    have discreet : Discreet env (telling ++ [] ++ [⟨.bury inflight gone, answer⟩]) :=
      .leaving noticed nobody some (List.nil_sublist _) (by simpa using aside) rfl
    rwa [List.append_nil] at discreet

theorem deferEnvelope_discreet {reason : Chars} (run : Trace (deferEnvelope cfg inflight env reason) events ()) :
    Discreet env events := by
  unfold deferEnvelope at run
  dsimp only at run
  have reasoned : env.Akin (if reason ≠ [] then { env with lastErr := reason } else env) := by
    split
    · exact ⟨rfl, rfl, rfl, rfl⟩
    · exact .refl _
  generalize (if reason ≠ [] then { env with lastErr := reason } else env) = stamped at reasoned run
  apply Discreet.of_akin reasoned
  obtain ⟨ageing, rest, buried, rfl, aged, continuing⟩ := Trace.bind_inv run
  have judged := expire_discreet aged
  cases buried with
  | true =>
    obtain ⟨rfl, -⟩ := Trace.done_inv continuing
    simpa using judged
  | false =>
    obtain ⟨warning, _, warned, rfl, told, waiting⟩ := Trace.bind_inv continuing
    obtain ⟨delay, _, rfl, timing⟩ := Trace.ask_inv waiting
    obtain ⟨now, _, rfl, writing⟩ := Trace.ask_inv timing
    obtain ⟨answer, _, rfl, finished⟩ := Trace.ask_inv writing
    obtain ⟨rfl, -⟩ := Trace.done_inv finished
    apply Discreet.after judged
    have alike := warnDelayed_alike told
    have aside := aside_of_clerical told warnDelayed_clerical
    show Discreet stamped (warning ++ ([⟨.jitter _, delay⟩, ⟨.now, now⟩] ++ [⟨.reschedule inflight warned _, answer⟩]))
    exact .waiting alike (warnDelayed_notice told) aside (by simp [Effect.Calm])

theorem conclude_discreet (run : Trace (conclude cfg inflight env) events ()) : Discreet env events := by
  unfold conclude at run
  split at run
  · obtain ⟨failing, _, failed, rfl, first, remaining⟩ := Trace.bind_inv run
    obtain ⟨relaying, _, relayed, rfl, second, completing⟩ := Trace.bind_inv remaining
    obtain ⟨answer, _, rfl, finished⟩ := Trace.ask_inv completing
    obtain ⟨rfl, -⟩ := Trace.done_inv finished
    have kept := bounceFailed_keeps first
    obtain ⟨namedFailed, someFailed, noticeFailed⟩ := bounceFailed_notice first
    obtain ⟨namedRelayed, someRelayed, noticeRelayed⟩ := notifyRelayed_notice second
    rw [NamesOf, kept.2.addrs] at someRelayed
    have aside : ∀ event ∈ failing ++ relaying, event.1.Aside := List.forall_mem_append.mpr
      ⟨aside_of_clerical first bounceFailed_clerical, aside_of_clerical second notifyRelayed_clerical⟩
    rw [← List.append_assoc]
    exact .leaving noticeFailed (noticeRelayed.of_mail kept.1) someFailed someRelayed aside rfl
  · exact deferEnvelope_discreet run

theorem setStatusIn_addrs {addr : Name} {status : Status} {code : Int} {msg : Name} (rs : List Recipient) :
    (Envelope.setStatusIn addr status code msg rs).map Recipient.addr = rs.map Recipient.addr := by
  induction rs with
  | nil => rfl
  | cons r rest ih =>
    rw [Envelope.setStatusIn]
    split
    · rfl
    · rw [List.map_cons, List.map_cons, ih]

theorem recordOne_akin (env : Envelope) (rr : RcptResult) : env.Akin (recordOne env rr) := by
  unfold recordOne
  split
  · exact ⟨rfl, rfl, rfl, setStatusIn_addrs _⟩
  · exact ⟨rfl, rfl, rfl, setStatusIn_addrs _⟩
  · exact .refl env

theorem settle_akin (env : Envelope) (results : List RcptResult) : env.Akin (settle env results) := by
  induction results generalizing env with
  | nil => exact .refl env
  | cons rr rest ih => exact (recordOne_akin env rr).trans (ih _)

theorem record_calm {res : Result} {results : List RcptResult} : (record cfg res results env).All Effect.Calm := by
  induction results generalizing env with
  | nil => exact trivial
  | cons rr rest ih =>
    simp only [record]
    split
    · exact postDelivery_calm.bind fun _ => ih
    · exact ih

theorem tryRelays_opens {signature : Chars} {addrs : List Name} {last : Option Result} {relays : List Relay}
    {tried : Tried} (run : Trace (tryRelays cfg env signature addrs last relays) events tried) :
    (∀ event ∈ events, event.1.Calm) ∧ env.Akin (tried.settled env) := by
  induction relays generalizing last events with
  | nil =>
    obtain ⟨rfl, rfl⟩ := Trace.done_inv run
    exact ⟨by simp, .refl env⟩
  | cons relay rest ih =>
    simp only [tryRelays] at run
    obtain ⟨opened, _, rfl, offering⟩ := Trace.ask_inv run
    cases opened with
    | error err =>
      obtain ⟨rfl, rfl⟩ := Trace.done_inv offering
      exact ⟨by simp [Effect.Calm], .refl env⟩
    | ok file =>
      obtain ⟨res, _, rfl, judging⟩ := Trace.ask_inv offering
      split at judging
      · obtain ⟨calm, akin⟩ := ih judging
        exact ⟨List.forall_mem_cons.mpr ⟨trivial, List.forall_mem_cons.mpr ⟨trivial, calm⟩⟩, akin⟩
      · obtain ⟨recording, _, settled, rfl, recorded, finished⟩ := Trace.bind_inv judging
        obtain ⟨rfl, rfl⟩ := Trace.done_inv finished
        have calm := recorded.all record_calm
        rw [List.append_nil]
        refine ⟨List.forall_mem_cons.mpr ⟨trivial, List.forall_mem_cons.mpr ⟨trivial, calm⟩⟩, ?_⟩
        show env.Akin settled
        rw [record_settles recorded]
        exact settle_akin env _

theorem attempt_discreet (run : Trace (attempt cfg inflight env) events ()) : Discreet env events := by
  have counted : env.Akin { env with attempts := env.attempts + 1 } := ⟨rfl, rfl, rfl, rfl⟩
  apply Discreet.of_akin counted
  unfold attempt at run
  generalize ({ env with attempts := env.attempts + 1 } : Envelope) = tried at run ⊢
  obtain ⟨known, _, rfl, entering⟩ := Trace.ask_inv run
  rw [← List.singleton_append]
  apply Discreet.after (by simp [Effect.Calm])
  split at entering
  · exact deferEnvelope_discreet entering
  obtain ⟨running, _, rfl, resolving⟩ := Trace.ask_inv entering
  rw [← List.singleton_append]
  apply Discreet.after (by simp [Effect.Calm])
  split at resolving
  · obtain ⟨now, _, rfl, writing⟩ := Trace.ask_inv resolving
    obtain ⟨answer, _, rfl, finished⟩ := Trace.ask_inv writing
    obtain ⟨rfl, -⟩ := Trace.done_inv finished
    exact stopped_discreet now answer
  obtain ⟨found, _, rfl, signing⟩ := Trace.ask_inv resolving
  rw [← List.singleton_append]
  apply Discreet.after (by simp [Effect.Calm])
  obtain ⟨signature, _, rfl, trying⟩ := Trace.ask_inv signing
  rw [← List.singleton_append]
  apply Discreet.after (by simp [Effect.Calm])
  obtain ⟨offering, closing, left, rfl, offered, closed⟩ := Trace.bind_inv trying
  obtain ⟨calm, akin⟩ := tryRelays_opens offered
  apply Discreet.after calm
  cases left with
  | bodyless => exact deferEnvelope_discreet closed
  | through settled last => exact .of_akin (akin.trans (stampReason_akin _ _ _)) (conclude_discreet closed)

/-- What is asked of the outside about an envelope while no attempt is cut short, and the envelope
    while it is in the queue. An operator may hold it there and release it, and the configuration
    may change from one attempt to the next. -/
inductive Course (first : Envelope) : List Happening → Option Envelope → Prop where
  | queued : Course first [] (some first)
  | released {past : List Happening} {env : Envelope} (due : Instant) (earlier : Course first past (some env)) :
      Course first past (some (env.resetAttempts.dueAt due))
  | retried {past events : List Happening} {cfg : RunnerConfig} {env e : Envelope} {inflight : Name} {due : Int}
      {answer : Option Chars} (earlier : Course first past (some env)) (run : Trace (attempt cfg inflight env) events ())
      (kept : ⟨.reschedule inflight e due, answer⟩ ∈ events) :
      Course first (past ++ events) (some (e.dueAt (Instant.ofNanos due)))
  | left {past events : List Happening} {cfg : RunnerConfig} {env : Envelope} {inflight : Name}
      (earlier : Course first past (some env)) (run : Trace (attempt cfg inflight env) events ()) :
      Course first (past ++ events) none

theorem Course.told {first : Envelope} {past : List Happening} {left : Option Envelope} (course : Course first past left) :
    ToldOnce first past ∧ ∀ env, left = some env → Awaiting first past env := by
  induction course with
  | queued =>
    have nothing : ToldOnce first [] := ⟨fun _ => List.nil_sublist _, by simp, by simp, .unqueued (by simp)⟩
    refine ⟨nothing, fun env same => ?_⟩
    cases same
    exact ⟨rfl, rfl, rfl, rfl, fun _ => rfl⟩
  | released due _ ih =>
    refine ⟨ih.1, fun env same => ?_⟩
    cases same
    have awaiting := ih.2 _ rfl
    exact ⟨awaiting.mail, awaiting.addrs, awaiting.failed, awaiting.relayed, awaiting.unwarned⟩
  | retried _ run kept ih =>
    have awaiting := ih.2 _ rfl
    have discreet := attempt_discreet run
    refine ⟨awaiting.attempted ih.1 discreet, fun env same => ?_⟩
    cases same
    exact awaiting.retained (discreet.kept _ _ _ _ kept) _
  | left _ run ih =>
    refine ⟨(ih.2 _ rfl).attempted ih.1 (attempt_discreet run), fun env same => ?_⟩
    cases same

/-- As long as no attempt is cut short, a recipient is named in at most one report of each kind, and
    in at most one queued notification of it. An envelope without a return path is not answered, and a
    notification is such an envelope. -/
theorem told_once (first : Envelope) (past : List Happening) (left : Option Envelope) (course : Course first past left) :
    (∀ kind, (namedBy kind past).Sublist (first.rcpts.map Recipient.addr)) ∧
    (∀ kind files, (queuedBy kind files past).Sublist (first.rcpts.map Recipient.addr)) ∧
    (first.isDSN = true ∨ Text.trimSpace first.mailFrom = [] → ∀ event ∈ past, ¬ event.1.Tells) ∧
    ∀ e answer, ⟨.enqueue e, answer⟩ ∈ past →
      ∀ past' left', Course e past' left' → ∀ event ∈ past', ¬ event.1.Tells := by
  obtain ⟨told, -⟩ := course.told
  refine ⟨told.once, fun kind files => (told.paired kind files).trans (told.once kind),
    fun null => told.quiet (by simpa [suppress] using null), ?_⟩
  intro e answer queued past' left' course'
  exact course'.told.1.quiet (told.back e answer queued)

end Exits

end Notifying

section Sample

local instance plainFolding : CaseFolding := ⟨Char.toLower⟩

def warningConfig : RunnerConfig := { bouncingConfig with delayWarnAfter := 1 }

def lateOnce : Envelope :=
  { plainEnvelope ["e@f"] with attempts := 1, lastErr := "unknown relay group".toList, delayWarned := true, dsnSeq := 1 }

def lateEvents : List Happening :=
  [⟨.lookup "g".toList, false⟩, ⟨.now, (500000000 : Int)⟩, ⟨.now, (500000000 : Int)⟩] ++
  tellingEvents .delayed { lateOnce with dsnSeq := 0 } 500000000
    [describeDelayed "unknown relay group".toList { addr := "e@f".toList }] (some 1000000000) ++
  [⟨.jitter 60000000000, (1000000000 : Int)⟩, ⟨.now, (500000000 : Int)⟩,
    ⟨.reschedule "1.x".toList lateOnce 1500000000, none⟩]

def tooLate : Envelope :=
  { (lateOnce.dueAt (Instant.ofNanos 1500000000)) with
    attempts := 2
    rcpts := [{ addr := "e@f".toList, status := .expired, dsnSent := true }] }

def tooLateEvents : List Happening :=
  [⟨.lookup "g".toList, false⟩, ⟨.now, (2000000000 : Int)⟩] ++
  tellingEvents .failed tooLate 2000000000 [describeExpired "unknown relay group".toList { addr := "e@f".toList }] none ++
  [⟨.bury "2.x".toList { tooLate with dsnSeq := 2 }, none⟩]

theorem told_once_sample : ∃ past, Course (plainEnvelope ["e@f"]) past none ∧
    queuedBy .delayed (fun _ => none) past = ["e@f".toList] ∧ queuedBy .failed (fun _ => none) past = ["e@f".toList] ∧
    ∀ kind, (queuedBy kind (fun _ => none) past).Sublist ["e@f".toList] := by
  have late : Trace (attempt warningConfig "1.x".toList (plainEnvelope ["e@f"])) lateEvents () :=
    Trace.of_replay (by decide)
  have expired : Trace (attempt warningConfig "2.x".toList (lateOnce.dueAt (Instant.ofNanos 1500000000))) tooLateEvents () :=
    Trace.of_replay (by decide)
  have kept : ⟨.reschedule "1.x".toList lateOnce 1500000000, none⟩ ∈ lateEvents :=
    List.mem_append_right _ (by simp)
  have course : Course (plainEnvelope ["e@f"]) ([] ++ lateEvents ++ tooLateEvents) none :=
    .left (.retried .queued late kept) expired
  exact ⟨_, course, by decide, by decide, fun kind => (told_once _ _ _ course).2.1 kind _⟩

end Sample

end Mailgw.Queue
