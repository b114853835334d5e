import Mailgw.Rules.Refusals
import Mailgw.Smtp.Judgement
import Mailgw.Smtp.Reordered

namespace Mailgw.Smtp

open Queue Rules Calls Deliver

def Reply.class (r : Reply) : Int := r.code / 100

structure Session.Coded (s : Session) : Prop where
  rules : ∀ rs ∈ s.rules, rs.Coded
  routes : ∀ r ∈ s.rcpts, ∀ d ∈ r.decision, d.action.Ends

section Refusals
variable {a : Action} {f : FailedRcpt}

theorem smtpError_class (refuses : a.Refuses) :
    (smtpError a).class = 5 ∧ (∃ code enhanced message, a = .reject code enhanced message) ∨
      (smtpError a).class = 4 ∧ ∃ code enhanced message, a = .tempfail code enhanced message := by
  cases a with
  | reject code enhanced message =>
    have bounds : 500 ≤ code ∧ code ≤ 599 := refuses
    refine .inl ⟨?_, code, enhanced, message, rfl⟩
    simp only [Reply.class, smtpError]
    split <;> dsimp only <;> omega
  | tempfail code enhanced message =>
    have bounds : 400 ≤ code ∧ code ≤ 499 := refuses
    refine .inr ⟨?_, code, enhanced, message, rfl⟩
    simp only [Reply.class, smtpError]
    split <;> dsimp only <;> omega
  | _ => exact refuses.elim

theorem class_of_refusal (refuses : f.action.Refuses) : (smtpError f.action).class = if f.permanent then 5 else 4 := by
  rcases smtpError_class refuses with ⟨five, code, enhanced, message, action⟩ | ⟨four, code, enhanced, message, action⟩
  · rw [five]
    simp [FailedRcpt.permanent, action]
  · rw [four]
    simp [FailedRcpt.permanent, action]

end Refusals

section Settling
variable [Text.LowerCase] {s : Session} {rs : RcptState} {msgDrop : Option Drop} {f : FailedRcpt}

theorem dataPolicy_refuses (coded : ∀ rs ∈ s.rules, rs.Coded) {renv : Env} {headers : List Rules.Header} {drop : Option Drop}
    (refused : s.dataPolicy rs drop = (renv, headers, .error (.failed f))) : f.action.Refuses := by
  unfold Session.dataPolicy at refused
  split at refused
  · cases refused
  · rcases walk : evalPolicyRcpt s.rules (s.dataEnvFor rs) .data with ⟨renv', res⟩
    rw [walk] at refused
    have decided : ∀ a, res.action = some a → a.Coded := by
      intro a action
      apply evalPolicyRcpt_coded coded
      rw [walk]
      exact action
    cases action : res.action with
    | none => simp [action] at refused
    | some a =>
      have own := decided a action
      cases a <;> simp only [action, Prod.mk.injEq, Except.error.injEq, reduceCtorEq, and_false, Fate.failed.injEq] at refused
      all_goals
        rw [← refused.2.2]
        exact own

omit [Text.LowerCase] in
theorem dispatch_refuses {drop : Option Drop} {headers : List Rules.Header} {tags : Tags} {decision : Option Rules.Decision}
    (ends : ∀ d ∈ decision, d.action.Ends) (failed : s.dispatch rs drop headers tags decision = .failed f) : f.action.Refuses := by
  cases decision with
  | none =>
    cases failed
    exact Action.refuses_default
  | some d =>
    have own := ends d rfl
    simp only [Session.dispatch] at failed
    split at failed
    · cases failed
    · cases failed
    · cases failed
    · rename_i relay discard quarantine
      cases failed
      exact own.refuses relay discard quarantine

theorem settle_refuses (coded : s.Coded) (member : rs ∈ s.rcpts) (failed : s.settle msgDrop rs = .failed f) : f.action.Refuses := by
  unfold Session.settle at failed
  dsimp only at failed
  split at failed
  · cases failed
  · rcases policy : s.dataPolicy rs (msgDrop.or rs.drop) with ⟨renv, headers, fate | drop⟩
    · rw [policy] at failed
      cases failed
      exact dataPolicy_refuses coded.rules policy
    · rw [policy] at failed
      apply dispatch_refuses _ failed
      intro d decided
      unfold Session.dataRoute at decided
      cases bound : rs.decision with
      | some d' =>
        rw [bound] at decided
        cases decided
        exact coded.routes rs member d bound
      | none =>
        rw [bound] at decided
        exact route_ends coded.rules decided

end Settling

section Steps
variable [Text.LowerCase] {s s' : Session}

namespace Session

def SameRcpts (s s' : Session) : Prop := s'.rules = s.rules ∧ s'.rcpts = s.rcpts

omit [Text.LowerCase] in
theorem SameRcpts.coded (same : SameRcpts s s') (coded : s.Coded) : s'.Coded :=
  ⟨same.1 ▸ coded.rules, same.2 ▸ coded.routes⟩

omit [Text.LowerCase] in
theorem Coded.anew (coded : s.Coded) (rules : s'.rules = s.rules) (nobody : s'.rcpts = []) : s'.Coded :=
  ⟨rules ▸ coded.rules, by simp [nobody]⟩

omit [Text.LowerCase] in
theorem applyTerminal_same (s : Session) (stage : Stage) (a : Option Action) : SameRcpts s (applyTerminal s stage a).1 := by
  unfold applyTerminal
  split <;> first | exact ⟨rfl, rfl⟩ | (split <;> exact ⟨rfl, rfl⟩)

theorem policyPass_same (s : Session) (stage : Stage) : SameRcpts s (s.policyPass stage).1 := by
  rw [policyPass_session]
  exact ⟨rfl, rfl⟩

theorem greetPolicy_same {stages : List Stage} (greeted : s.greetPolicy stages = .ok s') : SameRcpts s s' := by
  induction stages generalizing s with
  | nil =>
    cases greeted
    exact ⟨rfl, rfl⟩
  | cons stage rest ih =>
    rw [greetPolicy] at greeted
    split at greeted
    · cases greeted
      exact ⟨rfl, rfl⟩
    · have walked := s.policyPass_same stage
      rcases walk : s.policyPass stage with ⟨s₁, res⟩
      rw [walk] at walked greeted
      have applied := applyTerminal_same { s₁ with connHeaders := s₁.connHeaders ++ res.headers } stage res.action
      dsimp only at greeted
      split at greeted
      · cases greeted
      · rename_i s₂ terminal
        rw [terminal] at applied
        obtain ⟨rules, rcpts⟩ := ih greeted
        exact ⟨rules.trans (applied.1.trans walked.1), rcpts.trans (applied.2.trans walked.2)⟩

theorem mail_rules (b : Backend) (w : World) (fromAddr : Name) (opts : Option MailOptions) (s : Session) :
    (s.mail b w fromAddr opts).1.rules = s.rules := by
  have checked := (checkSPF_keeps b w fromAddr (s.beginMail fromAddr opts)).1.rules
  unfold mail
  dsimp only
  split
  · rfl
  split
  · exact checked
  · have walked := (policyPass_same ((s.beginMail fromAddr opts).checkSPF b w fromAddr) .mail).1
    rcases walk : ((s.beginMail fromAddr opts).checkSPF b w fromAddr).policyPass .mail with ⟨s₁, res⟩
    rw [walk] at walked
    have applied := (applyTerminal_same { s₁ with txnHeaders := s₁.txnHeaders ++ res.headers } .mail res.action).1
    exact applied.trans (walked.trans checked)

theorem rcptPolicy_decision {renv renv' : Env} {st st' : RcptState} (passed : s.rcptPolicy renv st = (renv', .ok st')) :
    st'.decision = st.decision := by
  unfold rcptPolicy at passed
  split at passed
  · cases passed
    rfl
  · dsimp only at passed
    split at passed
    · cases passed
      rfl
    · rename_i a _
      cases terminal : rcptTerminal a with
      | error reply =>
        rw [terminal] at passed
        cases passed
      | ok drop =>
        rw [terminal] at passed
        cases passed
        rfl

theorem bindRoute_ends {renv : Env} {st st' : RcptState} (coded : ∀ rs ∈ s.rules, rs.Coded) (unbound : st.decision = none)
    (bound : s.bindRoute renv st = .ok st') : ∀ d ∈ st'.decision, d.action.Ends := by
  unfold bindRoute at bound
  rcases walk : route s.rules renv .rcpt with ⟨renv', decision⟩
  rw [walk] at bound
  cases decision with
  | none =>
    cases bound
    simp [unbound]
  | some d =>
    have own : d.action.Ends := route_ends coded (by rw [walk])
    dsimp only at bound
    split at bound
    · cases terminal : rcptTerminal d.action with
      | error reply =>
        rw [terminal] at bound
        cases bound
      | ok drop =>
        rw [terminal] at bound
        cases bound
        simpa using own
    · cases bound
      simpa using own

theorem Coded.rcpt (coded : s.Coded) (w : World) (toAddr : Name) (opts : Option RcptOptions) : (s.rcpt w toAddr opts).1.Coded := by
  unfold Session.rcpt
  split
  · exact coded
  split
  · exact coded
  · rcases policy : s.rcptPolicy (s.rcptEnv toAddr) (s.namedRcpt toAddr opts) with ⟨renv, reply | st⟩
    · exact coded
    · dsimp only
      cases bound : s.bindRoute renv st with
      | error reply => exact coded
      | ok st' =>
        refine ⟨coded.rules, ?_⟩
        intro r member
        rcases List.mem_append.mp member with old | new
        · exact coded.routes r old
        · rw [List.mem_singleton.mp new]
          exact bindRoute_ends coded.rules (rcptPolicy_decision policy) bound

end Session

namespace Conversation

theorem coded_greet {connUUID hostname : Name} {tls : Option TLSState} {conn : ConnEnv} {rules : Option Ruleset} {c : Conversation}
    (coded : ∀ rs ∈ rules, rs.Coded) (greeted : greet connUUID hostname tls conn rules = .ok c) : c.session.Coded := by
  simp only [greet] at greeted
  cases policy : (Session.initial connUUID hostname tls conn rules).greetPolicy [.connect, .helo] with
  | error reply =>
    rw [policy] at greeted
    cases greeted
  | ok session =>
    rw [policy] at greeted
    cases greeted
    apply (Session.greetPolicy_same policy).coded
    exact ⟨coded, by simp [Session.initial]⟩

variable [AuthTexts] [CaseFolding]

theorem coded_next {b : Backend} {c c' : Conversation} {cmd : Command} (coded : c.session.Coded) (step : c.next b cmd = some c') :
    c'.session.Coded := by
  cases cmd with
  | auth user mech =>
    cases step
    exact ⟨coded.rules, coded.routes⟩
  | regreet hostname =>
    cases step
    exact coded.anew rfl rfl
  | reset =>
    cases step
    exact coded.anew rfl rfl
  | mail w fromAddr opts =>
    cases step
    exact coded.anew (Session.mail_rules b w fromAddr opts _) (Session.mail_facts b w fromAddr opts _).2.1
  | rcpt w toAddr opts =>
    have named := coded.rcpt w toAddr opts
    simp only [Conversation.next] at step
    split at step
    · rename_i received
      cases step
      rw [received] at named
      exact named
    · rename_i received
      cases step
      rw [received] at named
      exact named
  | data w bodyName scan =>
    simp only [Conversation.next] at step
    split at step
    · cases step
      have keeps := (Session.judge_facts b w bodyName scan c.session).1
      exact coded.anew keeps.rules rfl
    · cases step

theorem coded_run {b : Backend} {c c' : Conversation} (coded : c.session.Coded) {ok : Conversation → Command → Prop}
    (run : Reachable (next b) ok c c') : c'.session.Coded :=
  run.invariant (fun c => c.session.Coded) coded fun _ _ _ held _ step => coded_next held step

end Conversation

end Steps

section Answers
variable [Text.LowerCase] [AuthTexts] [CaseFolding] {b : Backend} {w : World} {fault : Chars → BodyFault} {body : Reader} {scan : Scan}
  {s : Session} {name : Chars} {size : Nat} {failed : List FailedRcpt} {reply : Reply}

namespace Session

def Answers (b : Backend) (w : World) (fault : Chars → BodyFault) (body : Reader) (scan : Scan) (name : Chars) (size : Nat)
    (s : Session) (reply : Reply) : Prop :=
  ∃ events s', Trace (s.data b w fault body scan)
    ((⟨.inl (.writeBody s.txnUUID (.message body)), .ok (name, size)⟩ : Filed) :: events) (s', reply)

/-- The message gets as far as the sorting of its recipients, which leaves nothing to queue and these refusals. -/
structure Unqueued (b : Backend) (w : World) (name : Chars) (scan : Scan) (s : Session) (failed : List FailedRcpt) : Prop where
  haveMail : s.haveMail = true
  sorted : ∃ s₁ split, s.judge b w name scan = (s₁, .sorted split) ∧ split.envelopes = [] ∧ split.failed = failed
  refusals : failed ≠ []

omit [AuthTexts] [CaseFolding] in
theorem split_failed (s : Session) (bodyName : Name) (size : Nat) (now : Instant) (msgDrop : Option Drop) :
    (s.split bodyName size now msgDrop).failed = (s.rcpts.map (s.settle msgDrop)).filterMap Fate.failed? := by
  have collected := (gathers (s.rcpts.map (s.settle msgDrop))).failed
  rw [← collect_eq] at collected
  exact collected

omit [AuthTexts] [CaseFolding] in
theorem split_envelopes_nil_iff (s : Session) (bodyName : Name) (size : Nat) (now : Instant) (msgDrop : Option Drop) :
    (s.split bodyName size now msgDrop).envelopes = [] ↔ (s.rcpts.map (s.settle msgDrop)).filterMap Fate.relayed? = [] := by
  have collects := sortedBuckets_collects s msgDrop
  rw [split_envelopes, List.mapIdx_eq_nil_iff]
  constructor
  · intro nothing
    rw [List.eq_nil_iff_forall_not_mem]
    intro r relayed
    have covered := collects.covers r relayed
    rw [nothing] at covered
    cases covered
  · intro nobody
    rw [List.eq_nil_iff_forall_not_mem]
    intro bucket member
    obtain ⟨r, relayed, _⟩ := collects.labels bucket member
    rw [nobody] at relayed
    cases relayed

theorem Unqueued.reordered (unqueued : s.Unqueued b w name scan failed) :
    ∃ refused : RcptState → Option FailedRcpt, failed = s.rcpts.filterMap refused ∧
      (s.Coded → ∀ r ∈ s.rcpts, ∀ f, refused r = some f → f.action.Refuses) ∧
      ∀ order rcpts, order.Perm s.rcpts → List.Forall₂ (RcptState.Moved s.rules) order rcpts →
        Unqueued b w name scan { s with rcpts } (order.filterMap refused) := by
  obtain ⟨s₁, split, judged, nothing, told⟩ := unqueued.sorted
  have keeps := (judge_facts b w name scan s).1
  rw [judged] at keeps
  obtain ⟨msgDrop, examined, sorted⟩ : ∃ msgDrop, (s.arrive scan).examine b w = (s₁, .ok msgDrop) ∧
      split = s₁.split name scan.size w.now msgDrop := by
    rw [judge_examine] at judged
    rcases examined : (s.arrive scan).examine b w with ⟨s', reply | msgDrop⟩
    · rw [examined] at judged
      cases judged
    · rw [examined] at judged
      cases judged
      exact ⟨msgDrop, rfl, rfl⟩
  have own : failed = s.rcpts.filterMap fun r => (s₁.settle msgDrop r).failed? := by
    rw [← told, sorted, split_failed, keeps.rcpts, List.filterMap_map]
    rfl
  rw [sorted, split_envelopes_nil_iff, keeps.rcpts] at nothing
  refine ⟨fun r => (s₁.settle msgDrop r).failed?, own, ?_, ?_⟩
  · intro coded r member f failing
    have coded₁ : s₁.Coded := ⟨keeps.rules ▸ coded.rules, keeps.rcpts ▸ coded.routes⟩
    dsimp only at failing
    cases fate : s₁.settle msgDrop r with
    | failed f' =>
      rw [fate] at failing
      cases failing
      exact settle_refuses coded₁ (keeps.rcpts ▸ member) fate
    | dropped | relayed =>
      rw [fate] at failing
      cases failing
  · intro order rcpts same moved
    obtain ⟨s₂, judged', fates⟩ := judge_regiven examined same moved
    refine ⟨unqueued.haveMail, ⟨s₂, _, judged', ?_, ?_⟩, ?_⟩
    · rw [split_envelopes_nil_iff, fates]
      have relayed := (same.map (s₁.settle msgDrop)).filterMap Fate.relayed?
      rw [nothing] at relayed
      exact relayed.eq_nil
    · rw [split_failed, fates, List.filterMap_map]
      rfl
    · intro nobody
      have refused := same.filterMap fun r => (s₁.settle msgDrop r).failed?
      rw [nobody, ← own] at refused
      exact unqueued.refusals refused.symm.eq_nil

theorem Unqueued.rcpts (unqueued : s.Unqueued b w name scan failed) : s.rcpts ≠ [] := by
  obtain ⟨refused, own, _⟩ := unqueued.reordered
  intro nobody
  apply unqueued.refusals
  rw [own, nobody]
  rfl

theorem Unqueued.answers_iff {f : FailedRcpt} {rest : List FailedRcpt} (unqueued : s.Unqueued b w name { scan with size } (f :: rest)) :
    s.Answers b w fault body scan name size reply ↔ reply = smtpError f.action := by
  obtain ⟨s₁, split, judged, nothing, told⟩ := unqueued.sorted
  have named := unqueued.rcpts
  have haveMail := unqueued.haveMail
  constructor
  · intro ⟨events, s', run⟩
    unfold data at run
    simp only [haveMail, Bool.not_true, Bool.false_eq_true, if_false, named] at run
    obtain ⟨_, later, same, judging⟩ := run.call_inv
    cases same
    simp only [Prog.inl, Prog.bind, judged, nothing, told, if_true] at judging
    obtain ⟨_, _, _, answered⟩ := judging.call_inv
    cases answered.done_inv.2
    rfl
  · intro same
    rw [same]
    refine ⟨[⟨.inl (.removeBody name), none⟩], s₁, ?_⟩
    unfold data
    simp only [haveMail, Bool.not_true, Bool.false_eq_true, if_false, named]
    apply Trace.call
    simp only [Prog.inl, Prog.bind, judged, nothing, told, if_true]
    exact .call _ (.done _)

/-- The reply is temporary if some refusal is, permanent only if all are, and of the same class in whatever order the
    recipients were given. -/
structure Aggregates (b : Backend) (w : World) (fault : Chars → BodyFault) (body : Reader) (scan : Scan) (name : Chars) (size : Nat)
    (s : Session) (failed : List FailedRcpt) : Prop where
  temporary : ∀ reply, s.Answers b w fault body scan name size reply → (∃ f ∈ failed, f.permanent = false) → reply.class = 4
  permanent : ∀ reply, s.Answers b w fault body scan name size reply → reply.class = 5 → ∀ f ∈ failed, f.permanent = true
  ordered : ∀ rcpts reply reply', Regiven s.rules s.rcpts rcpts → s.Answers b w fault body scan name size reply →
    Answers b w fault body scan name size { s with rcpts } reply' → reply'.class = reply.class

/-- The class of the reply is that of the first refusal. -/
theorem Unqueued.class (unqueued : s.Unqueued b w name { scan with size } failed) (refuses : ∀ f ∈ failed, f.action.Refuses)
    (answers : s.Answers b w fault body scan name size reply) : ∃ f ∈ failed, reply.class = if f.permanent then 5 else 4 := by
  obtain ⟨f, rest, rfl⟩ := List.exists_cons_of_ne_nil unqueued.refusals
  rw [unqueued.answers_iff.mp answers]
  exact ⟨f, List.mem_cons_self .., class_of_refusal (refuses f (List.mem_cons_self ..))⟩

theorem Coded.aggregates_iff (coded : s.Coded) (unqueued : s.Unqueued b w name { scan with size } failed) :
    Aggregates b w fault body scan name size s failed ↔
      (∀ f ∈ failed, f.permanent = true) ∨ ∀ f ∈ failed, f.permanent = false := by
  obtain ⟨refused, own, refuses, reordered⟩ := unqueued.reordered
  replace refuses := refuses coded
  have proper : ∀ f ∈ failed, f.action.Refuses := by
    intro f member
    rw [own] at member
    obtain ⟨r, named, failing⟩ := List.mem_filterMap.mp member
    exact refuses r named f failing
  have among : ∀ order : List RcptState, order.Perm s.rcpts → ∀ f ∈ order.filterMap refused, f ∈ failed := by
    intro order same f member
    rw [own]
    exact (same.filterMap refused).mem_iff.mp member
  constructor
  · intro aggregates
    by_contra mixed
    rw [not_or] at mixed
    push Not at mixed
    obtain ⟨⟨t, told, temporary⟩, p, told', permanent⟩ := mixed
    rw [ne_eq, Bool.not_eq_true] at temporary
    rw [Bool.ne_false_iff] at permanent
    -- the recipient that is refused for good is given first
    have refused_ := told'
    rw [own] at refused_
    obtain ⟨r, named, failing⟩ := List.mem_filterMap.mp refused_
    have same : (r :: s.rcpts.erase r).Perm s.rcpts := (List.perm_cons_erase named).symm
    have first := reordered _ _ same (List.forall₂_same.mpr fun r _ => .refl s.rules r)
    rw [List.filterMap_cons, failing] at first
    obtain ⟨f, rest, rfl⟩ := List.exists_cons_of_ne_nil unqueued.refusals
    have answer : s.Answers b w fault body scan name size (smtpError f.action) := unqueued.answers_iff.mpr rfl
    have answer' : Answers b w fault body scan name size { s with rcpts := r :: s.rcpts.erase r } (smtpError p.action) :=
      first.answers_iff.mpr rfl
    have four := aggregates.temporary _ answer ⟨t, told, temporary⟩
    have alike := aggregates.ordered _ _ _ (.of_perm same) answer answer'
    rw [four, class_of_refusal (proper p told'), permanent] at alike
    cases alike
  · intro uniform
    have classes : ∀ v, (∀ f ∈ failed, f.permanent = v) → ∀ rcpts reply, Regiven s.rules s.rcpts rcpts →
        Answers b w fault body scan name size { s with rcpts } reply → reply.class = if v then 5 else 4 := by
      intro v all rcpts reply ⟨order, same, moved⟩ answers
      have refuses' : ∀ f ∈ order.filterMap refused, f.action.Refuses := fun f member => proper f (among order same f member)
      obtain ⟨f, member, answered⟩ := (reordered order rcpts same moved).class refuses' answers
      rw [answered, all f (among order same f member)]
    have given : Regiven s.rules s.rcpts s.rcpts := .of_perm (.refl _)
    rcases uniform with all | all
    · constructor
      · intro reply _ ⟨f, member, temporary⟩
        rw [all f member] at temporary
        cases temporary
      · intro _ _ _
        exact all
      · intro rcpts reply reply' regiven answers answers'
        rw [classes true all _ _ regiven answers', classes true all _ _ given answers]
    · constructor
      · intro reply answers _
        exact classes false all _ _ given answers
      · intro reply answers five
        rw [classes false all _ _ given answers] at five
        cases five
      · intro rcpts reply reply' regiven answers answers'
        rw [classes false all _ _ regiven answers', classes false all _ _ given answers]

end Session

/-- In every conversation under compiled rules: the reply to a message of which nothing was queued is right exactly if
    all refusals are permanent or all are temporary. -/
theorem unqueued_aggregates_iff [Patterns] {connUUID hostname : Name} {tls : Option TLSState} {conn : ConnEnv}
    {rules : Option Ruleset} (compiled : ∀ rs ∈ rules, ∃ file groups, compile file groups = .ok rs) {c₀ c : Conversation}
    (greeted : Conversation.greet connUUID hostname tls conn rules = .ok c₀) {b₀ : Backend} {ok : Conversation → Command → Prop}
    (run : Reachable (Conversation.next b₀) ok c₀ c)
    (unqueued : c.session.Unqueued b w name { scan with size } failed) :
    c.session.Aggregates b w fault body scan name size failed ↔
      (∀ f ∈ failed, f.permanent = true) ∨ ∀ f ∈ failed, f.permanent = false := by
  have coded : ∀ rs ∈ rules, rs.Coded := by
    intro rs member
    obtain ⟨file, groups, done⟩ := compiled rs member
    exact compile_coded done
  exact (Conversation.coded_run (Conversation.coded_greet coded greeted) run).aggregates_iff unqueued

end Answers

section Sample

open Ascii

def movedAway : Rules.File where
  policy := [
    { name := "gone".toList, stage := "data".toList
      pred := .any [.field { field := "rcpt.to".toList, op := some .eq, value := some (.str "gone@example.com".toList) }]
      actions := [.reject 0 [] []] }]

def goneFirst : List Command := [
  .mail {} "sender@example.com".toList none, .rcpt {} "gone@example.com".toList none, .rcpt {} "one@example.com".toList none]

def unsent : Scan := { Conversation.emptyBody with size := 0 }

def blankBody : Reader := { chunks := [] }

def goneRefusal : FailedRcpt where
  addr := "gone@example.com".toList
  action := .reject 550 "5.7.1".toList "Rejected by policy".toList
  orcpt := []
  orcptType := []
  notify := []
  rule := "gone".toList

def unroutedRefusal : FailedRcpt :=
  { addr := "one@example.com".toList, action := defaultAction, orcpt := [], orcptType := [], notify := [], rule := [] }

def comesTo (failed : List FailedRcpt) (c : Conversation) : Bool :=
  c.session.haveMail && decide ((c.session.judge plainGateway {} [] unsent).2 = .sorted ⟨[], failed, 0⟩)

theorem unqueued_of_comesTo {failed : List FailedRcpt} {c : Conversation} (told : comesTo failed c = true)
    (refusals : failed ≠ []) : c.session.Unqueued plainGateway {} [] { unsent with size := 0 } failed := by
  simp only [comesTo, Bool.and_eq_true, decide_eq_true_eq] at told
  refine ⟨told.1, ⟨_, _, Prod.ext rfl told.2, rfl, rfl⟩, refusals⟩

/-- The client is told to give up, although one of the recipients would be taken later. -/
theorem refused_for_good : ∃ c, Conversation.talk plainGateway movedAway goneFirst = some c ∧
    c.session.Unqueued plainGateway {} [] { unsent with size := 0 } [goneRefusal, unroutedRefusal] ∧
    ¬ c.session.Aggregates plainGateway {} (fun _ => .spool) blankBody unsent [] 0 [goneRefusal, unroutedRefusal] := by
  have told : (Conversation.talk plainGateway movedAway goneFirst).any (comesTo [goneRefusal, unroutedRefusal]) = true := by
    decide +kernel
  obtain ⟨c, talked, come⟩ := (Option.any_eq_true _ _).mp told
  have unqueued := unqueued_of_comesTo come (by simp)
  refine ⟨c, talked, unqueued, ?_⟩
  intro aggregates
  have four := aggregates.temporary _ (unqueued.answers_iff.mpr rfl) ⟨unroutedRefusal, by simp, rfl⟩
  revert four
  decide

def fullMailbox : Rules.File where
  policy := [
    { name := "full".toList, stage := "data".toList
      pred := .any [.field { field := "rcpt.to".toList, op := some .eq, value := some (.str "full@example.com".toList) }]
      actions := [.tempfail 452 "4.2.2".toList "Mailbox full".toList] }]

def fullFirst : List Command := [
  .mail {} "sender@example.com".toList none, .rcpt {} "full@example.com".toList none, .rcpt {} "one@example.com".toList none]

def fullRefusal : FailedRcpt where
  addr := "full@example.com".toList
  action := .tempfail 452 "4.2.2".toList "Mailbox full".toList
  orcpt := []
  orcptType := []
  notify := []
  rule := "full".toList

/-- Two recipients refused for now, each for a reason of its own. -/
theorem unqueued_aggregates_sample : ∃ c, Conversation.talk plainGateway fullMailbox fullFirst = some c ∧
    c.session.Aggregates plainGateway {} (fun _ => .spool) blankBody unsent [] 0 [fullRefusal, unroutedRefusal] ∧
    ∀ reply, c.session.Answers plainGateway {} (fun _ => .spool) blankBody unsent [] 0 reply → reply.class = 4 := by
  have told : (Conversation.talk plainGateway fullMailbox fullFirst).any (comesTo [fullRefusal, unroutedRefusal]) = true := by
    decide +kernel
  obtain ⟨c, talked, come⟩ := (Option.any_eq_true _ _).mp told
  obtain ⟨rs, c₀, compiled, greeted, run⟩ := Conversation.talk_reached talked
  have known : ∀ rs' ∈ some rs, ∃ file groups, compile file groups = .ok rs' := by
    intro rs' same
    cases same
    exact ⟨fullMailbox, none, compiled⟩
  have aggregates : c.session.Aggregates plainGateway {} (fun _ => .spool) blankBody unsent [] 0
      [fullRefusal, unroutedRefusal] :=
    (unqueued_aggregates_iff known greeted run (unqueued_of_comesTo come (by simp))).mpr (.inr (by decide))
  exact ⟨c, talked, aggregates, fun reply answers => aggregates.temporary reply answers ⟨fullRefusal, by simp, rfl⟩⟩

end Sample

end Mailgw.Smtp
