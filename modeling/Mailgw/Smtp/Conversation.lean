import Mailgw.Calls.Runs
import Mailgw.Rules.Writes
import Mailgw.Smtp.Judgement

namespace Mailgw.Smtp

open Queue Rules Calls

/-- What a client makes go-smtp ask of a session. DATA comes with a body that has been spooled. -/
inductive Command where
  | auth (user mech : Name)
  | regreet (hostname : Name)
  | reset
  | mail (w : World) (fromAddr : Name) (opts : Option MailOptions)
  | rcpt (w : World) (toAddr : Name) (opts : Option RcptOptions)
  | data (w : World) (bodyName : Name) (scan : Scan)

section Walks
variable [Text.LowerCase]

namespace Session

def passWrites (s : Session) (stage : Stage) : Writes := policyWritesOf s.rules { s.env with stage } stage false

theorem policyPass_session (s : Session) (stage : Stage) :
    (s.policyPass stage).1 = { s with env := { s.env with stage, tags := s.env.tags.write (s.passWrites stage) } } := by
  have written := evalPolicyOf_writes s.rules { s.env with stage } stage false
  simp only [policyPass, evalPolicy, passWrites]
  rw [written]

def greetAccepts (s : Session) : List Stage → Bool
  | [] => false
  | stage :: rest =>
    let (s, res) := s.policyPass stage
    match Session.applyTerminal { s with connHeaders := s.connHeaders ++ res.headers } stage res.action with
    | (_, some _) => false
    | (s, none) => res.action = some .accept || s.greetAccepts rest

def greetWrites (s : Session) : List Stage → Writes
  | [] => []
  | stage :: rest =>
    let (after, res) := s.policyPass stage
    match Session.applyTerminal { after with connHeaders := after.connHeaders ++ res.headers } stage res.action with
    | (_, some _) => s.passWrites stage
    | (after, none) =>
      s.passWrites stage ++ if res.action = some .accept then [] else after.greetWrites rest

def mailWalk (b : Backend) (w : World) (fromAddr : Name) (opts : Option MailOptions) (s : Session) : Option Session :=
  let s := s.beginMail fromAddr opts
  if (w.checkMailRate fromAddr s.authUser).isSome then none
  else
    let s := s.checkSPF b w fromAddr
    if s.accepted then none else some s

def mailAction (b : Backend) (w : World) (fromAddr : Name) (opts : Option MailOptions) (s : Session) : Option Action :=
  (s.mailWalk b w fromAddr opts).bind fun s => (s.policyPass .mail).2.action

def mailWrites (b : Backend) (w : World) (fromAddr : Name) (opts : Option MailOptions) (s : Session) : Writes :=
  (s.mailWalk b w fromAddr opts).elim [] fun s => s.passWrites .mail

def rcptPolicyWrites (s : Session) (renv : Env) : Writes :=
  if s.accepted then [] else policyWritesOf s.rules renv .rcpt true

def rcptWrites (toAddr : Name) (s : Session) : Writes :=
  let renv := s.rcptEnv toAddr
  let policy := s.rcptPolicyWrites renv
  policy ++ routeWritesOf s.rules { renv with tags := renv.tags.write policy } .rcpt

def scanWrites (b : Backend) (w : World) : Writes :=
  if !b.scanning then []
  else
    let walked := w.walk b.attach.includeInline
    match walked.err, w.scan walked.parts with
    | none, .ok verdict => [(tagAttachScan, verdict.text)]
    | _, _ => [(tagAttachScan, "error".toList)]

variable [AuthTexts]

def authWrites (b : Backend) (w : World) (s : Session) : Writes :=
  if !s.wantsMsgAuth b then []
  else
    let s := if b.wantDKIM s.rules then s.verifyDKIM b w else s
    let s := if b.wantDMARC s.rules then s.evaluateDMARC w else s
    [(tagMsgAuth, s.msgAuthVerdict)]

/-- What DATA writes to the session's tags, in the order it does. -/
def dataWrites (b : Backend) (w : World) (scan : Scan) (s : Session) : Writes :=
  let s := s.arrive scan
  if s.looped b then []
  else
    let s₁ := (s.inspectBody b w).1
    let s₂ := s₁.inspectMsgAuth b w
    scanWrites b w ++ s₁.authWrites b w ++ if s₂.accepted then [] else s₂.passWrites .data

end Session

end Walks

/-- A session, and what there is to know of how it came about: whether a connect- or helo-stage walk
    ended in an accept, whether the walk at MAIL did, what was written to the session's tags since
    the greeting, and for each recipient everything written up to the end of its RCPT. -/
structure Conversation where
  session : Session
  connHeard : Bool
  mailHeard : Bool := false
  written : Writes
  named : List Writes := []

namespace Ascii

-- letters of one alphabet and no external texts, to run conversations with
scoped instance lowerCase : Text.LowerCase := ⟨Char.toLower⟩
scoped instance caseFolding : CaseFolding := ⟨Char.toLower⟩
scoped instance patterns : Patterns := ⟨fun _ _ _ => none, fun _ => none, fun _ => none, fun _ => none⟩
scoped instance authTexts : AuthTexts := ⟨fun _ _ _ _ => [], fun _ _ _ => [], fun _ => []⟩

end Ascii

namespace Conversation

section Steps
variable [Text.LowerCase]

/-- A conversation after its greeting. STARTTLS begins a new one. -/
def greet (connUUID hostname : Name) (tls : Option TLSState) (conn : ConnEnv) (rules : Option Ruleset) :
    Except Reply Conversation :=
  let s := Session.initial connUUID hostname tls conn rules
  (s.greetPolicy [.connect, .helo]).map fun session =>
    { session, connHeard := s.greetAccepts [.connect, .helo], written := s.greetWrites [.connect, .helo] }

variable [AuthTexts] [CaseFolding]

/-- One command. go-smtp resets the session when a message is through. -/
def next (b : Backend) (c : Conversation) : Command → Option Conversation
  | .auth user mech => some { c with session := c.session.authenticate user mech }
  | .regreet hostname => some { c with session := c.session.regreet hostname, mailHeard := false, named := [] }
  | .reset => some { c with session := c.session.resetTxn, mailHeard := false, named := [] }
  | .mail w fromAddr opts =>
    some { c with
      session := (c.session.mail b w fromAddr opts).1
      mailHeard := c.session.mailAction b w fromAddr opts = some .accept
      written := c.written ++ c.session.mailWrites b w fromAddr opts
      named := [] }
  | .rcpt w toAddr opts =>
    match c.session.rcpt w toAddr opts with
    | (session, some _) => some { c with session }
    | (session, none) => some { c with session, named := c.named ++ [c.written ++ c.session.rcptWrites toAddr] }
  | .data w bodyName scan =>
    if c.session.haveMail ∧ c.session.rcpts ≠ [] then
      some { c with
        session := (c.session.judge b w bodyName scan).1.resetTxn
        mailHeard := false
        written := c.written ++ c.session.dataWrites b w scan
        named := [] }
    else none

end Steps

end Conversation

structure Session.Keeps (s s' : Session) : Prop where
  rules : s'.rules = s.rules
  rcpts : s'.rcpts = s.rcpts
  connAccept : s'.connAccept = s.connAccept
  txnAccept : s'.txnAccept = s.txnAccept
  msgDrop : s'.msgDrop = s.msgDrop

namespace Session

theorem Keeps.refl (s : Session) : Keeps s s := ⟨rfl, rfl, rfl, rfl, rfl⟩

theorem Keeps.trans {s s' s'' : Session} (first : Keeps s s') (second : Keeps s' s'') : Keeps s s'' where
  rules := second.rules.trans first.rules
  rcpts := second.rcpts.trans first.rcpts
  connAccept := second.connAccept.trans first.connAccept
  txnAccept := second.txnAccept.trans first.txnAccept
  msgDrop := second.msgDrop.trans first.msgDrop

theorem Keeps.accepted {s s' : Session} (keeps : Keeps s s') : s'.accepted = s.accepted := by
  simp [Session.accepted, keeps.connAccept, keeps.txnAccept]

section Steps
variable [Text.LowerCase]

theorem greetPolicy_accepted {s : Session} (heard : s.connAccept = true) (stages : List Stage) :
    s.greetPolicy stages = .ok s := by
  cases stages with
  | nil => rfl
  | cons stage rest => simp [greetPolicy, heard]

/-- A greeting whose walk ends in an accept is not refused, and the session remembers the accept. -/
theorem greetPolicy_facts (s : Session) (stages : List Stage) (early : ∀ stage ∈ stages, stage ≤ .helo)
    (fresh : s.connAccept = false) :
    (s.greetAccepts stages = true → ∃ s', s.greetPolicy stages = .ok s') ∧
    ∀ s', s.greetPolicy stages = .ok s' → s'.connAccept = s.greetAccepts stages ∧ s'.txnAccept = s.txnAccept ∧
      s'.rcpts = s.rcpts ∧ s'.env.tags = s.env.tags.write (s.greetWrites stages) := by
  induction stages generalizing s with
  | nil =>
    refine ⟨fun heard => by simp [greetAccepts] at heard, ?_⟩
    intro s' done
    cases done
    exact ⟨fresh, rfl, rfl, rfl⟩
  | cons stage rest ih =>
    have here := early stage (List.mem_cons_self ..)
    have later : ∀ stage ∈ rest, stage ≤ .helo := fun stage member => early stage (List.mem_cons_of_mem _ member)
    have after := s.policyPass_session stage
    rcases walk : s.policyPass stage with ⟨s₁, res⟩
    rw [walk] at after
    simp only at after
    simp only [greetPolicy, greetAccepts, greetWrites, fresh, Bool.false_eq_true, ite_false, walk]
    have onward (s₂ : Session) (same : s₂.connAccept = false) (txn : s₂.txnAccept = s.txnAccept)
        (rcpts : s₂.rcpts = s.rcpts) (tags : s₂.env.tags = s.env.tags.write (s.passWrites stage)) :
        (s₂.greetAccepts rest = true → ∃ s', s₂.greetPolicy rest = .ok s') ∧
        ∀ s', s₂.greetPolicy rest = .ok s' → s'.connAccept = s₂.greetAccepts rest ∧ s'.txnAccept = s.txnAccept ∧
          s'.rcpts = s.rcpts ∧ s'.env.tags = s.env.tags.write (s.passWrites stage ++ s₂.greetWrites rest) := by
      have ⟨heard, facts⟩ := ih s₂ later same
      refine ⟨heard, ?_⟩
      intro s' done
      have ⟨conn, txn', rcpts', tags'⟩ := facts s' done
      refine ⟨conn, txn'.trans txn, rcpts'.trans rcpts, ?_⟩
      rw [tags', tags, Tags.write_append]
    rcases res.action with _ | action
    · simpa [applyTerminal] using onward _ (by simp [after, fresh]) (by simp [after]) (by simp [after]) (by simp [after])
    · cases action with
      | accept =>
        simp only [applyTerminal, here, ite_true]
        rw [greetPolicy_accepted rfl]
        refine ⟨fun _ => ⟨_, rfl⟩, ?_⟩
        intro s' done
        cases done
        simp [after]
      | reject code enhanced message => simp [applyTerminal]
      | tempfail code enhanced message => simp [applyTerminal]
      | _ =>
        simpa [applyTerminal] using
          onward _ (by simp [after, fresh]) (by simp [after]) (by simp [after]) (by simp [after])

omit [Text.LowerCase] in
theorem checkSPF_keeps (b : Backend) (w : World) (fromAddr : Name) (s : Session) :
    Keeps s (s.checkSPF b w fromAddr) ∧ (s.checkSPF b w fromAddr).env.tags = s.env.tags := by
  unfold checkSPF
  split
  · exact ⟨⟨rfl, rfl, rfl, rfl, rfl⟩, rfl⟩
  · exact ⟨Keeps.refl s, rfl⟩

theorem mail_facts (b : Backend) (w : World) (fromAddr : Name) (opts : Option MailOptions) (s : Session) :
    (s.mail b w fromAddr opts).1.env.tags = s.env.tags.write (s.mailWrites b w fromAddr opts) ∧
    (s.mail b w fromAddr opts).1.rcpts = [] ∧ (s.mail b w fromAddr opts).1.connAccept = s.connAccept ∧
    (s.mail b w fromAddr opts).1.txnAccept = decide (s.mailAction b w fromAddr opts = some .accept) := by
  simp only [mail, mailWrites, mailAction, mailWalk]
  cases rate : w.checkMailRate fromAddr (s.beginMail fromAddr opts).authUser with
  | some reply => simp [beginMail, resetTxn]
  | none =>
    obtain ⟨keeps, tags⟩ := checkSPF_keeps b w fromAddr (s.beginMail fromAddr opts)
    generalize (s.beginMail fromAddr opts).checkSPF b w fromAddr = s₁ at keeps tags
    have begun : (s.beginMail fromAddr opts).env.tags = s.env.tags ∧ (s.beginMail fromAddr opts).rcpts = [] ∧
        (s.beginMail fromAddr opts).connAccept = s.connAccept ∧ (s.beginMail fromAddr opts).txnAccept = false :=
      ⟨rfl, rfl, rfl, rfl⟩
    simp only [Option.isSome_none, Bool.false_eq_true, ite_false]
    cases heard : s₁.accepted with
    | true => simp [keeps.rcpts, keeps.connAccept, keeps.txnAccept, tags, begun]
    | false =>
      have after := s₁.policyPass_session .mail
      rcases walk : s₁.policyPass .mail with ⟨s₂, res⟩
      rw [walk] at after
      simp only at after
      have late : ¬ Stage.mail ≤ Stage.helo := by decide
      rcases action : res.action with _ | a
      · simp [applyTerminal, walk, action, after, keeps.rcpts, keeps.connAccept, keeps.txnAccept, tags, begun]
      · cases a <;>
          simp [applyTerminal, walk, action, after, late, keeps.rcpts, keeps.connAccept, keeps.txnAccept, tags, begun]

theorem rcptPolicy_env (s : Session) (renv : Env) (st : RcptState) :
    (s.rcptPolicy renv st).1 = { renv with tags := renv.tags.write (s.rcptPolicyWrites renv) } := by
  have written := evalPolicyOf_writes s.rules renv .rcpt true
  simp only [rcptPolicy, rcptPolicyWrites, evalPolicyRcpt]
  split
  · rfl
  · rcases walk : evalPolicyOf s.rules renv .rcpt true with ⟨renv', res⟩
    rw [walk] at written
    simp only at written ⊢
    split <;> exact written

theorem bindRoute_tags {s : Session} {renv : Env} {st st' : RcptState} (bound : s.bindRoute renv st = .ok st') :
    st'.tags = renv.tags.write (routeWritesOf s.rules renv .rcpt) := by
  have written := route_writes s.rules renv .rcpt
  unfold bindRoute at bound
  rcases walk : route s.rules renv .rcpt with ⟨renv', decision⟩
  rw [walk] at bound written
  simp only at bound written
  cases decision with
  | none =>
    cases bound
    rw [written]
  | some d =>
    simp only at bound
    split at bound
    · rcases terminal : rcptTerminal d.action with reply | drop
      · rw [terminal] at bound
        cases bound
      · rw [terminal] at bound
        cases bound
        rw [written]
    · cases bound
      rw [written]

theorem rcpt_facts {w : World} {toAddr : Name} {opts : Option RcptOptions} {s s' : Session} {reply : Option Reply}
    (step : s.rcpt w toAddr opts = (s', reply)) :
    reply.isSome = true ∧ s' = s ∨
    reply = none ∧ ∃ st : RcptState, s' = { s with rcpts := s.rcpts ++ [st], rcptAccept := s.rcptAccept + 1 } ∧
      st.tags = s.env.tags.write (s.rcptWrites toAddr) := by
  unfold rcpt at step
  split at step
  · cases step
    exact .inl ⟨rfl, rfl⟩
  · split at step
    · cases step
      exact .inl ⟨rfl, rfl⟩
    · have env := s.rcptPolicy_env (s.rcptEnv toAddr) (s.namedRcpt toAddr opts)
      split at step
      · cases step
        exact .inl ⟨rfl, rfl⟩
      · rename_i renv st policy
        rw [policy] at env
        simp only at env
        split at step
        · cases step
          exact .inl ⟨rfl, rfl⟩
        · rename_i st' bound
          cases step
          have tags := bindRoute_tags bound
          rw [env] at tags
          refine .inr ⟨rfl, st', rfl, ?_⟩
          rw [tags]
          simp [rcptWrites, rcptEnv, Env.forRcpt]

end Steps

section Data
variable [Text.LowerCase]

theorem arrive_keeps (s : Session) (scan : Scan) : Keeps s (s.arrive scan) := ⟨rfl, rfl, rfl, rfl, rfl⟩

omit [Text.LowerCase] in
theorem inspectBody_facts (b : Backend) (w : World) (s : Session) :
    Keeps s (s.inspectBody b w).1 ∧ (s.inspectBody b w).1.env.tags = s.env.tags.write (scanWrites b w) := by
  simp only [inspectBody, scanWrites]
  cases scanning : b.scanning with
  | false =>
    simp only [Bool.not_false, Bool.true_and, ite_true]
    split
    · exact ⟨Keeps.refl s, rfl⟩
    · exact ⟨⟨rfl, rfl, rfl, rfl, rfl⟩, rfl⟩
  | true =>
    simp only [Bool.not_true, Bool.false_and, Bool.false_eq_true, ite_false]
    cases (w.walk b.attach.includeInline).err with
    | some err => exact ⟨⟨rfl, rfl, rfl, rfl, rfl⟩, rfl⟩
    | none =>
      cases w.scan (w.walk b.attach.includeInline).parts with
      | error err => exact ⟨⟨rfl, rfl, rfl, rfl, rfl⟩, rfl⟩
      | ok verdict => exact ⟨⟨rfl, rfl, rfl, rfl, rfl⟩, rfl⟩

omit [Text.LowerCase] in
theorem verifyDKIM_facts (b : Backend) (w : World) (s : Session) :
    Keeps s (s.verifyDKIM b w) ∧ (s.verifyDKIM b w).env.tags = s.env.tags := by
  unfold verifyDKIM
  split
  · exact ⟨Keeps.refl s, rfl⟩
  · exact ⟨⟨rfl, rfl, rfl, rfl, rfl⟩, rfl⟩

theorem dataVerdict_facts (s : Session) :
    Keeps s s.dataVerdict.1 ∧
      s.dataVerdict.1.env.tags = s.env.tags.write (if s.accepted then [] else s.passWrites .data) := by
  have after := s.policyPass_session .data
  unfold dataVerdict
  split
  · exact ⟨Keeps.refl s, rfl⟩
  · rcases walk : s.policyPass .data with ⟨s₁, res⟩
    rw [walk] at after
    simp only at after ⊢
    rw [after]
    exact ⟨⟨rfl, rfl, rfl, rfl, rfl⟩, rfl⟩

variable [AuthTexts]

omit [Text.LowerCase] in
theorem inspectMsgAuth_facts (b : Backend) (w : World) (s : Session) :
    Keeps s (s.inspectMsgAuth b w) ∧ (s.inspectMsgAuth b w).env.tags = s.env.tags.write (s.authWrites b w) := by
  simp only [inspectMsgAuth, authWrites]
  split
  · exact ⟨Keeps.refl s, rfl⟩
  · have dkim : Keeps s (if b.wantDKIM s.rules then s.verifyDKIM b w else s) ∧
        (if b.wantDKIM s.rules then s.verifyDKIM b w else s).env.tags = s.env.tags := by
      split
      · exact verifyDKIM_facts b w s
      · exact ⟨Keeps.refl s, rfl⟩
    generalize (if b.wantDKIM s.rules then s.verifyDKIM b w else s) = s₁ at dkim
    have dmarc : Keeps s₁ (if b.wantDMARC s₁.rules then s₁.evaluateDMARC w else s₁) ∧
        (if b.wantDMARC s₁.rules then s₁.evaluateDMARC w else s₁).env.tags = s₁.env.tags := by
      split
      · exact ⟨⟨rfl, rfl, rfl, rfl, rfl⟩, rfl⟩
      · exact ⟨Keeps.refl s₁, rfl⟩
    generalize (if b.wantDMARC s₁.rules then s₁.evaluateDMARC w else s₁) = s₂ at dmarc
    have both := dkim.1.trans dmarc.1
    refine ⟨⟨both.rules, both.rcpts, both.connAccept, both.txnAccept, both.msgDrop⟩, ?_⟩
    simp [setTag, Env.setTag, dmarc.2, dkim.2]

variable [CaseFolding]

theorem judge_facts (b : Backend) (w : World) (bodyName : Name) (scan : Scan) (s : Session) :
    Keeps s (s.judge b w bodyName scan).1 ∧
      (s.judge b w bodyName scan).1.env.tags = s.env.tags.write (s.dataWrites b w scan) := by
  unfold judge dataWrites
  simp only
  split
  · exact ⟨s.arrive_keeps scan, rfl⟩
  · obtain ⟨body, tags⟩ := inspectBody_facts b w (s.arrive scan)
    rcases inspection : (s.arrive scan).inspectBody b w with ⟨s₁, inspected⟩
    rw [inspection] at body tags
    simp only at body tags ⊢
    obtain ⟨auth, tags'⟩ := inspectMsgAuth_facts b w s₁
    obtain ⟨verdict, tags''⟩ := (s₁.inspectMsgAuth b w).dataVerdict_facts
    have whole := (s.arrive_keeps scan).trans (body.trans (auth.trans verdict))
    have written : (s₁.inspectMsgAuth b w).dataVerdict.1.env.tags = s.env.tags.write (scanWrites b w ++
        s₁.authWrites b w ++ if (s₁.inspectMsgAuth b w).accepted then [] else (s₁.inspectMsgAuth b w).passWrites .data) := by
      rw [tags'', tags', tags]
      simp [arrive]
    rcases walk : (s₁.inspectMsgAuth b w).dataVerdict with ⟨s₂, outcome⟩
    rw [walk] at whole written
    cases outcome with
    | error a => exact ⟨whole, written⟩
    | ok msgDrop =>
      simp only
      split <;> exact ⟨whole, written⟩

end Data

end Session

namespace Conversation

variable [Text.LowerCase] [AuthTexts] [CaseFolding]

structure Recorded (c : Conversation) : Prop where
  connHeard : c.session.connAccept = c.connHeard
  mailHeard : c.session.txnAccept = c.mailHeard
  tags : c.session.env.tags = Tags.write [] c.written
  named : c.session.rcpts.map RcptState.tags = c.named.map (Tags.write [])
  before : ∀ writes ∈ c.named, c.written <+: writes

omit [AuthTexts] [CaseFolding] in
theorem recorded_greet {connUUID hostname : Name} {tls : Option TLSState} {conn : ConnEnv} {rules : Option Ruleset}
    {c : Conversation} (greeted : greet connUUID hostname tls conn rules = .ok c) : Recorded c := by
  simp only [greet] at greeted
  rcases policy : (Session.initial connUUID hostname tls conn rules).greetPolicy [.connect, .helo] with reply | session
  · rw [policy] at greeted
    cases greeted
  · rw [policy] at greeted
    cases greeted
    have early : ∀ stage ∈ [Stage.connect, .helo], stage ≤ .helo := by decide
    obtain ⟨heard, txn, rcpts, tags⟩ := (Session.greetPolicy_facts _ _ early rfl).2 session policy
    constructor
    · exact heard
    · exact txn
    · exact tags
    · simp [rcpts, Session.initial]
    · simp

theorem Recorded.next {b : Backend} {c c' : Conversation} (recorded : Recorded c) {cmd : Command}
    (step : c.next b cmd = some c') : Recorded c' := by
  cases cmd with
  | auth user mech =>
    cases step
    exact ⟨recorded.connHeard, recorded.mailHeard, recorded.tags, recorded.named, recorded.before⟩
  | regreet hostname =>
    cases step
    exact ⟨recorded.connHeard, rfl, recorded.tags, rfl, by simp⟩
  | reset =>
    cases step
    exact ⟨recorded.connHeard, rfl, recorded.tags, rfl, by simp⟩
  | mail w fromAddr opts =>
    cases step
    obtain ⟨tags, rcpts, conn, txn⟩ := Session.mail_facts b w fromAddr opts c.session
    constructor
    · exact conn.trans recorded.connHeard
    · exact txn
    · simp only [tags, recorded.tags, Tags.write_append]
    · simp [rcpts]
    · simp
  | rcpt w toAddr opts =>
    simp only [Conversation.next] at step
    rcases answer : c.session.rcpt w toAddr opts with ⟨session, reply⟩
    rw [answer] at step
    rcases Session.rcpt_facts answer with ⟨refused, rfl⟩ | ⟨rfl, st, rfl, tags⟩
    · obtain ⟨r, rfl⟩ := Option.isSome_iff_exists.mp refused
      cases step
      exact recorded
    · cases step
      constructor
      · exact recorded.connHeard
      · exact recorded.mailHeard
      · exact recorded.tags
      · simp [recorded.named, tags, recorded.tags]
      · intro writes member
        rcases List.mem_append.mp member with old | new
        · exact recorded.before writes old
        · rw [List.mem_singleton.mp new]
          exact List.prefix_append _ _
  | data w bodyName scan =>
    simp only [Conversation.next] at step
    split at step
    · cases step
      obtain ⟨keeps, tags⟩ := Session.judge_facts b w bodyName scan c.session
      constructor
      · exact keeps.connAccept.trans recorded.connHeard
      · rfl
      · simp [Session.resetTxn, tags, recorded.tags]
      · rfl
      · simp
    · cases step

theorem recorded_run {b : Backend} {c c' : Conversation} (recorded : Recorded c) {ok : Conversation → Command → Prop}
    (run : Reachable (next b) ok c c') : Recorded c' :=
  run.invariant Recorded recorded fun _ _ _ held _ step => held.next step

def toOne : List Command := [.mail {} "sender@example.com".toList none, .rcpt {} "one@example.com".toList none]

def emptyBody : Scan := { size := 0, lines := 0, headers := [], rawHeaders := [] }

def talk [Patterns] (b : Backend) (f : Rules.File) (cmds : List Command) : Option Conversation :=
  (compile f none).toOption.bind fun rs =>
    (greet "C".toList "client".toList none {} (some rs)).toOption.bind fun c => play (next b) (fun _ _ => true) c cmds

theorem talk_reached [Patterns] {b : Backend} {f : Rules.File} {cmds : List Command} {c : Conversation}
    (talked : talk b f cmds = some c) : ∃ rs c₀, compile f none = .ok rs ∧
      greet "C".toList "client".toList none {} (some rs) = .ok c₀ ∧ Reachable (next b) (fun _ _ => True) c₀ c := by
  unfold talk at talked
  cases compiled : compile f none with
  | error err =>
    rw [compiled] at talked
    cases talked
  | ok rs =>
    simp only [compiled, Except.toOption, Option.bind_some] at talked
    cases greeted : greet "C".toList "client".toList none {} (some rs) with
    | error reply =>
      rw [greeted] at talked
      cases talked
    | ok c₀ =>
      simp only [greeted, Option.bind_some] at talked
      exact ⟨rs, c₀, rfl, greeted, reachable_of_play (fun _ _ _ => trivial) cmds talked⟩

end Conversation

end Mailgw.Smtp
