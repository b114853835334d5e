import Mailgw.Rules.Blindness
import Mailgw.Smtp.Conversation

namespace Mailgw.Smtp

open Queue Rules

namespace Session

def among (o : Others) (rcpts : List RcptState) (n : Nat) (s : Session) : Session :=
  { s with env := s.env.among o, rcpts, rcptAccept := n }

def shift (o : Shift) (rcpts : List RcptState) (n : Nat) (s : Session) : Session :=
  { s with env := s.env.shift o, rcpts, rcptAccept := n }

theorem among_eq_shift (o : Others) (rcpts : List RcptState) (n : Nat) (s : Session) :
    s.among o rcpts n = s.shift o.shift rcpts n := rfl

section Facts
variable {o o' : Shift} {rcpts : List RcptState} {n : Nat} {s : Session}

theorem updateMsg_shift (f : MsgEnv → MsgEnv) (own : ∀ m, f (m.shift o) = (f m).shift o) :
    (s.shift o rcpts n).updateMsg f = (s.updateMsg f).shift o rcpts n := by
  have same : (s.env.msg.map (MsgEnv.shift o)).map f = (s.env.msg.map f).map (MsgEnv.shift o) := by
    cases s.env.msg with
    | none => rfl
    | some m => exact congrArg some (own m)
  simp only [updateMsg, shift, Env.shift, same]

theorem inspectBody_shift (b : Backend) (w : World) :
    (s.shift o rcpts n).inspectBody b w = ((s.inspectBody b w).1.shift o rcpts n, (s.inspectBody b w).2) := by
  have walked : (s.shift o rcpts n).updateMsg (fun m =>
      { m with mimePartCount := (w.walk b.attach.includeInline).partCount
               attachments := (w.walk b.attach.includeInline).parts }) = _ := updateMsg_shift _ fun _ => rfl
  have rules : (s.shift o rcpts n).rules = s.rules := rfl
  unfold inspectBody
  dsimp only
  rw [walked, rules]
  split
  · rfl
  split
  · rfl
  split
  · rfl
  split <;> rfl

theorem verifyDKIM_shift (b : Backend) (w : World) :
    (s.shift o rcpts n).verifyDKIM b w = (s.verifyDKIM b w).shift o rcpts n := by
  unfold verifyDKIM
  cases w.verifyDKIM (b.msgAuth.elim 0 MsgAuth.maxDKIMSignatures) with
  | none => rfl
  | some dkim => exact updateMsg_shift (s := { s with dkim }) _ fun _ => rfl

theorem looped_shift (b : Backend) : (s.shift o rcpts n).looped b = s.looped b := by
  have hops : (s.shift o rcpts n).env.msg.elim 0 MsgEnv.receivedCount = s.env.msg.elim 0 MsgEnv.receivedCount := by
    simp only [shift, Env.shift]
    cases s.env.msg <;> rfl
  simp only [looped, hops]

theorem foldl_setTag_shift (o : Shift) (tags : Tags) (e : Env) :
    tags.foldl (fun e tag => e.setTag tag.1 tag.2) (e.shift o) = (tags.foldl (fun e tag => e.setTag tag.1 tag.2) e).shift o := by
  induction tags generalizing e with
  | nil => rfl
  | cons tag rest ih => exact ih (e.setTag tag.1 tag.2)

theorem dataEnvFor_shift {rs : RcptState} {index : Nat} (at_ : o'.At o rs.index index) :
    (s.shift o rcpts n).dataEnvFor { rs with index } = (s.dataEnvFor rs).shift o' := by
  let renv := s.env.forRcpt { toAddr := rs.addr, index := rs.index, countSoFar := (rs.index : Int) - 1 }
  have moved : { (s.shift o rcpts n).env.forRcpt { toAddr := rs.addr, index, countSoFar := (index : Int) - 1 } with
      stage := .data } = Env.shift o' { renv with stage := .data } := by
    have message : MsgEnv.shift o' = MsgEnv.shift o := by
      funext m
      simp only [MsgEnv.shift, at_.rcptCount, at_.rcptDomains]
    simp only [shift, Env.forRcpt, Env.shift, renv, Option.map_some, at_.index, at_.countSoFar, message]
  have tagged := foldl_setTag_shift o' rs.tags { renv with stage := .data }
  rw [← moved] at tagged
  exact tagged

variable [AuthTexts]

theorem evaluateDMARC_shift (w : World) :
    (s.shift o rcpts n).evaluateDMARC w = (s.evaluateDMARC w).shift o rcpts n := by
  have headers : (s.shift o rcpts n).env.msg.elim [] MsgEnv.headers = s.env.msg.elim [] MsgEnv.headers := by
    simp only [shift, Env.shift]
    cases s.env.msg <;> rfl
  have spf : (s.shift o rcpts n).spf = s.spf := rfl
  have dkim : (s.shift o rcpts n).dkim = s.dkim := rfl
  unfold evaluateDMARC
  dsimp only
  rw [headers, spf, dkim]
  generalize w.evaluateDMARC _ s.spf s.dkim = dmarc
  exact updateMsg_shift (s := { s with dmarc }) _ fun _ => rfl

theorem inspectMsgAuth_shift (b : Backend) (w : World) :
    (s.shift o rcpts n).inspectMsgAuth b w = (s.inspectMsgAuth b w).shift o rcpts n := by
  have rules (s : Session) : (s.shift o rcpts n).rules = s.rules := rfl
  have dkim : (if b.wantDKIM s.rules then (s.shift o rcpts n).verifyDKIM b w else s.shift o rcpts n) =
      (if b.wantDKIM s.rules then s.verifyDKIM b w else s).shift o rcpts n := by
    split
    · exact verifyDKIM_shift b w
    · rfl
  unfold inspectMsgAuth wantsMsgAuth
  dsimp only
  simp only [rules]
  split
  · rfl
  · rw [dkim]
    generalize (if b.wantDKIM s.rules then s.verifyDKIM b w else s) = s₁
    simp only [rules]
    split
    · rw [evaluateDMARC_shift]
      rfl
    · rfl

theorem inspected_rules (b : Backend) (w : World) : ((s.inspectBody b w).1.inspectMsgAuth b w).rules = s.rules := by
  have body := (inspectBody_facts b w s).1.rules
  have auth := (inspectMsgAuth_facts b w (s.inspectBody b w).1).1.rules
  exact auth.trans body

end Facts

section Recipients
variable [Text.LowerCase]

def receive (s : Session) (toAddr : Name) (opts : Option RcptOptions) : Except Reply RcptState :=
  if !s.haveMail then .error needMail
  else
    match s.rcptPolicy (s.rcptEnv toAddr) (s.namedRcpt toAddr opts) with
    | (_, .error reply) => .error reply
    | (renv, .ok st) => s.bindRoute renv st

theorem rcpt_receive (s : Session) (toAddr : Name) (opts : Option RcptOptions) :
    s.rcpt {} toAddr opts = match s.receive toAddr opts with
      | .error reply => (s, some reply)
      | .ok st => ({ s with rcpts := s.rcpts ++ [st], rcptAccept := s.rcptAccept + 1 }, none) := by
  unfold rcpt receive
  cases s.haveMail with
  | false => rfl
  | true =>
    simp only [Bool.not_true, Bool.false_eq_true, ite_false, World.checkRcptRate]
    rcases s.rcptPolicy (s.rcptEnv toAddr) (s.namedRcpt toAddr opts) with ⟨renv, reply | st⟩
    · rfl
    · cases bound : s.bindRoute renv st <;> simp only [bound]

def nameAll : List (Name × Option RcptOptions) → Session → Session
  | [], s => s
  | (toAddr, opts) :: rest, s => nameAll rest (s.rcpt {} toAddr opts).1

theorem nameAll_others (named : List (Name × Option RcptOptions)) (s : Session) :
    ∃ rcpts n, s.nameAll named = { s with rcpts, rcptAccept := n } := by
  induction named generalizing s with
  | nil => exact ⟨s.rcpts, s.rcptAccept, rfl⟩
  | cons r rest ih =>
    obtain ⟨toAddr, opts⟩ := r
    obtain ⟨rcpts, n, rest'⟩ := ih (s.rcpt {} toAddr opts).1
    apply Exists.intro rcpts
    apply Exists.intro n
    have one := s.rcpt_receive toAddr opts
    unfold nameAll
    rw [rest', one]
    cases s.receive toAddr opts <;> rfl

theorem mem_nameAll {st : RcptState} (named : List (Name × Option RcptOptions)) {s : Session} (member : st ∈ s.rcpts) :
    st ∈ (s.nameAll named).rcpts := by
  induction named generalizing s with
  | nil => exact member
  | cons r rest ih =>
    obtain ⟨toAddr, opts⟩ := r
    apply ih
    rw [rcpt_receive]
    cases s.receive toAddr opts with
    | error reply => exact member
    | ok st' => exact List.mem_append_left _ member

theorem nameAll_append (before after : List (Name × Option RcptOptions)) (s : Session) :
    s.nameAll (before ++ after) = (s.nameAll before).nameAll after := by
  induction before generalizing s with
  | nil => rfl
  | cons r rest ih => exact ih _

theorem received_mem {before after : List (Name × Option RcptOptions)} {toAddr : Name} {opts : Option RcptOptions}
    {st : RcptState} {s : Session} (received : (s.nameAll before).receive toAddr opts = .ok st) :
    st ∈ (s.nameAll (before ++ (toAddr, opts) :: after)).rcpts := by
  rw [nameAll_append]
  unfold nameAll
  apply mem_nameAll
  rw [rcpt_receive, received]
  exact List.mem_append_right _ (List.mem_singleton_self st)

variable {o o' : Shift} {rcpts : List RcptState} {n : Nat} {s : Session}

theorem arrive_others (scan : Scan) :
    ∃ o, Session.arrive { s with rcpts, rcptAccept := n } scan = (s.arrive scan).among o rcpts n := by
  apply Exists.intro { s.env.others with rcptCount := rcpts.length
                                         rcptDomains := Session.rcptDomains { s with rcpts, rcptAccept := n } }
  simp only [arrive, among, Env.among, Env.others]
  cases s.env.rcpt <;> rfl

theorem policyPass_shift (stage : Stage) (unmoved : ∀ rs ∈ s.rules, rs.Unmoved o) :
    (s.shift o rcpts n).policyPass stage = ((s.policyPass stage).1.shift o rcpts n, (s.policyPass stage).2) := by
  have walked := evalPolicyOf_shift o { s.env with stage } stage false unmoved
  unfold policyPass evalPolicy
  dsimp only
  rw [show { (s.shift o rcpts n).env with stage } = Env.shift o { s.env with stage } from rfl,
    show (s.shift o rcpts n).rules = s.rules from rfl, walked]
  rfl

theorem dataVerdict_shift (unmoved : ∀ rs ∈ s.rules, rs.Unmoved o) :
    (s.shift o rcpts n).dataVerdict = (s.dataVerdict.1.shift o rcpts n, s.dataVerdict.2) := by
  have accepted : (s.shift o rcpts n).accepted = s.accepted := rfl
  unfold dataVerdict
  rw [accepted, policyPass_shift .data unmoved]
  split <;> rfl

theorem dataPolicy_shift {rs : RcptState} {index : Nat} (at_ : o'.At o rs.index index) (drop : Option Drop)
    (unmoved : ∀ rs ∈ s.rules, rs.Unmoved o') :
    (s.shift o rcpts n).dataPolicy { rs with index } drop =
      ((s.dataPolicy rs drop).1.shift o', (s.dataPolicy rs drop).2) := by
  have accepted : (s.shift o rcpts n).accepted = s.accepted := rfl
  have rules : (s.shift o rcpts n).rules = s.rules := rfl
  unfold dataPolicy
  rw [accepted, dataEnvFor_shift at_]
  split
  · rfl
  · unfold evalPolicyRcpt
    rw [rules, evalPolicyOf_shift _ _ _ _ unmoved]
    rfl

theorem dataRoute_shift (rs : RcptState) (index : Nat) (renv : Env) (unmoved : ∀ rs ∈ s.rules, rs.Unmoved o') :
    (s.shift o rcpts n).dataRoute { rs with index } (renv.shift o') =
      ((s.dataRoute rs renv).1.shift o', (s.dataRoute rs renv).2) := by
  unfold dataRoute
  dsimp only
  cases rs.decision with
  | some d => rfl
  | none => exact route_shift o' renv .data unmoved

theorem settle_shift {rs : RcptState} {index : Nat} (at_ : o'.At o rs.index index) (msgDrop : Option Drop)
    (unmoved : ∀ rs ∈ s.rules, rs.Unmoved o') :
    (s.shift o rcpts n).settle msgDrop { rs with index } = s.settle msgDrop rs := by
  unfold settle
  dsimp only
  rw [dataPolicy_shift at_ _ unmoved]
  split
  · rfl
  · rcases s.dataPolicy rs (msgDrop.or rs.drop) with ⟨renv, headers, fate | drop⟩
    · rfl
    · dsimp only
      rw [dataRoute_shift _ _ _ unmoved]
      rfl

theorem rcptPolicy_shift (renv : Env) (st : RcptState) (index : Nat) (unmoved : ∀ rs ∈ s.rules, rs.Unmoved o') :
    (s.shift o rcpts n).rcptPolicy (renv.shift o') { st with index } =
      ((s.rcptPolicy renv st).1.shift o', (s.rcptPolicy renv st).2.map fun st => { st with index }) := by
  have accepted : (s.shift o rcpts n).accepted = s.accepted := rfl
  have rules : (s.shift o rcpts n).rules = s.rules := rfl
  unfold rcptPolicy
  rw [accepted]
  split
  · rfl
  · unfold evalPolicyRcpt
    rw [rules, evalPolicyOf_shift _ _ _ _ unmoved]
    rcases evalPolicyOf s.rules renv .rcpt true with ⟨renv', res⟩
    dsimp only
    cases res.action with
    | none => rfl
    | some a => cases terminal : rcptTerminal a <;> simp [terminal, Except.map]

theorem bindRoute_shift (renv : Env) (st : RcptState) (index : Nat) (unmoved : ∀ rs ∈ s.rules, rs.Unmoved o') :
    (s.shift o rcpts n).bindRoute (renv.shift o') { st with index } =
      (s.bindRoute renv st).map fun st => { st with index } := by
  have rules : (s.shift o rcpts n).rules = s.rules := rfl
  unfold bindRoute
  rw [rules, route_shift o' renv .rcpt unmoved]
  rcases route s.rules renv .rcpt with ⟨renv', decision⟩
  cases decision with
  | none => rfl
  | some d =>
    dsimp only
    split
    · cases terminal : rcptTerminal d.action <;> simp [Except.map, Env.shift]
    · rfl

/-- A recipient is received or turned away whoever was named before it, unless a condition sees its place. -/
theorem receive_others (toAddr : Name) (opts : Option RcptOptions)
    (unmoved : ∀ rs ∈ s.rules, rs.Unmoved { index := fun _ => (rcpts.length + 1 : Nat), countSoFar := fun _ => n }) :
    Session.receive { s with rcpts, rcptAccept := n } toAddr opts =
      (s.receive toAddr opts).map fun st => { st with index := rcpts.length + 1 } := by
  have others : { s with rcpts, rcptAccept := n } = s.shift {} rcpts n := by simp [shift]
  have env : (s.shift {} rcpts n).rcptEnv toAddr =
      (s.rcptEnv toAddr).shift { index := fun _ => (rcpts.length + 1 : Nat), countSoFar := fun _ => n } := by
    rw [← others]
    simp only [rcptEnv, Env.forRcpt, Env.shift]
    cases s.env.msg <;> rfl
  have named : (s.shift {} rcpts n).namedRcpt toAddr opts = { s.namedRcpt toAddr opts with index := rcpts.length + 1 } := rfl
  have haveMail : (s.shift {} rcpts n).haveMail = s.haveMail := rfl
  rw [others]
  unfold receive
  rw [haveMail]
  split
  · rfl
  · rw [env, named, rcptPolicy_shift _ _ _ unmoved]
    rcases s.rcptPolicy (s.rcptEnv toAddr) (s.namedRcpt toAddr opts) with ⟨renv, reply | st⟩
    · rfl
    · exact bindRoute_shift renv st _ unmoved

variable [AuthTexts] [CaseFolding]

def examine (b : Backend) (w : World) (s : Session) : Session × Except Reply (Option Drop) :=
  if s.looped b then (s, .error (smtpError routingLoop))
  else
    let (s, inspected) := s.inspectBody b w
    let s := s.inspectMsgAuth b w
    match s.dataVerdict with
    | (s, .error a) => (s, .error (smtpError a))
    | (s, .ok msgDrop) => (s, (s.attachVerdict b inspected msgDrop).mapError smtpError)

theorem judge_examine (b : Backend) (w : World) (bodyName : Name) (scan : Scan) (s : Session) :
    s.judge b w bodyName scan = match (s.arrive scan).examine b w with
      | (s', .error reply) => (s', .refused reply)
      | (s', .ok msgDrop) => (s', .sorted (s'.split bodyName scan.size w.now msgDrop)) := by
  unfold judge examine
  dsimp only
  split
  · rfl
  · rcases (((s.arrive scan).inspectBody b w).1.inspectMsgAuth b w).dataVerdict with ⟨s', a | msgDrop⟩
    · rfl
    · dsimp only
      cases s'.attachVerdict b ((s.arrive scan).inspectBody b w).2 msgDrop <;> rfl

theorem examine_keeps (b : Backend) (w : World) (s : Session) : Keeps s (s.examine b w).1 := by
  have body := (inspectBody_facts b w s).1
  have auth := (inspectMsgAuth_facts b w (s.inspectBody b w).1).1
  have verdict := (dataVerdict_facts ((s.inspectBody b w).1.inspectMsgAuth b w)).1
  have whole := body.trans (auth.trans verdict)
  unfold examine
  split
  · exact .refl s
  · dsimp only
    split
    · rename_i walked
      rwa [walked] at whole
    · rename_i walked
      rwa [walked] at whole

/-- The verdict on the message does not depend on who the recipients are. -/
theorem examine_shift (b : Backend) (w : World) (unmoved : ∀ rs ∈ s.rules, rs.Unmoved o) :
    (s.shift o rcpts n).examine b w = ((s.examine b w).1.shift o rcpts n, (s.examine b w).2) := by
  have walked : ∀ rs ∈ ((s.inspectBody b w).1.inspectMsgAuth b w).rules, rs.Unmoved o := by
    rw [inspected_rules]
    exact unmoved
  unfold examine
  rw [looped_shift]
  split
  · rfl
  · simp only [inspectBody_shift, inspectMsgAuth_shift, dataVerdict_shift walked]
    rcases ((s.inspectBody b w).1.inspectMsgAuth b w).dataVerdict with ⟨s', a | msgDrop⟩
    · rfl
    · rfl

/-- What becomes of a recipient: it is turned away, the whole message is refused, or its evaluation
    comes to an end. -/
inductive Outcome where
  | turnedAway (reply : Reply)
  | refused (reply : Reply)
  | settled (fate : Fate)
  deriving DecidableEq

def outcome (b : Backend) (w : World) (scan : Scan) (s : Session) (before : List (Name × Option RcptOptions))
    (r : Name × Option RcptOptions) (after : List (Name × Option RcptOptions)) : Outcome :=
  match (s.nameAll before).receive r.1 r.2 with
  | .error reply => .turnedAway reply
  | .ok st =>
    match ((s.nameAll (before ++ r :: after)).arrive scan).examine b w with
    | (_, .error reply) => .refused reply
    | (s', .ok msgDrop) => .settled (s'.settle msgDrop st)

theorem judge_of_outcome (b : Backend) (w : World) (bodyName : Name) (scan : Scan) (s : Session)
    (before : List (Name × Option RcptOptions)) (r : Name × Option RcptOptions)
    (after : List (Name × Option RcptOptions)) :
    match s.outcome b w scan before r after with
    | .turnedAway reply => ((s.nameAll before).rcpt {} r.1 r.2).2 = some reply
    | .refused reply => ((s.nameAll (before ++ r :: after)).judge b w bodyName scan).2 = .refused reply
    | .settled fate => ∃ s' msgDrop st, st ∈ s'.rcpts ∧ s'.settle msgDrop st = fate ∧
      (s.nameAll (before ++ r :: after)).judge b w bodyName scan =
        (s', .sorted (s'.split bodyName scan.size w.now msgDrop)) := by
  have named := (s.nameAll before).rcpt_receive r.1 r.2
  have judged := (s.nameAll (before ++ r :: after)).judge_examine b w bodyName scan
  have keeps := examine_keeps b w ((s.nameAll (before ++ r :: after)).arrive scan)
  unfold outcome
  cases received : (s.nameAll before).receive r.1 r.2 with
  | error reply =>
    rw [received] at named
    dsimp only
    rw [named]
  | ok st =>
    dsimp only
    have member : st ∈ ((s.nameAll (before ++ r :: after)).arrive scan).rcpts := received_mem received
    rcases examined : ((s.nameAll (before ++ r :: after)).arrive scan).examine b w with ⟨s', reply | msgDrop⟩
    · rw [examined] at judged
      dsimp only
      rw [judged]
    · rw [examined] at judged keeps
      rw [← keeps.rcpts] at member
      exact ⟨s', msgDrop, st, member, rfl, judged⟩

/-- What becomes of a recipient is what becomes of it alone. -/
theorem outcome_alone (b : Backend) (w : World) (scan : Scan) (before after : List (Name × Option RcptOptions))
    (r : Name × Option RcptOptions) (blind : ∀ rs ∈ s.rules, rs.Blind) :
    s.outcome b w scan before r after = match s.receive r.1 r.2 with
      | .error reply => .turnedAway reply
      | .ok st => match (s.arrive scan).examine b w with
        | (_, .error reply) => .refused reply
        | (s', .ok msgDrop) => .settled (s'.settle msgDrop st) := by
  obtain ⟨rcpts, n, first⟩ := s.nameAll_others before
  obtain ⟨rcpts', n', all⟩ := s.nameAll_others (before ++ r :: after)
  obtain ⟨o, arrived⟩ : ∃ o, Session.arrive { s with rcpts := rcpts', rcptAccept := n' } scan = _ := s.arrive_others scan
  unfold outcome
  rw [first, receive_others _ _ fun rs member => (blind rs member).unmoved _]
  cases s.receive r.1 r.2 with
  | error reply => rfl
  | ok st =>
    dsimp only [Except.map]
    have verdict : ((s.arrive scan).shift o.shift rcpts' n').examine b w = _ :=
      examine_shift b w fun rs member => (blind rs member).unmoved _
    rw [all, arrived, among_eq_shift, verdict]
    have still := (examine_keeps b w (s.arrive scan)).rules
    rcases examined : (s.arrive scan).examine b w with ⟨s', reply | msgDrop⟩
    · rfl
    · rw [examined] at still
      replace still : s'.rules = s.rules := still
      rw [← still] at blind
      have place : Shift.At { o.shift with index := fun _ => (rcpts.length + 1 : Nat)
                                           countSoFar := fun _ => ((rcpts.length + 1 : Nat) : Int) - 1 }
          o.shift st.index (rcpts.length + 1) := ⟨rfl, rfl, rfl, rfl⟩
      exact congrArg Outcome.settled (settle_shift place msgDrop fun rs member => (blind rs member).unmoved _)

/-- Under rules that read nothing about other recipients, a recipient ends the same way whoever else is
    named before it and after it. -/
theorem recipients_isolated (b : Backend) (w : World) (scan : Scan) (s : Session) (blind : ∀ rs ∈ s.rules, rs.Blind)
    (r : Name × Option RcptOptions) (before after before' after' : List (Name × Option RcptOptions)) :
    s.outcome b w scan before r after = s.outcome b w scan before' r after' := by
  rw [outcome_alone b w scan before after r blind, outcome_alone b w scan before' after' r blind]

end Recipients

end Session

section Sample

open Ascii

def holding : Rules.File where
  policy := [
    { name := "mark".toList
      pred := .field { field := "rcpt.to".toList, op := some .eq, value := some (.str "one@example.com".toList) }
      actions := [.tag "held".toList "yes".toList, .addHeader "X-Held".toList "yes".toList] },
    { name := "hold".toList, stage := "rcpt".toList, priority := 1
      pred := .field { field := "tag.held".toList, op := some .present }
      actions := [.quarantine] }]
  routes := [{ name := "out".toList, pred := .always true, actions := [.relay "out".toList] }]

def plainGateway : Backend := { hostname := "mx.example.com".toList }

def oneOf (text : String) : Name × Option RcptOptions := (text.toList, none)

def heldOut : Session.Outcome :=
  .settled (.relayed { group := "out".toList, quarantine := true, headers := [⟨"X-Held".toList, "yes".toList⟩] }
    [("held".toList, "yes".toList)]
    { addr := "one@example.com".toList, rule := "out".toList, orcpt := [], orcptType := [], notify := [] })

theorem recipients_isolated_sample : ∃ s : Session, s.rules.isSome = true ∧
    s.outcome plainGateway {} Conversation.emptyBody [oneOf "two@example.com"] (oneOf "one@example.com") [] = heldOut ∧
    s.outcome plainGateway {} Conversation.emptyBody [] (oneOf "one@example.com") [oneOf "three@example.com"] = heldOut := by
  have held : (Conversation.talk plainGateway holding [.mail {} "sender@example.com".toList none]).any (fun c =>
      decide (∀ f ∈ c.session.rules.elim [] Ruleset.fieldsUsed, f.ofOthers = false) && c.session.rules.isSome &&
        decide (c.session.outcome plainGateway {} Conversation.emptyBody [oneOf "two@example.com"]
          (oneOf "one@example.com") [] = heldOut)) = true := by decide +kernel
  obtain ⟨c, _, facts⟩ := (Option.any_eq_true _ _).mp held
  simp only [Bool.and_eq_true, decide_eq_true_eq] at facts
  obtain ⟨⟨read, some_⟩, first⟩ := facts
  have blind : ∀ rs ∈ c.session.rules, rs.Blind := by
    intro rs member
    rw [member] at read
    exact read
  apply Exists.intro c.session
  apply And.intro some_
  apply And.intro first
  rw [← first]
  exact Session.recipients_isolated plainGateway {} _ c.session blind _ [] _ _ []

end Sample

end Mailgw.Smtp
