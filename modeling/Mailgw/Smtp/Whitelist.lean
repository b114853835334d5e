import Mailgw.Smtp.Conversation

namespace Mailgw.Smtp

open Queue Rules Calls

def withholds (drop : Option Drop) : Action → Bool
  | .reject _ _ _ | .tempfail _ _ _ | .discard => true
  | .quarantine => drop ≠ some .quarantine
  | _ => false

section Verdicts
variable [Text.LowerCase]

namespace Session

def dataRcptAction (s : Session) (rs : RcptState) : Option Action :=
  (evalPolicyRcpt s.rules (s.dataEnvFor rs) .data).2.action

/-- Recipient-scoped rules leave a recipient alone when their walk does not end in an action that
    keeps it back. -/
theorem dataPolicy_lets_iff {s : Session} (open_ : s.accepted = false) (rs : RcptState) (drop : Option Drop) :
    (s.dataPolicy rs drop).2.2 = .ok drop ↔ ∀ a, s.dataRcptAction rs = some a → withholds drop a = false := by
  simp only [dataPolicy, dataRcptAction, open_, Bool.false_eq_true, ite_false]
  rcases evalPolicyRcpt s.rules (s.dataEnvFor rs) .data with ⟨renv, res⟩
  rcases res.action with _ | a
  · simp
  · cases a with
    | quarantine =>
      simp only [withholds, Except.ok.injEq, Option.some.injEq, forall_eq', ne_eq, decide_eq_false_iff_not, not_not]
      exact eq_comm
    | _ => simp [withholds]

variable [CaseFolding]

omit [Text.LowerCase] in
theorem attachVerdict_lets_iff {b : Backend} {s : Session} (open_ : s.accepted = false) (inspected : AttachOutcome)
    (msgDrop : Option Drop) :
    s.attachVerdict b inspected msgDrop = .ok msgDrop ↔
      (msgDrop = none → ∀ a, b.attach.attachAction inspected = some a → withholds none a = false) := by
  cases msgDrop with
  | some drop => simp [attachVerdict]
  | none =>
    simp only [attachVerdict, open_, Option.isSome_none, Bool.or_self, Bool.false_eq_true, ite_false]
    rcases b.attach.attachAction inspected with _ | a
    · simp
    · cases a <;> simp [withholds]

variable [AuthTexts]

omit [CaseFolding] in
theorem inspect_keeps (b : Backend) (w : World) (scan : Scan) (s : Session) : Keeps s (s.inspect b w scan).1 := by
  have body := (inspectBody_facts b w (s.arrive scan)).1
  have auth := (inspectMsgAuth_facts b w ((s.arrive scan).inspectBody b w).1).1
  exact (s.arrive_keeps scan).trans (body.trans auth)

def dataAction (b : Backend) (w : World) (scan : Scan) (s : Session) : Option Action :=
  let inspected := (s.inspect b w scan).1
  if (s.arrive scan).looped b || inspected.accepted then none else (inspected.policyPass .data).2.action

/-- Neither a policy rule at DATA nor the scanner's verdict changes what becomes of the message or
    of a recipient. -/
def LetThrough (b : Backend) (w : World) (scan : Scan) (s : Session) : Prop :=
  ∃ s', (s.inspect b w scan).1.dataVerdict = (s', .ok s.msgDrop) ∧
    s'.attachVerdict b (s.inspect b w scan).2 s.msgDrop = .ok s.msgDrop ∧
    ∀ rs ∈ s.rcpts, s.msgDrop.or rs.drop ≠ some .discard →
      (s'.dataPolicy rs (s.msgDrop.or rs.drop)).2.2 = .ok (s.msgDrop.or rs.drop)

/-- The scanner's verdict has no action of its own, or the message is dropped already, and no
    recipient-scoped rule at DATA keeps a recipient back. -/
def Unopposed (b : Backend) (w : World) (scan : Scan) (s : Session) : Prop :=
  (s.msgDrop = none → ∀ a, b.attach.attachAction (s.inspect b w scan).2 = some a → withholds none a = false) ∧
    ∀ rs ∈ s.rcpts, s.msgDrop.or rs.drop ≠ some .discard → ∀ a,
      (s.inspect b w scan).1.dataVerdict.1.dataRcptAction rs = some a → withholds (s.msgDrop.or rs.drop) a = false

theorem letThrough_of_accepted {b : Backend} {w : World} {scan : Scan} {s : Session} (heard : s.accepted = true) :
    s.LetThrough b w scan := by
  have keeps := s.inspect_keeps b w scan
  have still : (s.inspect b w scan).1.accepted = true := keeps.accepted.trans heard
  refine ⟨(s.inspect b w scan).1, ?_, ?_, ?_⟩
  · simp [dataVerdict, still, keeps.msgDrop]
  · simp [attachVerdict, still]
  · intro rs _ _
    simp [dataPolicy, still]

/-- An accept at DATA ends the walk it stands in, and that is all. -/
theorem letThrough_iff_of_dataAction {b : Backend} {w : World} {scan : Scan} {s : Session}
    (accepts : s.dataAction b w scan = some .accept) : s.LetThrough b w scan ↔ s.Unopposed b w scan := by
  have keeps := s.inspect_keeps b w scan
  simp only [dataAction, Option.ite_none_left_eq_some] at accepts
  obtain ⟨walked, action⟩ := accepts
  simp only [Bool.or_eq_true, not_or, Bool.not_eq_true] at walked
  have verdict : (s.inspect b w scan).1.dataVerdict = ((s.inspect b w scan).1.dataVerdict.1, .ok s.msgDrop) := by
    have after := (s.inspect b w scan).1.policyPass_session .data
    simp [dataVerdict, walked.2, action, after, keeps.msgDrop]
  have open_ : (s.inspect b w scan).1.dataVerdict.1.accepted = false :=
    (dataVerdict_facts _).1.accepted.trans walked.2
  unfold LetThrough Unopposed
  constructor
  · rintro ⟨s', same, attach, policy⟩
    rw [verdict] at same
    cases same
    refine ⟨(attachVerdict_lets_iff open_ _ _).mp attach, ?_⟩
    intro rs member kept
    exact (dataPolicy_lets_iff open_ _ _).mp (policy rs member kept)
  · intro unopposed
    refine ⟨_, verdict, (attachVerdict_lets_iff open_ _ _).mpr unopposed.1, ?_⟩
    intro rs member kept
    exact (dataPolicy_lets_iff open_ _ _).mpr (unopposed.2 rs member kept)

theorem judge_of_letThrough {b : Backend} {w : World} {bodyName : Name} {scan : Scan} {s : Session}
    (through : s.LetThrough b w scan) (few : (s.arrive scan).looped b = false) :
    ∃ s', s.judge b w bodyName scan = (s', .sorted (s'.split bodyName scan.size w.now s.msgDrop)) := by
  obtain ⟨s', verdict, attach, -⟩ := through
  refine ⟨s', ?_⟩
  simp only [inspect] at verdict attach
  simp only [judge, few, Bool.false_eq_true, ite_false, verdict, attach]

omit [CaseFolding] [AuthTexts] in
theorem mail_heard (b : Backend) (w : World) (fromAddr : Name) (opts : Option MailOptions) {s : Session}
    (heard : s.connAccept = true) :
    (s.mail b w fromAddr opts).2 = w.checkMailRate fromAddr s.authUser ∧
      (s.mail b w fromAddr opts).1.msgDrop = none := by
  have begun : (s.beginMail fromAddr opts).authUser = s.authUser ∧ (s.beginMail fromAddr opts).connAccept = s.connAccept ∧
      (s.beginMail fromAddr opts).msgDrop = none := ⟨rfl, rfl, rfl⟩
  have keeps := (checkSPF_keeps b w fromAddr (s.beginMail fromAddr opts)).1
  have still : ((s.beginMail fromAddr opts).checkSPF b w fromAddr).accepted = true := by
    simp [accepted, keeps.connAccept, begun, heard]
  simp only [mail, begun.1]
  cases w.checkMailRate fromAddr s.authUser with
  | some reply => exact ⟨rfl, rfl⟩
  | none => simp [still, keeps.msgDrop, begun]

end Session

namespace Conversation

variable [AuthTexts] [CaseFolding]

/-- Once a walk at connect, helo, MAIL or DATA has ended in an accept, no later policy rule and no
    verdict of the scanner refuses, drops or quarantines the message. -/
def Whitelists (b : Backend) (c : Conversation) : Command → Prop
  | .mail w fromAddr opts => c.connHeard = true →
    (c.session.mail b w fromAddr opts).2 = w.checkMailRate fromAddr c.session.authUser ∧
      (c.session.mail b w fromAddr opts).1.msgDrop = none
  | .rcpt _ _ _ => c.connHeard = true ∨ c.mailHeard = true →
    ∀ renv st, c.session.rcptPolicy renv st = (renv, .ok st)
  | .data w _ scan =>
    c.connHeard = true ∨ c.mailHeard = true ∨ c.session.dataAction b w scan = some .accept →
      c.session.LetThrough b w scan
  | _ => True

/-- The accept does not come at DATA, or nothing comes after it. -/
def Heeds (b : Backend) (c : Conversation) : Command → Prop
  | .data w _ scan => c.session.dataAction b w scan = some .accept → c.session.Unopposed b w scan
  | _ => True

theorem whitelists_iff {b : Backend} {c : Conversation} (recorded : Recorded c) (cmd : Command) :
    c.Whitelists b cmd ↔ c.Heeds b cmd := by
  have accepted : c.session.accepted = (c.connHeard || c.mailHeard) := by
    simp [Session.accepted, recorded.connHeard, recorded.mailHeard]
  cases cmd with
  | auth user mech => exact Iff.rfl
  | regreet hostname => exact Iff.rfl
  | reset => exact Iff.rfl
  | mail w fromAddr opts =>
    have whitelisted : c.Whitelists b (.mail w fromAddr opts) := by
      intro heard
      exact Session.mail_heard b w fromAddr opts (recorded.connHeard.trans heard)
    exact iff_of_true whitelisted trivial
  | rcpt w toAddr opts =>
    have whitelisted : c.Whitelists b (.rcpt w toAddr opts) := by
      intro heard renv st
      have still : c.session.accepted = true := by
        rw [accepted]
        simpa using heard
      simp [Session.rcptPolicy, still]
    exact iff_of_true whitelisted trivial
  | data w bodyName scan =>
    simp only [Whitelists, Heeds]
    constructor
    · intro whitelisted accepts
      exact (Session.letThrough_iff_of_dataAction accepts).mp (whitelisted (.inr (.inr accepts)))
    · intro heeds heard
      rcases heard with conn | txn | accepts
      · exact Session.letThrough_of_accepted (by rw [accepted, conn]; rfl)
      · exact Session.letThrough_of_accepted (by rw [accepted, txn, Bool.or_true])
      · exact (Session.letThrough_iff_of_dataAction accepts).mpr (heeds accepts)

/-- An accept of the greeting or of MAIL is a whitelist. An accept at DATA is one exactly when
    nothing comes after it. -/
theorem accept_whitelists_iff (b : Backend) (connUUID hostname : Name) (tls : Option TLSState) (conn : ConnEnv)
    (rules : Option Ruleset) :
    ((Session.initial connUUID hostname tls conn rules).greetAccepts [.connect, .helo] = true →
      ∃ c, greet connUUID hostname tls conn rules = .ok c) ∧
    ∀ c₀ c, greet connUUID hostname tls conn rules = .ok c₀ → Reachable (next b) (fun _ _ => True) c₀ c →
      ∀ cmd, c.Whitelists b cmd ↔ c.Heeds b cmd := by
  constructor
  · intro accepts
    have early : ∀ stage ∈ [Stage.connect, .helo], stage ≤ .helo := by decide
    obtain ⟨session, greeted⟩ := (Session.greetPolicy_facts _ _ early rfl).1 accepts
    simp [greet, greeted, Except.map]
  · intro c₀ c greeted run cmd
    exact whitelists_iff (recorded_run (recorded_greet greeted) run) cmd

end Conversation

end Verdicts

section Sample

open Ascii

def welcome (stage : String) : Rules.File where
  policy := [{ name := "welcome".toList, stage := stage.toList, pred := .always true, actions := [.accept] }]
  routes := [{ name := "out".toList, pred := .always true, actions := [.relay "out".toList] }]

def scanningBackend : Backend := { hostname := "mx.example.com".toList, scanning := true }

def blocking : World := { scan := fun _ => .ok .block }

namespace Conversation

def blocked (c : Conversation) : Bool :=
  decide (c.session.dataAction scanningBackend blocking emptyBody = some .accept) && c.session.msgDrop.isNone &&
    (scanningBackend.attach.attachAction (c.session.inspect scanningBackend blocking emptyBody).2).any (withholds none)

/-- A message that a rule has accepted at DATA is refused for its attachments. -/
theorem accepted_message_blocked : ∃ (rs : Ruleset) (c₀ c : Conversation), compile (welcome "data") none = .ok rs ∧
    greet "C".toList "client".toList none {} (some rs) = .ok c₀ ∧
    Reachable (next scanningBackend) (fun _ _ => True) c₀ c ∧
    ¬ c.Whitelists scanningBackend (.data blocking "C.1.eml".toList emptyBody) := by
  have ended : ((talk scanningBackend (welcome "data") toOne).any blocked) = true := by decide
  obtain ⟨c, talked, facts⟩ := (Option.any_eq_true _ _).mp ended
  obtain ⟨rs, c₀, compiled, greeted, run⟩ := talk_reached talked
  refine ⟨rs, c₀, c, compiled, greeted, run, ?_⟩
  simp only [blocked, Bool.and_eq_true, decide_eq_true_eq, Option.isNone_iff_eq_none] at facts
  obtain ⟨⟨accepts, kept⟩, held⟩ := facts
  obtain ⟨a, action, withheld⟩ := (Option.any_eq_true _ _).mp held
  intro whitelisted
  have heeds := (whitelists_iff (recorded_run (recorded_greet greeted) run) _).mp whitelisted accepts
  have open_ := heeds.1 kept a action
  rw [withheld] at open_
  cases open_

theorem accept_whitelists_sample : ∃ (rs : Ruleset) (c₀ c : Conversation), compile (welcome "mail") none = .ok rs ∧
    greet "C".toList "client".toList none {} (some rs) = .ok c₀ ∧ c.mailHeard = true ∧
    c.Whitelists scanningBackend (.data blocking "C.1.eml".toList emptyBody) := by
  have ended : ((talk scanningBackend (welcome "mail") toOne).any fun c => c.mailHeard &&
      decide (c.session.dataAction scanningBackend blocking emptyBody = none)) = true := by decide
  obtain ⟨c, talked, facts⟩ := (Option.any_eq_true _ _).mp ended
  obtain ⟨rs, c₀, compiled, greeted, run⟩ := talk_reached talked
  simp only [Bool.and_eq_true, decide_eq_true_eq] at facts
  refine ⟨rs, c₀, c, compiled, greeted, facts.1, ?_⟩
  apply ((accept_whitelists_iff scanningBackend _ _ _ _ _).2 c₀ c greeted run _).mpr
  intro accepts
  rw [facts.2] at accepts
  cases accepts

end Conversation

end Sample

end Mailgw.Smtp
