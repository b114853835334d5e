import Mailgw.Smtp.Conversation

namespace Mailgw.Smtp

open Queue Rules Calls

namespace Session

/-- The session a client would get that greeted anew under the name it now goes by. -/
def anew (s : Session) : Session := initial s.connUUID s.hostname s.tls (s.env.conn.getD {}) s.rules

section Facts

theorem checkSPF_anew (b : Backend) (w : World) (fromAddr : Name) (s : Session) :
    (s.checkSPF b w fromAddr).anew = s.anew := by
  unfold checkSPF
  split <;> rfl

theorem applyTerminal_anew (s : Session) (stage : Stage) (action : Option Action) :
    (s.applyTerminal stage action).1.anew = s.anew := by
  unfold applyTerminal
  split <;> first | rfl | (split <;> rfl)

theorem inspectBody_anew (b : Backend) (w : World) (s : Session) : (s.inspectBody b w).1.anew = s.anew := by
  unfold inspectBody
  dsimp only
  split
  · rfl
  split
  · rfl
  split
  · rfl
  split <;> rfl

theorem verifyDKIM_anew (b : Backend) (w : World) (s : Session) : (s.verifyDKIM b w).anew = s.anew := by
  unfold verifyDKIM
  split <;> rfl

theorem inspectMsgAuth_anew [AuthTexts] (b : Backend) (w : World) (s : Session) :
    (s.inspectMsgAuth b w).anew = s.anew := by
  unfold inspectMsgAuth
  split
  · rfl
  have dkim : (if b.wantDKIM s.rules then s.verifyDKIM b w else s).anew = s.anew := by
    split
    · exact verifyDKIM_anew b w s
    · rfl
  generalize (if b.wantDKIM s.rules then s.verifyDKIM b w else s) = s₁ at dkim ⊢
  have dmarc : (if b.wantDMARC s₁.rules then s₁.evaluateDMARC w else s₁).anew = s₁.anew := by
    split <;> rfl
  exact dmarc.trans dkim

variable [Text.LowerCase]

theorem policyPass_anew (s : Session) (stage : Stage) : (s.policyPass stage).1.anew = s.anew := by
  rw [policyPass_session]
  rfl

theorem greetPolicy_anew {stages : List Stage} {s s' : Session} (greeted : s.greetPolicy stages = .ok s') :
    s'.anew = s.anew := by
  induction stages generalizing s with
  | nil =>
    cases greeted
    rfl
  | cons stage rest ih =>
    unfold greetPolicy at greeted
    split at greeted
    · cases greeted
      rfl
    · have walked := s.policyPass_anew stage
      rcases walk : s.policyPass stage with ⟨s₁, res⟩
      rw [walk] at walked greeted
      dsimp only at walked greeted
      split at greeted
      · cases greeted
      · rename_i after heard
        have ended := applyTerminal_anew { s₁ with connHeaders := s₁.connHeaders ++ res.headers } stage res.action
        rw [heard] at ended
        have rest' := ih greeted
        exact rest'.trans (ended.trans walked)

theorem mail_anew (b : Backend) (w : World) (fromAddr : Name) (opts : Option MailOptions) (s : Session) :
    (s.mail b w fromAddr opts).1.anew = s.anew := by
  have spf := checkSPF_anew b w fromAddr (s.beginMail fromAddr opts)
  unfold mail
  dsimp only
  split
  · rfl
  split
  · exact spf
  · have walked := policyPass_anew ((s.beginMail fromAddr opts).checkSPF b w fromAddr) .mail
    rcases walk : ((s.beginMail fromAddr opts).checkSPF b w fromAddr).policyPass .mail with ⟨s₁, res⟩
    rw [walk] at walked
    have ended := applyTerminal_anew { s₁ with txnHeaders := s₁.txnHeaders ++ res.headers } .mail res.action
    exact ended.trans (walked.trans spf)

theorem rcpt_anew (w : World) (toAddr : Name) (opts : Option RcptOptions) (s : Session) :
    (s.rcpt w toAddr opts).1.anew = s.anew := by
  rcases step : s.rcpt w toAddr opts with ⟨s', reply⟩
  rcases rcpt_facts step with ⟨-, rfl⟩ | ⟨-, st, rfl, -⟩
  · rfl
  · rfl

theorem dataVerdict_anew (s : Session) : s.dataVerdict.1.anew = s.anew := by
  have walked := s.policyPass_anew .data
  unfold dataVerdict
  split
  · rfl
  · exact walked

theorem judge_anew [AuthTexts] [CaseFolding] (b : Backend) (w : World) (bodyName : Name) (scan : Scan) (s : Session) :
    (s.judge b w bodyName scan).1.anew = s.anew := by
  unfold judge
  dsimp only
  split
  · rfl
  · have body := inspectBody_anew b w (s.arrive scan)
    have auth := inspectMsgAuth_anew b w ((s.arrive scan).inspectBody b w).1
    have verdict := dataVerdict_anew (((s.arrive scan).inspectBody b w).1.inspectMsgAuth b w)
    have whole := verdict.trans (auth.trans body)
    split
    · rename_i walked
      rwa [walked] at whole
    · rename_i walked
      rw [walked] at whole
      split <;> exact whole

end Facts

section Policy
variable [Text.LowerCase]

def unwelcome (s : Session) : Bool :=
  match s.anew.greetPolicy [.connect, .helo] with
  | .ok _ => false
  | .error _ => true

theorem unwelcome_congr {s s' : Session} (same : s'.anew = s.anew) : s'.unwelcome = s.unwelcome := by
  rw [unwelcome, unwelcome, same]

end Policy

end Session

namespace Conversation

variable [Text.LowerCase]

/-- A repeated greeting gives a name that the first greeting could have given. -/
def Introduced (c : Conversation) : Command → Prop
  | .regreet hostname => (c.session.regreet hostname).unwelcome = false
  | _ => True

variable [AuthTexts] [CaseFolding]

def Accepts (b : Backend) (c : Conversation) : Command → Prop
  | .data w bodyName scan => c.session.haveMail = true ∧ c.session.rcpts ≠ [] ∧
    ∃ s' result, c.session.judge b w bodyName scan = (s', .sorted result) ∧
      (result.envelopes ≠ [] ∨ result.failed = [])
  | _ => False

/-- No message is accepted from a client whose greeting would be refused. -/
def Guarded (b : Backend) (c : Conversation) (cmd : Command) : Prop :=
  c.Accepts b cmd → c.session.unwelcome = false

omit [AuthTexts] [CaseFolding] in
theorem greet_welcome {connUUID hostname : Name} {tls : Option TLSState} {conn : ConnEnv} {rules : Option Ruleset}
    {c : Conversation} (greeted : greet connUUID hostname tls conn rules = .ok c) : c.session.unwelcome = false := by
  simp only [greet] at greeted
  cases policy : (Session.initial connUUID hostname tls conn rules).greetPolicy [.connect, .helo] with
  | error reply =>
    rw [policy] at greeted
    cases greeted
  | ok session =>
    rw [policy] at greeted
    cases greeted
    have same : session.anew = Session.initial connUUID hostname tls conn rules := Session.greetPolicy_anew policy
    simp only [Session.unwelcome, same, policy]

theorem next_welcome {b : Backend} {c c' : Conversation} {cmd : Command} (welcome : c.session.unwelcome = false)
    (introduced : c.Introduced cmd) (step : c.next b cmd = some c') : c'.session.unwelcome = false := by
  cases cmd with
  | auth user mech =>
    cases step
    exact welcome
  | regreet hostname =>
    cases step
    exact introduced
  | reset =>
    cases step
    exact welcome
  | mail w fromAddr opts =>
    cases step
    have same := Session.mail_anew b w fromAddr opts c.session
    exact (Session.unwelcome_congr same).trans welcome
  | rcpt w toAddr opts =>
    have same := Session.rcpt_anew w toAddr opts c.session
    simp only [next] at step
    rcases answer : c.session.rcpt w toAddr opts with ⟨session, reply⟩
    rw [answer] at step same
    cases reply with
    | some reply =>
      cases step
      exact (Session.unwelcome_congr same).trans welcome
    | none =>
      cases step
      exact (Session.unwelcome_congr same).trans welcome
  | data w bodyName scan =>
    simp only [next] at step
    split at step
    · cases step
      have same : (c.session.judge b w bodyName scan).1.resetTxn.anew = c.session.anew :=
        Session.judge_anew b w bodyName scan c.session
      exact (Session.unwelcome_congr same).trans welcome
    · cases step

/-- As long as every repeated greeting gives a name that could have been given first, no message is accepted
    that the greeting's policy is against. -/
theorem greeting_guarded (b : Backend) (connUUID hostname : Name) (tls : Option TLSState) (conn : ConnEnv)
    (rules : Option Ruleset) (c₀ c : Conversation) (greeted : greet connUUID hostname tls conn rules = .ok c₀)
    (run : Reachable (next b) Introduced c₀ c) (cmd : Command) : c.Guarded b cmd := by
  intro _
  apply run.invariant fun c => c.session.unwelcome = false
  · exact greet_welcome greeted
  · intro c cmd c' welcome introduced step
    exact next_welcome welcome introduced step

end Conversation

section Sample

open Ascii

def shunning : Rules.File where
  policy := [{ name := "shunned".toList,
               pred := .field { field := "helo.name".toList, op := some .eq, value := some (.str "spammer".toList) },
               actions := [.reject 554 "5.7.1".toList "go away".toList] }]
  routes := [{ name := "out".toList, pred := .always true, actions := [.relay "out".toList] }]

def relayBackend : Backend := { hostname := "mx.example.com".toList }

namespace Conversation

theorem toOption_some {ε α : Type} {result : Except ε α} {value : α} (some_ : result.toOption = some value) :
    result = .ok value := by
  cases result with
  | error err => cases some_
  | ok value' =>
    cases some_
    rfl

def acceptsBody (c : Conversation) : Bool :=
  c.session.haveMail && decide (c.session.rcpts ≠ []) &&
    match c.session.judge relayBackend {} "C.1.eml".toList emptyBody with
    | (_, .sorted result) => decide (result.envelopes ≠ [])
    | _ => false

theorem accepts_of_acceptsBody {c : Conversation} (accepts : acceptsBody c = true) :
    c.Accepts relayBackend (.data {} "C.1.eml".toList emptyBody) := by
  unfold acceptsBody at accepts
  simp only [Bool.and_eq_true, decide_eq_true_eq] at accepts
  obtain ⟨⟨mail, rcpts⟩, judged⟩ := accepts
  apply And.intro mail
  apply And.intro rcpts
  split at judged
  · rename_i s' result sorted
    exact ⟨s', result, sorted, .inl (of_decide_eq_true judged)⟩
  · cases judged

/-- A client that is refused under its name gives another one first, and its own afterwards. -/
theorem shunned_by_second_name : ∃ (rs : Ruleset) (c₀ c : Conversation), compile shunning none = .ok rs ∧
    greet "C".toList "client".toList none {} (some rs) = .ok c₀ ∧ Reachable (next relayBackend) (fun _ _ => True) c₀ c ∧
    ¬ c.Guarded relayBackend (.data {} "C.1.eml".toList emptyBody) := by
  have ended : (talk relayBackend shunning (.regreet "spammer".toList :: toOne)).any (fun c =>
      acceptsBody c && c.session.unwelcome) = true := by decide
  obtain ⟨c, talked, facts⟩ := (Option.any_eq_true _ _).mp ended
  obtain ⟨rs, c₀, compiled, greeted, run⟩ := talk_reached talked
  obtain ⟨accepts, unwelcome⟩ := Bool.and_eq_true_iff.mp facts
  refine ⟨rs, c₀, c, compiled, greeted, run, ?_⟩
  intro guarded
  have welcome := guarded (accepts_of_acceptsBody accepts)
  rw [unwelcome] at welcome
  cases welcome

def introduces (c : Conversation) : Command → Bool
  | .regreet hostname => !(c.session.regreet hostname).unwelcome
  | _ => true

theorem introduced_of_introduces (c : Conversation) (cmd : Command) (introduces : introduces c cmd = true) :
    c.Introduced cmd := by
  cases cmd with
  | regreet hostname => simpa [Introduced, Conversation.introduces] using introduces
  | _ => trivial

theorem greeting_guarded_sample : ∃ (rs : Ruleset) (c₀ c : Conversation), compile shunning none = .ok rs ∧
    greet "C".toList "client".toList none {} (some rs) = .ok c₀ ∧ Reachable (next relayBackend) Introduced c₀ c ∧
    c.session.hostname = "relay".toList ∧ c.Accepts relayBackend (.data {} "C.1.eml".toList emptyBody) ∧
    c.session.unwelcome = false := by
  have ended : (compile shunning none).toOption.any (fun rs =>
      (greet "C".toList "client".toList none {} (some rs)).toOption.any fun c₀ =>
        (play (next relayBackend) introduces c₀ (.regreet "relay".toList :: toOne)).any fun c =>
          c.session.hostname = "relay".toList && acceptsBody c) = true := by decide
  obtain ⟨rs, compiled, ended⟩ := (Option.any_eq_true _ _).mp ended
  obtain ⟨c₀, greeted, ended⟩ := (Option.any_eq_true _ _).mp ended
  obtain ⟨c, played, facts⟩ := (Option.any_eq_true _ _).mp ended
  obtain ⟨named, accepts⟩ := Bool.and_eq_true_iff.mp facts
  replace compiled := toOption_some compiled
  replace greeted := toOption_some greeted
  have run : Reachable (next relayBackend) Introduced c₀ c := reachable_of_play introduced_of_introduces _ played
  have accepted := accepts_of_acceptsBody accepts
  have guarded := greeting_guarded relayBackend _ _ _ _ _ c₀ c greeted run (.data {} "C.1.eml".toList emptyBody)
  exact ⟨rs, c₀, c, compiled, greeted, run, of_decide_eq_true named, accepted, guarded accepted⟩

end Conversation

end Sample

end Mailgw.Smtp
