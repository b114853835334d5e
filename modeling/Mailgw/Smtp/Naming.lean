import Mailgw.Queue.Naming
import Mailgw.Smtp.Conversation
import Mailgw.Smtp.Judgement

namespace Mailgw.Smtp

open Queue Rules Calls Deliver Text Lists

structure Fits (txn : Name) (taken : List Grant) (label : Label) (id : Name) : Prop where
  within : Within '.' txn id
  shallow : id.count '.' ≤ txn.count '.' + 2
  fresh : (label, id) ∉ taken
  apart : ∀ u, (.envelope, u) ∈ taken → ¬ Within '.' u id

structure Files (txn : Name) (taken : List Grant) (env : Envelope) : Prop where
  fits : Fits txn taken .envelope env.uuid
  below : txn.count '.' < env.uuid.count '.'
  mail : suppress env = false →
    env.uuid.count '.' = txn.count '.' + 1 ∧ ∀ entry ∈ taken, ¬ Within '.' env.uuid entry.2

def naming (txn : Name) : Stages (Effect ⊕ Envelope) (Sum.elim Effect.Answer fun _ => Option Chars) (List Grant) where
  may c taken := match c with
    | .inl (.writeBody id _) => Fits txn taken .body id
    | .inl (.enqueue env) | .inr env => Files txn taken env
    | .inl (.reschedule _ _ _) | .inl (.complete _ _) | .inl (.bury _ _) => False
    | .inl _ => True
  can _ _ := True
  after c _ taken := match c with
    | .inl (.writeBody id _) => taken ++ [(.body, id)]
    | .inl (.enqueue env) | .inr env => taken ++ [(.envelope, env.uuid)]
    | .inl _ => taken

structure Session.SameTxn (s s' : Session) : Prop where
  conn : s'.connUUID = s.connUUID
  seq : s'.txnSeq = s.txnSeq
  txn : s'.txnUUID = s.txnUUID

namespace Session

theorem SameTxn.refl (s : Session) : SameTxn s s := ⟨rfl, rfl, rfl⟩

theorem SameTxn.trans {s s' s'' : Session} (first : SameTxn s s') (second : SameTxn s' s'') : SameTxn s s'' where
  conn := second.conn.trans first.conn
  seq := second.seq.trans first.seq
  txn := second.txn.trans first.txn

theorem inspectBody_sameTxn (b : Backend) (w : World) (s : Session) : SameTxn s (s.inspectBody b w).1 := by
  unfold inspectBody
  split
  · exact .refl s
  dsimp only
  split
  · exact ⟨rfl, rfl, rfl⟩
  · split
    · exact ⟨rfl, rfl, rfl⟩
    · split <;> exact ⟨rfl, rfl, rfl⟩

theorem verifyDKIM_sameTxn (b : Backend) (w : World) (s : Session) : SameTxn s (s.verifyDKIM b w) := by
  unfold verifyDKIM
  split <;> exact ⟨rfl, rfl, rfl⟩

theorem inspectMsgAuth_sameTxn [AuthTexts] (b : Backend) (w : World) (s : Session) :
    SameTxn s (s.inspectMsgAuth b w) := by
  unfold inspectMsgAuth
  split
  · exact .refl s
  · have dkim : SameTxn s (if b.wantDKIM s.rules then s.verifyDKIM b w else s) := by
      split
      · exact verifyDKIM_sameTxn b w s
      · exact .refl s
    generalize (if b.wantDKIM s.rules then s.verifyDKIM b w else s) = s₁ at dkim ⊢
    have dmarc : SameTxn s₁ (if b.wantDMARC s₁.rules then s₁.evaluateDMARC w else s₁) := by
      split <;> exact ⟨rfl, rfl, rfl⟩
    have both := dkim.trans dmarc
    exact ⟨both.conn, both.seq, both.txn⟩

theorem checkSPF_sameTxn (b : Backend) (w : World) (fromAddr : Name) (s : Session) :
    SameTxn s (s.checkSPF b w fromAddr) := by
  unfold checkSPF
  split <;> exact ⟨rfl, rfl, rfl⟩

theorem applyTerminal_sameTxn (s : Session) (stage : Stage) (action : Option Action) :
    SameTxn s (s.applyTerminal stage action).1 ∧ (s.applyTerminal stage action).1.haveMail = s.haveMail := by
  unfold applyTerminal
  split <;> first | exact ⟨⟨rfl, rfl, rfl⟩, rfl⟩ | (split <;> exact ⟨⟨rfl, rfl, rfl⟩, rfl⟩)

variable [Text.LowerCase]

theorem policyPass_sameTxn (s : Session) (stage : Stage) : SameTxn s (s.policyPass stage).1 := by
  rw [policyPass_session]
  exact ⟨rfl, rfl, rfl⟩

theorem greetPolicy_sameTxn {stages : List Stage} {s s' : Session} (greeted : s.greetPolicy stages = .ok s') :
    SameTxn s s' ∧ s'.haveMail = s.haveMail := by
  induction stages generalizing s with
  | nil =>
    cases greeted
    exact ⟨.refl _, rfl⟩
  | cons stage rest ih =>
    unfold greetPolicy at greeted
    split at greeted
    · cases greeted
      exact ⟨.refl _, rfl⟩
    · have walked := s.policyPass_session stage
      rcases walk : s.policyPass stage with ⟨s₁, res⟩
      rw [walk] at walked greeted
      have passed : s₁ = { s with env := { s.env with stage, tags := s.env.tags.write (s.passWrites stage) } } := walked
      dsimp only at greeted
      split at greeted
      · cases greeted
      · rename_i after heard
        obtain ⟨same, mail⟩ := ih greeted
        obtain ⟨same', mail'⟩ :=
          applyTerminal_sameTxn { s₁ with connHeaders := s₁.connHeaders ++ res.headers } stage res.action
        rw [heard, passed] at same' mail'
        exact ⟨⟨same.conn.trans same'.conn, same.seq.trans same'.seq, same.txn.trans same'.txn⟩, mail.trans mail'⟩

theorem mail_sameTxn (b : Backend) (w : World) (fromAddr : Name) (opts : Option MailOptions) (s : Session) :
    SameTxn (s.beginMail fromAddr opts) (s.mail b w fromAddr opts).1 := by
  have spf := checkSPF_sameTxn b w fromAddr (s.beginMail fromAddr opts)
  unfold mail
  dsimp only
  split
  · exact .refl _
  · split
    · exact spf
    · have walked := policyPass_sameTxn ((s.beginMail fromAddr opts).checkSPF b w fromAddr) .mail
      have through := spf.trans walked
      have ended := (applyTerminal_sameTxn { (((s.beginMail fromAddr opts).checkSPF b w fromAddr).policyPass .mail).1 with
        txnHeaders := (((s.beginMail fromAddr opts).checkSPF b w fromAddr).policyPass .mail).1.txnHeaders ++
          (((s.beginMail fromAddr opts).checkSPF b w fromAddr).policyPass .mail).2.headers } .mail
        (((s.beginMail fromAddr opts).checkSPF b w fromAddr).policyPass .mail).2.action).1
      exact ⟨ended.conn.trans through.conn, ended.seq.trans through.seq, ended.txn.trans through.txn⟩

structure Turns (s s' : Session) : Prop where
  conn : s'.connUUID = s.connUUID
  seq : s.txnSeq ≤ s'.txnSeq
  mail : s'.haveMail = true →
    s'.txnSeq = s.txnSeq ∧ s'.txnUUID = s.txnUUID ∧ s.haveMail = true ∨
      s.txnSeq < s'.txnSeq ∧ s'.txnUUID = childID s.connUUID s'.txnSeq

theorem mail_turns (b : Backend) (w : World) (fromAddr : Name) (opts : Option MailOptions) (s : Session) :
    Turns s (s.mail b w fromAddr opts).1 := by
  have same := s.mail_sameTxn b w fromAddr opts
  have seq : (s.mail b w fromAddr opts).1.txnSeq = s.txnSeq + 1 := same.seq
  constructor
  · exact same.conn
  · omega
  · intro _
    rw [seq]
    exact .inr ⟨Nat.lt_succ_self _, same.txn⟩

theorem rcpt_turns (w : World) (toAddr : Name) (opts : Option RcptOptions) (s : Session) :
    Turns s (s.rcpt w toAddr opts).1 := by
  rcases step : s.rcpt w toAddr opts with ⟨s', reply⟩
  rcases rcpt_facts step with ⟨-, rfl⟩ | ⟨-, st, rfl, -⟩
  · exact ⟨rfl, le_refl _, fun mail => .inl ⟨rfl, rfl, mail⟩⟩
  · exact ⟨rfl, le_refl _, fun mail => .inl ⟨rfl, rfl, mail⟩⟩

theorem dataVerdict_sameTxn (s : Session) : SameTxn s s.dataVerdict.1 := by
  have walked := s.policyPass_sameTxn .data
  unfold dataVerdict
  split
  · exact .refl s
  · exact ⟨walked.conn, walked.seq, walked.txn⟩

theorem judge_sameTxn [AuthTexts] [CaseFolding] (b : Backend) (w : World) (bodyName : Name) (scan : Scan) (s : Session) :
    SameTxn s (s.judge b w bodyName scan).1 := by
  have arrived : SameTxn s (s.arrive scan) := ⟨rfl, rfl, rfl⟩
  unfold judge
  dsimp only
  split
  · exact arrived
  · have body := arrived.trans (inspectBody_sameTxn b w (s.arrive scan))
    have auth := body.trans (inspectMsgAuth_sameTxn b w _)
    have verdict := auth.trans (dataVerdict_sameTxn _)
    split
    · rename_i walked
      rwa [walked] at verdict
    · rename_i walked
      rw [walked] at verdict
      split <;> exact verdict

end Session

section Envelopes

theorem length_add_le {groups : Buckets} (key : Name) (label : Destination × Tags) (item : BucketRcpt) :
    (groups.add key label item).length ≤ groups.length + 1 := by
  have lengths := congrArg List.length (Groups.keys_add key label item groups)
  have count (groups : Buckets) : groups.keys.length = groups.length := List.length_map _
  by_cases known : key ∈ groups.keys
  · rw [if_pos known, count, count] at lengths
    omega
  · rw [if_neg known, List.length_append, count, count, List.length_singleton] at lengths
    omega

variable [Text.LowerCase] {s : Session}

theorem length_split_le (bodyName : Name) (size : Nat) (now : Instant) (msgDrop : Option Drop) :
    (s.split bodyName size now msgDrop).envelopes.length ≤ s.rcpts.length := by
  have collects (rcpts : List RcptState) (c : Collected) :
      (rcpts.foldl (fun c rs => c.add (s.settle msgDrop rs)) c).buckets.length ≤ c.buckets.length + rcpts.length := by
    induction rcpts generalizing c with
    | nil => simp
    | cons rs rest ih =>
      have one : (c.add (s.settle msgDrop rs)).buckets.length ≤ c.buckets.length + 1 := by
        cases s.settle msgDrop rs with
        | failed f => exact Nat.le_succ _
        | dropped => exact Nat.le_succ _
        | relayed dest tags rcpt => exact length_add_le _ _ _
      have others := ih (c.add (s.settle msgDrop rs))
      rw [List.foldl_cons, List.length_cons]
      omega
  have all := collects s.rcpts {}
  simp only [Session.split, List.length_mapIdx, List.length_insertionSort]
  simpa [Session.collect] using all

theorem split_uuid {bodyName : Name} {size : Nat} {now : Instant} {msgDrop : Option Drop} {i : Nat} {e : OutEnvelope}
    (at_ : (s.split bodyName size now msgDrop).envelopes[i]? = some e) : e.env.uuid = childID s.txnUUID (i + 1) := by
  simp only [Session.split, List.getElem?_mapIdx, Option.map_eq_some_iff] at at_
  obtain ⟨bucket, -, rfl⟩ := at_
  rfl

end Envelopes

/-- Nothing is named but the body, a notification that hangs off no envelope, and the first envelopes. -/
def Filled (txn : Name) (n i : Nat) (taken : List Grant) : Prop :=
  ∀ entry ∈ taken, entry = (.body, txn) ∨ Within '.' (childID txn (n + 1)) entry.2 ∨
    ∃ j, j < i ∧ entry = (.envelope, childID txn (j + 1))

section Names
variable {txn : Name} {n i : Nat} {taken : List Grant}

theorem spool_follows {σ α : Type} {stages : Stages (Effect ⊕ Envelope) (Sum.elim Effect.Answer fun _ => Option Chars) σ}
    {post : α → σ → Prop} {stage : σ} {request : Effect} {f : request.Answer → Filing α}
    (may : stages.may (.inl request) stage)
    (rest : ∀ answer : request.Answer, Follows stages post (f answer) (stages.after (.inl request) answer stage)) :
    Follows stages post (spool request >>= f) stage := ⟨may, fun answer _ => rest answer⟩

theorem Filled.files (filled : Filled txn n i taken) (room : i < n) {env : Envelope}
    (named : env.uuid = childID txn (i + 1)) : Files txn taken env := by
  have counted := count_childID txn (i + 1)
  have unnoticed : ∀ {x : Name}, Within '.' (childID txn (i + 1)) x → ¬ Within '.' (childID txn (n + 1)) x := by
    intro x here there
    have same := childID_branch here there
    omega
  have unfiled : ∀ {j : Nat} {x : Name}, j < i → Within '.' (childID txn (i + 1)) x →
      ¬ Within '.' (childID txn (j + 1)) x := by
    intro j x before here there
    have same := childID_branch here there
    omega
  have clear : ∀ entry ∈ taken, ¬ Within '.' env.uuid entry.2 := by
    intro entry member here
    rw [named] at here
    rcases filled entry member with rfl | notice | ⟨j, before, rfl⟩
    · have longer := here.count_le
      dsimp only at longer
      omega
    · exact unnoticed here notice
    · exact unfiled before here (.refl '.' _)
  constructor
  · constructor
    · rw [named]
      exact within_childID txn (i + 1)
    · rw [named]
      omega
    · exact fun member => clear _ member (.refl '.' _)
    · intro u member outer
      rw [named] at outer
      rcases filled _ member with same | notice | ⟨j, before, same⟩
      · cases same
      · exact unnoticed (.refl '.' _) (notice.trans outer)
      · cases same
        exact unfiled before (.refl '.' _) outer
  · rw [named]
    omega
  · intro _
    rw [named] at clear ⊢
    exact ⟨counted, clear⟩

theorem Filled.file (filled : Filled txn n i taken) {env : Envelope} (named : env.uuid = childID txn (i + 1)) :
    Filled txn n (i + 1) (taken ++ [(.envelope, env.uuid)]) := by
  intro entry member
  rcases List.mem_append.mp member with old | new
  · rcases filled entry old with body | notice | ⟨j, before, same⟩
    · exact .inl body
    · exact .inr (.inl notice)
    · exact .inr (.inr ⟨j, by omega, same⟩)
  · rw [List.mem_singleton.mp new, named]
    exact .inr (.inr ⟨i, by omega, rfl⟩)

theorem fileAll_names {es : List OutEnvelope} (filled : Filled txn n i taken) (room : i + es.length ≤ n)
    (named : ∀ k e, es[k]? = some e → e.env.uuid = childID txn (i + k + 1)) :
    Follows (naming txn) (fun _ _ => True) (fileAll es) taken := by
  induction es generalizing i taken with
  | nil => exact trivial
  | cons e rest ih =>
    rw [List.length_cons] at room
    have first : e.env.uuid = childID txn (i + 1) := named 0 e rfl
    have files := filled.files (by omega) first
    have others : ∀ k e', rest[k]? = some e' → e'.env.uuid = childID txn (i + 1 + k + 1) := by
      intro k e' at_
      rw [named (k + 1) e' (by simpa using at_)]
      congr 1
      omega
    have onward := ih (filled.file first) (by omega) others
    unfold fileAll fileOne
    split
    · refine ⟨files, fun filed _ => ?_⟩
      cases filed with
      | some err => exact trivial
      | none => exact onward
    · refine ⟨files, fun filed _ => ?_⟩
      cases filed with
      | some err => exact trivial
      | none => exact onward

theorem calm_neutral {request : Effect} (calm : request.Calm) : (naming txn).left.Neutral request := by
  cases request <;> first | exact calm.elim | exact fun _ => ⟨trivial, fun _ => rfl⟩

theorem bounceRefused_names [CaseFolding] (b : Backend) (w : World) (headers : Name) (size : Nat)
    (failed : List FailedRcpt) (s : Session) :
    Follows (naming s.txnUUID) (fun _ taken => Filled s.txnUUID s.rcpts.length 0 taken)
      (s.bounceRefused b w headers size failed) [(.body, s.txnUUID)] := by
  have start : Filled s.txnUUID s.rcpts.length 0 [(.body, s.txnUUID)] := by
    intro entry member
    exact .inl (List.mem_singleton.mp member)
  unfold Session.bounceRefused
  dsimp only
  split
  · exact start
  split
  · exact start
  split
  · exact start
  apply Follows.bind
  apply Follows.inl
  let id := childID (childID s.txnUUID (s.rcpts.length + 1)) 1
  have within : Within '.' (childID s.txnUUID (s.rcpts.length + 1)) id := within_childID _ _
  have counted : id.count '.' = s.txnUUID.count '.' + 2 := by
    rw [count_childID, count_childID]
  have other : id ≠ s.txnUUID := by
    intro same
    rw [same] at counted
    omega
  have noticed {taken : List Grant} (filled : Filled s.txnUUID s.rcpts.length 0 taken) (label : Label) :
      Filled s.txnUUID s.rcpts.length 0 (taken ++ [(label, id)]) := by
    intro entry member
    rcases List.mem_append.mp member with old | new
    · exact filled entry old
    · rw [List.mem_singleton.mp new]
      exact .inr (.inl within)
  have inside : Within '.' s.txnUUID id := (within_childID _ _).trans within
  apply Bouncer.bounce_follows fun _ => calm_neutral
  · exact fun _ => start
  · exact fun _ => start
  intro answerable content
  have body : Fits s.txnUUID [(.body, s.txnUUID)] .body id := ⟨inside, by omega, by simp [other], by simp⟩
  refine ⟨body, fun written => ⟨fun _ => noticed start .body, fun note same mute => ?_⟩⟩
  have named : note.uuid = id := same
  have fits : Fits s.txnUUID [(.body, s.txnUUID), (.body, id)] .envelope note.uuid := by
    rw [named]
    exact ⟨inside, by omega, by simp, by simp⟩
  have below : s.txnUUID.count '.' < note.uuid.count '.' := by
    rw [named]
    omega
  have answered : suppress note = false → False := by simp [mute]
  refine ⟨⟨fits, below, fun unmuted => (answered unmuted).elim⟩, fun queued outcome => ?_⟩
  show Filled _ _ 0 ([(.body, s.txnUUID)] ++ [(.body, id)] ++ [(.envelope, note.uuid)])
  rw [named]
  exact noticed (noticed start .body) .envelope

variable [Text.LowerCase] [AuthTexts] [CaseFolding]

omit [AuthTexts] [CaseFolding] in
theorem judge_sorted [AuthTexts] [CaseFolding] {b : Backend} {w : World} {bodyName : Name} {scan : Scan}
    {s s' : Session} {result : SplitResult} (judged : s.judge b w bodyName scan = (s', .sorted result)) :
    ∃ msgDrop, result = s'.split bodyName scan.size w.now msgDrop := by
  unfold Session.judge at judged
  dsimp only at judged
  split at judged
  · cases judged
  · split at judged
    · cases judged
    · split at judged
      · cases judged
      · cases judged
        exact ⟨_, rfl⟩

theorem data_names (b : Backend) (w : World) (fault : Chars → BodyFault) (body : Reader) (scan : Scan) (s : Session) :
    Follows (naming s.txnUUID) (fun result _ => s.SameTxn result.1) (s.data b w fault body scan) [] := by
  unfold Session.data
  split
  · exact .refl s
  split
  · exact .refl s
  have first : Fits s.txnUUID [] .body s.txnUUID := ⟨.refl '.' _, by omega, by simp, by simp⟩
  apply spool_follows first
  intro written
  cases written with
  | error err => exact .refl s
  | ok file =>
    obtain ⟨name, size⟩ := file
    have same := Session.judge_sameTxn b w name { scan with size } s
    have rcpts := (Session.judge_facts b w name { scan with size } s).1.rcpts
    rcases judged : s.judge b w name { scan with size } with ⟨s', verdict⟩
    rw [judged] at same rcpts
    dsimp only at same rcpts ⊢
    rw [judged]
    cases verdict with
    | refused reply =>
      apply spool_follows trivial
      exact fun _ => same
    | sorted split =>
      obtain ⟨msgDrop, rfl⟩ := judge_sorted judged
      dsimp only
      split
      · apply spool_follows trivial
        intro _
        split <;> exact same
      · apply Follows.bind
        rw [← same.txn]
        apply (bounceRefused_names b w scan.rawHeaders size _ s').mono
        intro _ taken filled
        apply Follows.bind
        have room := length_split_le (s := s') name size w.now msgDrop
        apply (fileAll_names filled (by omega) fun k e at_ => by rw [split_uuid at_, Nat.zero_add]).mono
        intro all _ _
        exact same

end Names

end Mailgw.Smtp
