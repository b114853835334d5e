import Mailgw.Calls.Stages
import Mailgw.Queue.Notices
import Mailgw.Text.Decimal
import Mailgw.Text.Paths

namespace Mailgw.Queue

open Calls Deliver Text

inductive Label where
  | body | envelope
  deriving Repr, DecidableEq

abbrev Grant := Label × Name

section Children

theorem dot_not_mem_toDigits (n : Nat) : '.' ∉ Nat.toDigits 10 n := by
  intro member
  have digit := Nat.isDigit_of_mem_toDigits (by decide) (by decide) member
  revert digit
  decide

variable {p q x : Name} {j k n : Nat}

theorem within_childID (p : Name) (n : Nat) : Within '.' p (childID p n) := .behind '.' p _

theorem within_of_childID (within : Within '.' p (childID q n)) : p = childID q n ∨ Within '.' p q :=
  within.of_part (dot_not_mem_toDigits n)

theorem childID_branch (first : Within '.' (childID p j) x) (second : Within '.' (childID p k) x) : j = k := by
  have digits := first.part_unique (dot_not_mem_toDigits j) (dot_not_mem_toDigits k) second
  have same : padDecimal 0 j = padDecimal 0 k := by rw [padDecimal_zero, padDecimal_zero, digits]
  exact padDecimal_injective same

theorem count_childID (p : Name) (n : Nat) : (childID p n).count '.' = p.count '.' + 1 := by
  have digits : (Nat.toDigits 10 n).count '.' = 0 := List.count_eq_zero.mpr (dot_not_mem_toDigits n)
  rw [childID, List.count_append, List.count_cons_self, digits]

theorem childID_inj (same : childID p j = childID q k) : p = q ∧ j = k := by
  obtain ⟨rfl, -⟩ := append_last_sep_inj (dot_not_mem_toDigits j) (dot_not_mem_toDigits k) same
  exact ⟨rfl, childID_branch (Within.refl '.' _) (.inl same)⟩

end Children

structure Numbers where
  taken : List Grant := []
  ended : Bool := false

def Numbers.Next (n : Numbers) (uuid : Name) (first : Nat) (label : Label) (id : Name) : Prop :=
  ∃ k, id = childID uuid k ∧ first < k ∧ ∀ j, (label, childID uuid j) ∈ n.taken → j < k

/-- An attempt numbers the notifications about its envelope from the last one on, and saves with it
    the last number given out. Nothing is named after the envelope has been saved. -/
def numbering (uuid : Name) (muted : Bool) (first : Nat) : Stages Effect Effect.Answer Numbers where
  may c n := match c with
    | .writeBody id _ => n.ended = false ∧ muted = false ∧ n.Next uuid first .body id
    | .enqueue env => n.ended = false ∧ muted = false ∧ suppress env = true ∧ n.Next uuid first .envelope env.uuid
    | .reschedule _ e _ => n.ended = false ∧ e.uuid = uuid ∧ suppress e = muted ∧ first ≤ e.dsnSeq ∧
        ∀ label k, (label, childID uuid k) ∈ n.taken → k ≤ e.dsnSeq
    | .complete _ e | .bury _ e => n.ended = false ∧ e.uuid = uuid
    | _ => True
  can _ _ := True
  after c _ n := match c with
    | .writeBody id _ => { n with taken := n.taken ++ [(.body, id)] }
    | .enqueue env => { n with taken := n.taken ++ [(.envelope, env.uuid)] }
    | .reschedule _ _ _ | .complete _ _ | .bury _ _ => { n with ended := true }
    | _ => n

structure Numbered (uuid : Name) (muted : Bool) (first : Nat) (env : Envelope) (n : Numbers) : Prop where
  same : env.uuid = uuid
  mute : suppress env = muted
  start : first ≤ env.dsnSeq
  taken : ∀ label k, (label, childID uuid k) ∈ n.taken → k ≤ env.dsnSeq
  goes : n.ended = false

section Numbering
variable {uuid : Name} {muted : Bool} {first : Nat} {env env' : Envelope} {n : Numbers}

theorem calm_neutral {request : Effect} (calm : request.Calm) : (numbering uuid muted first).Neutral request := by
  cases request <;> first | exact calm.elim | exact fun _ => ⟨trivial, fun _ => rfl⟩

theorem neutral_of_calm {α : Type} {p : Job α} (calm : p.All Effect.Calm) :
    p.All (numbering uuid muted first).Neutral := calm.mono fun _ => calm_neutral

theorem Numbered.of_akin (numbered : Numbered uuid muted first env n) (akin : env.Akin env') :
    Numbered uuid muted first env' n where
  same := by
    have mail := akin.mail
    simp only [Envelope.mail, Envelope.mk.injEq] at mail
    exact mail.2.1.trans numbered.same
  mute := (suppress_mail akin.mail).trans numbered.mute
  start := akin.seq ▸ numbered.start
  taken := akin.seq ▸ numbered.taken
  goes := numbered.goes

theorem Numbered.next (numbered : Numbered uuid muted first env n) (label : Label) :
    n.Next uuid first label (childID env.uuid (env.dsnSeq + 1)) := by
  refine ⟨env.dsnSeq + 1, by rw [numbered.same], Nat.lt_succ_of_le numbered.start, fun j member => ?_⟩
  exact Nat.lt_succ_of_le (numbered.taken label j member)

theorem Numbered.bump (numbered : Numbered uuid muted first env n) :
    Numbered uuid muted first { env with dsnSeq := env.dsnSeq + 1 } n where
  same := numbered.same
  mute := numbered.mute
  start := Nat.le_succ_of_le numbered.start
  taken label k member := Nat.le_succ_of_le (numbered.taken label k member)
  goes := numbered.goes

theorem Numbered.give (numbered : Numbered uuid muted first env n) (label : Label) :
    Numbered uuid muted first env { n with taken := n.taken ++ [(label, childID env.uuid env.dsnSeq)] } where
  same := numbered.same
  mute := numbered.mute
  start := numbered.start
  goes := numbered.goes
  taken label' k member := by
    rcases List.mem_append.mp member with old | new
    · exact numbered.taken label' k old
    · exact le_of_eq (childID_inj (Prod.mk.inj (List.mem_singleton.mp new)).2).2

/-- What a notification is made of: a body and an envelope with the same name, the next one of the
    envelope it is about. -/
theorem Bouncer.bounce_follows {σ : Type} {stages : Stages Effect Effect.Answer σ} {stage : σ}
    {post : Envelope × Except Chars Bool → σ → Prop} {b : Bouncer} {req : Request}
    (neutral : ∀ request : Effect, request.Calm → stages.Neutral request) (quiet : ∀ outcome, post (env, outcome) stage)
    (unbuilt : ∀ outcome, post ({ env with dsnSeq := env.dsnSeq + 1 }, outcome) stage)
    (names : suppress env = false → ∀ content, stages.may (.writeBody (childID env.uuid (env.dsnSeq + 1)) content) stage ∧
      ∀ written,
        let stage' := stages.after (.writeBody (childID env.uuid (env.dsnSeq + 1)) content) written stage
        (∀ outcome, post ({ env with dsnSeq := env.dsnSeq + 1 }, outcome) stage') ∧
        ∀ note, note.uuid = childID env.uuid (env.dsnSeq + 1) → suppress note = true →
          stages.may (.enqueue note) stage' ∧ ∀ queued outcome,
            post ({ env with dsnSeq := env.dsnSeq + 1 }, outcome) (stages.after (.enqueue note) queued stage')) :
    Follows stages post (b.bounce env req) stage := by
  unfold Bouncer.bounce
  split
  · exact quiet _
  split
  · exact quiet _
  split
  · exact quiet _
  rename_i answerable
  have routing : Follows stages (fun _ stage' => True ∧ stage' = stage) (b.route env.mailFrom) stage :=
    .neutral ((Bouncer.route_calm _).mono neutral) fun _ _ _ => trivial
  apply Follows.bind
  apply routing.mono
  intro routed stage' same
  rw [same.2]
  cases routed with
  | none => exact quiet _
  | some found =>
    apply Follows.ask (neutral .now trivial stage).1
    intro now _
    rw [(neutral .now trivial stage).2]
    dsimp only
    split
    · exact unbuilt _
    · obtain ⟨may, given⟩ := names (by simpa using answerable) _
      refine ⟨may, fun written _ => ?_⟩
      obtain ⟨unwritten, filing⟩ := given written
      cases written with
      | error err => exact unwritten _
      | ok file =>
        obtain ⟨may', queueing⟩ := filing (Bouncer.notification { env with dsnSeq := env.dsnSeq + 1 }
          (childID env.uuid (env.dsnSeq + 1)) found.1 file.1 file.2 now) rfl rfl
        refine ⟨may', fun queued _ => ?_⟩
        cases queued with
        | none => exact queueing none _
        | some err =>
          refine ⟨(neutral (.removeBody _) trivial _).1, fun removed _ => ?_⟩
          rw [(neutral (.removeBody _) trivial _).2]
          exact queueing (some err) _

theorem Bouncer.bounce_numbers {b : Bouncer} {req : Request} (numbered : Numbered uuid muted first env n) :
    Follows (numbering uuid muted first) (fun result n' => Numbered uuid muted first result.1 n') (b.bounce env req) n := by
  apply Bouncer.bounce_follows fun _ => calm_neutral
  · exact fun _ => numbered
  · exact fun _ => numbered.bump
  intro answerable content
  have unmuted : muted = false := numbered.mute.symm.trans answerable
  have named := numbered.bump.give .body
  refine ⟨⟨numbered.goes, unmuted, numbered.next .body⟩, fun written => ⟨fun _ => named, fun note same mute => ?_⟩⟩
  have fresh : ∀ j, (.envelope, childID uuid j) ∈ n.taken ++ [(.body, childID env.uuid (env.dsnSeq + 1))] →
      j < env.dsnSeq + 1 := by
    intro j member
    rcases List.mem_append.mp member with old | new
    · exact Nat.lt_succ_of_le (numbered.taken .envelope j old)
    · cases List.mem_singleton.mp new
  refine ⟨⟨numbered.goes, unmuted, mute, _, by rw [same, numbered.same], Nat.lt_succ_of_le numbered.start, fresh⟩, ?_⟩
  intro queued outcome
  have whole := named.give .envelope
  show Numbered _ _ _ _ ⟨_ ++ [(.envelope, note.uuid)], _⟩
  rw [same]
  exact whole

theorem bounce_numbers {b : Bouncer} {req : Request} (numbered : Numbered uuid muted first env n) :
    Follows (numbering uuid muted first) (fun env' n' => Numbered uuid muted first env' n') (bounce b env req) n := by
  unfold bounce
  apply Follows.ask trivial
  intro opened _
  cases opened with
  | error err => exact Follows.bind (Bouncer.bounce_numbers numbered)
  | ok body => exact Follows.bind (Bouncer.bounce_numbers numbered)

theorem reportGroup_numbers {b : Bouncer} {kind : Dsn.Kind} {concerns : Recipient → Bool}
    {describe : Recipient → Dsn.Rcpt} (numbered : Numbered uuid muted first env n) :
    Follows (numbering uuid muted first) (fun env' n' => Numbered uuid muted first env' n')
      (reportGroup b kind concerns describe env) n := by
  unfold reportGroup
  dsimp only
  split
  · exact numbered
  · apply Follows.bind
    apply (bounce_numbers numbered).mono
    intro env' n' told
    exact ⟨told.same, told.mute, told.start, told.taken, told.goes⟩

section Attempts
variable [CaseFolding] {cfg : RunnerConfig} {inflight : Name}

theorem bounceFailed_numbers (numbered : Numbered uuid muted first env n) :
    Follows (numbering uuid muted first) (fun env' n' => Numbered uuid muted first env' n') (bounceFailed cfg env) n := by
  unfold bounceFailed
  split
  · exact numbered
  split
  · exact numbered
  · exact reportGroup_numbers numbered

theorem notifyRelayed_numbers (numbered : Numbered uuid muted first env n) :
    Follows (numbering uuid muted first) (fun env' n' => Numbered uuid muted first env' n') (notifyRelayed cfg env) n := by
  unfold notifyRelayed
  split
  · exact numbered
  split
  · exact numbered
  · exact reportGroup_numbers numbered

theorem bounceExpired_numbers {gone : Envelope} (numbered : Numbered uuid muted first gone n) :
    Follows (numbering uuid muted first) (fun env' n' => Numbered uuid muted first env' n')
      (bounceExpired cfg env gone) n := by
  unfold bounceExpired
  split
  · exact numbered
  dsimp only
  split
  · exact numbered
  · exact bounce_numbers numbered

theorem warnDelayed_numbers (numbered : Numbered uuid muted first env n) :
    Follows (numbering uuid muted first) (fun env' n' => Numbered uuid muted first env' n') (warnDelayed cfg env) n := by
  unfold warnDelayed
  split
  · exact numbered
  split
  · exact numbered
  apply Follows.ask trivial
  intro now _
  split
  · exact numbered
  dsimp only
  split
  · exact numbered
  · exact bounce_numbers ⟨numbered.same, numbered.mute, numbered.start, numbered.taken, numbered.goes⟩

theorem expire_numbers (numbered : Numbered uuid muted first env n) :
    Follows (numbering uuid muted first) (fun buried n' => buried = false → Numbered uuid muted first env n')
      (expire cfg inflight env) n := by
  unfold expire
  split
  · exact fun _ => numbered
  apply Follows.ask trivial
  intro now _
  split
  · exact fun _ => numbered
  · apply Follows.bind
    have gone : Numbered uuid muted first { env with rcpts := env.rcpts.map expireRcpt } n :=
      ⟨numbered.same, numbered.mute, numbered.start, numbered.taken, numbered.goes⟩
    apply (bounceExpired_numbers gone).mono
    intro gone' n' told
    exact ⟨⟨told.goes, told.same⟩, fun _ _ kept => absurd kept (by decide)⟩

theorem deferEnvelope_numbers {reason : Chars} (numbered : Numbered uuid muted first env n) :
    Follows (numbering uuid muted first) (fun _ _ => True) (deferEnvelope cfg inflight env reason) n := by
  unfold deferEnvelope
  dsimp only
  have stamped : Numbered uuid muted first (if reason ≠ [] then { env with lastErr := reason } else env) n := by
    split
    · exact ⟨numbered.same, numbered.mute, numbered.start, numbered.taken, numbered.goes⟩
    · exact numbered
  apply Follows.bind
  apply (expire_numbers stamped).mono
  intro buried n' aged
  cases buried with
  | true => exact trivial
  | false =>
    apply Follows.bind
    apply (warnDelayed_numbers (aged rfl)).mono
    intro env' n'' told
    apply Follows.ask trivial
    intro delay _
    apply Follows.ask trivial
    intro now _
    exact ⟨⟨told.goes, told.same, told.mute, told.start, told.taken⟩, fun _ _ => trivial⟩

theorem conclude_numbers (numbered : Numbered uuid muted first env n) :
    Follows (numbering uuid muted first) (fun _ _ => True) (conclude cfg inflight env) n := by
  unfold conclude
  split
  · apply Follows.bind
    apply (bounceFailed_numbers numbered).mono
    intro failed n' first
    apply Follows.bind
    apply (notifyRelayed_numbers first).mono
    intro relayed n'' second
    exact ⟨⟨second.goes, second.same⟩, fun _ _ => trivial⟩
  · exact deferEnvelope_numbers numbered

theorem tryRelays_calm {signature : Chars} {addrs : List Name} {last : Option Result} {relays : List Relay} :
    (tryRelays cfg env signature addrs last relays).All Effect.Calm := by
  induction relays generalizing last with
  | nil => exact trivial
  | cons relay rest ih =>
    simp only [tryRelays]
    apply Prog.All.ask trivial
    intro opened
    cases opened with
    | error err => exact trivial
    | ok file =>
      apply Prog.All.ask trivial
      intro res
      split
      · exact ih
      · exact record_calm.bind fun _ => trivial

theorem attempt_numbers (cfg : RunnerConfig) (inflight : Name) (env : Envelope) :
    Follows (numbering env.uuid (suppress env) env.dsnSeq) (fun _ _ => True) (attempt cfg inflight env) {} := by
  have numbered : Numbered env.uuid (suppress env) env.dsnSeq { env with attempts := env.attempts + 1 } {} :=
    ⟨rfl, rfl, le_refl _, by simp, rfl⟩
  unfold attempt
  generalize ({ env with attempts := env.attempts + 1 } : Envelope) = tried at numbered ⊢
  apply Follows.ask trivial
  intro known _
  dsimp only
  split
  · exact deferEnvelope_numbers numbered
  apply Follows.ask trivial
  intro running _
  split
  · apply Follows.ask trivial
    intro now _
    exact ⟨⟨numbered.goes, numbered.same, numbered.mute, numbered.start, numbered.taken⟩, fun _ _ => trivial⟩
  apply Follows.ask trivial
  intro found _
  apply Follows.ask trivial
  intro signature _
  apply Follows.bind
  have offering {addrs : List Name} {relays : List Relay} :
      Follows (numbering env.uuid (suppress env) env.dsnSeq) (fun left n => tried.Akin (left.settled tried) ∧ n = {})
        (tryRelays cfg tried signature addrs none relays) {} :=
    .neutral (neutral_of_calm tryRelays_calm) fun _ _ run => (tryRelays_opens run).2
  apply offering.mono
  intro left n' settled
  rw [settled.2]
  cases left with
  | bodyless => exact deferEnvelope_numbers numbered
  | through settled_ last =>
    exact conclude_numbers (numbered.of_akin (settled.1.trans (stampReason_akin _ _ _)))

end Attempts

end Numbering

end Mailgw.Queue
