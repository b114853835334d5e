import Mailgw.Buckets.Window
import Mailgw.Lists.Replace
import Mailgw.Ratelimit.Meaning
import Mailgw.Smtp.Authentication

namespace Mailgw.Smtp

open Buckets Calls Lists Queue Ratelimit Rules

@[simp] theorem AuthStage.pending_asking : AuthStage.pending .asking = false := rfl
@[simp] theorem AuthStage.pending_admitted : AuthStage.pending .admitted = true := rfl
@[simp] theorem AuthStage.pending_failed : AuthStage.pending .failed = true := rfl
@[simp] theorem AuthStage.pending_settled : AuthStage.pending .settled = false := rfl

def judging (key : Name) : Stages AuthCall AuthCall.Answer AuthStage where
  may
    | .blocked key', stage => key' = key ∧ stage = .asking
    | .lookup _, stage => stage = .admitted
    | .enter, stage => ∃ known, stage = .found known
    | .compare _ _, stage => ∃ known, stage = .found known
    | .spend key', stage => key' = key ∧ stage = .failed
  can _ _ := True
  after call answer stage := stage.after ⟨call, answer⟩

/-- A failure is left uncharged only where there is nothing to count it under. -/
def Charged (key : Name) (_ : Option Reply) (stage : AuthStage) : Prop := stage = .failed → key = []

theorem charge_follows (key : Name) (reply : Option Reply) : Follows (judging key) (Charged key) (do
    recordAuthFailure key
    return reply) .failed := by
  unfold recordAuthFailure
  by_cases named : key = []
  · rw [if_pos named]
    intro _
    exact named
  · rw [if_neg named]
    constructor
    · exact ⟨rfl, rfl⟩
    · intro _ _ failed
      cases failed

theorem verify_follows (key username password : Name) :
    Follows (judging key) (Charged key) (verify key username password) (if key = [] then .admitted else .asking) := by
  have judged : Follows (judging key) (Charged key) (do
      let known : Option Name ← Prog.ask (AuthCall.lookup username)
      let entered ← Prog.ask AuthCall.enter
      if !entered then return some shuttingDown
      else
        let right ← Prog.ask (AuthCall.compare (known.getD dummyHash) password)
        if known.isNone || !right then
          recordAuthFailure key
          return some errBadCredentials
        else return none) .admitted := by
    apply Follows.ask rfl
    intro known _
    have found : ∃ known', AuthStage.found known.isSome = .found known' := ⟨_, rfl⟩
    apply Follows.ask found
    intro entered _
    cases entered with
    | false =>
      intro failed
      cases failed
    | true =>
      apply Follows.ask found
      intro right _
      cases known with
      | none => exact charge_follows key (some errBadCredentials)
      | some hash =>
        cases right with
        | false => exact charge_follows key (some errBadCredentials)
        | true =>
          intro failed
          cases failed
  unfold verify allowAuthAttempt
  by_cases named : key = []
  · rw [if_pos named, if_pos named]
    exact judged
  · rw [if_neg named, if_neg named]
    apply Follows.ask (And.intro rfl rfl)
    intro blocked _
    cases blocked with
    | true =>
      intro failed
      cases failed
    | false => exact judged

namespace AuthDesk

/-- The attempts of a client that are past the check of its budget and not yet charged. -/
def pending (d : AuthDesk) (key : Name) : Nat := d.attempts.countP fun a => a.key = key && a.stage.pending

def uncharged (d : AuthDesk) (key : Name) : Nat := d.attempts.countP fun a => a.key = key && a.stage = .failed

def tokens (d : AuthDesk) (key : Name) : ℚ := d.limiter.level ⟨.authFailPerIP, key⟩ d.clock

/-- An attempt passes the check only while the tokens left cover it and all that are past the check,
    and a failure is charged only while the limiter can keep track of the client. -/
def Covered (key : Name) (d : AuthDesk) : AuthMove → Prop
  | .work _ ⟨.blocked key', blocked⟩ _ => key' = key → blocked = false → d.pending key + 1 ≤ d.tokens key
  | .work _ ⟨.spend key', _⟩ lag => key' = key → ¬ d.limiter.Crowded ⟨.authFailPerIP, key⟩ (d.clock + lag)
  | _ => True

def charges (d : AuthDesk) (key : Name) : List (ℚ × ℚ) :=
  (d.failures.filter fun failure => failure.1 = key).map fun failure => (seconds failure.2, 1)

/-- The budget covers every failure that can still come, and every failure so far was drawn from it. -/
structure Accounted (fixed : Ratelimit.Rules) (start : Int) (key : Name) (d : AuthDesk) : Prop where
  rules : d.limiter.rules = fixed
  sound : d.limiter.Sound d.clock
  follows : ∀ a ∈ d.attempts, Follows (judging a.key) (Charged a.key) a.job a.stage
  covered : (d.pending key : ℚ) ≤ d.tokens key
  drawn : ∃ left, d.tokens key - d.uncharged key ≤ left ∧ Drawn fixed.authFailPerIP.capacity
    fixed.authFailPerIP.refillPerSecond (seconds start) fixed.authFailPerIP.capacity (d.charges key) (seconds d.clock) left

variable {text : Addr → Name} {fixed : Ratelimit.Rules} {start : Int} {key : Name} {d d' : AuthDesk}

def cost (key : Name) (d : AuthDesk) (event : Judging) : ℚ := if event.1 = .spend key ∧ 1 ≤ d.tokens key then 1 else 0

structure Paid (d : AuthDesk) (key : Name) (lag : Nat) (amount : ℚ) (limiter : Limiter) : Prop where
  rules : limiter.rules = d.limiter.rules
  sound : limiter.Sound (d.clock + lag)
  level : limiter.level ⟨.authFailPerIP, key⟩ (d.clock + lag) = min d.limiter.rules.authFailPerIP.capacity
    (d.tokens key - amount + d.limiter.rules.authFailPerIP.refillPerSecond * seconds lag)

section Serve
variable {lag : Nat} {event : Judging} {limiter : Limiter} {key' : Name}
variable (sound : d.limiter.Sound d.clock) (on : d.limiter.rules.authFailPerIP.enabled = true)
include sound on

theorem Paid.idle (key : Name) (lag : Nat) : Paid d key lag 0 d.limiter := by
  have goes : d.clock ≤ d.clock + lag := by omega
  have later := Limiter.level_later ⟨.authFailPerIP, key⟩ sound on le_rfl goes
  rw [add_sub_cancel_left] at later
  constructor
  · rfl
  · exact sound.mono goes
  · rw [sub_zero]
    exact later

theorem Paid.elsewhere (lag : Nat) (spend : Bool) (other : key' ≠ key) :
    Paid d key lag 0 (d.limiter.take ⟨.authFailPerIP, key'⟩ spend d.clock (d.clock + lag)).1 := by
  have goes : d.clock ≤ d.clock + lag := by omega
  have different : (⟨.authFailPerIP, key⟩ : Key) ≠ ⟨.authFailPerIP, key'⟩ := by
    intro same
    cases same
    exact other rfl
  obtain ⟨rules, sound', level⟩ := Limiter.take_others spend sound le_rfl goes different on
  exact ⟨rules, sound', level.trans (Paid.idle sound on key lag).level⟩

theorem Paid.own (lag : Nat) (spend : Bool) (named : key ≠ []) (tracked : spend = true → ¬ d.limiter.Crowded ⟨.authFailPerIP, key⟩ (d.clock + lag)) :
    Paid d key lag (d.limiter.spent ⟨.authFailPerIP, key⟩ spend d.clock)
      (d.limiter.take ⟨.authFailPerIP, key⟩ spend d.clock (d.clock + lag)).1 := by
  have goes : d.clock ≤ d.clock + lag := by omega
  have limits : d.limiter.Limits ⟨.authFailPerIP, key⟩ := ⟨named, on⟩
  have counts := Limiter.take_counts spend sound limits le_rfl goes tracked
  have level := counts.left (d.clock + lag) goes
  rw [add_sub_cancel_left] at level
  exact ⟨counts.rules, counts.sound, level⟩

theorem serve_paid (named : key ≠ [])
    (tracked : event.1 = .spend key → ¬ d.limiter.Crowded ⟨.authFailPerIP, key⟩ (d.clock + lag))
    (served : d.serve lag event = some limiter) : Paid d key lag (cost key d event) limiter := by
  have idle := Paid.idle sound on key lag
  obtain ⟨call, answer⟩ := event
  cases call with
  | lookup username =>
    cases served
    simpa [cost] using idle
  | enter =>
    cases served
    simpa [cost] using idle
  | compare hash password =>
    cases served
    simpa [cost] using idle
  | blocked key' =>
    simp only [serve] at served
    split at served
    · cases served
      by_cases mine : key' = key
      · subst mine
        have own := Paid.own sound on lag false named (by simp)
        simpa [cost, Limiter.spent] using own
      · have other := Paid.elsewhere sound on lag false mine
        simpa [cost] using other
    · cases served
  | spend key' =>
    cases served
    by_cases mine : key' = key
    · subst mine
      have own := Paid.own sound on lag true named fun _ => tracked rfl
      simpa [cost, Limiter.spent, tokens] using own
    · have other := Paid.elsewhere sound on lag true mine
      simpa [cost, mine] using other

end Serve

section Invariant
variable {lag : Nat} {amount : ℚ} {limiter : Limiter}

theorem seconds_lag (clock : Int) (lag : Nat) : seconds (clock + lag) - seconds clock = seconds lag := by
  rw [← seconds_sub, add_sub_cancel_left]

theorem Accounted.onward (accounted : Accounted fixed start key d) (on : fixed.authFailPerIP.enabled = true)
    (paid : Paid d key lag amount d'.limiter) (time : d'.clock = d.clock + lag)
    (follows : ∀ a ∈ d'.attempts, Follows (judging a.key) (Charged a.key) a.job a.stage)
    (free : 0 ≤ amount) (covered : d'.pending key + amount ≤ d.tokens key)
    (charges : d'.charges key = d.charges key ∧ (d.uncharged key : ℚ) ≤ d'.uncharged key + amount ∨
      d'.charges key = d.charges key ++ [(seconds d.clock, 1)] ∧ (d.uncharged key : ℚ) + 1 ≤ d'.uncharged key + amount ∧
        (d.uncharged key : ℚ) + 1 ≤ d.tokens key) : Accounted fixed start key d' := by
  obtain ⟨rules, sound, _, _, left, less, drawn⟩ := accounted
  have flows := Rule.refill_nonneg on
  have flowed := mul_nonneg flows (seconds_nonneg (Int.natCast_nonneg lag))
  have level := paid.level
  rw [rules, ← time] at level
  have most : d.tokens key ≤ fixed.authFailPerIP.capacity := by
    rw [← rules]
    exact d.limiter.level_le ⟨.authFailPerIP, key⟩ d.clock
  have risen : d'.tokens key ≤ d.tokens key - amount + fixed.authFailPerIP.refillPerSecond * seconds lag := by
    unfold tokens
    rw [level]
    exact min_le_right _ _
  have later : seconds d.clock ≤ seconds d'.clock := by
    rw [time, seconds_le_iff]
    omega
  have span : seconds d'.clock - seconds d.clock = seconds lag := by rw [time, seconds_lag]
  constructor
  · rw [paid.rules, rules]
  · rw [time]
    exact paid.sound
  · exact follows
  · unfold tokens
    rw [level]
    apply le_min <;> linarith
  · rcases charges with ⟨same, charged⟩ | ⟨added, charged, enough⟩
    · rw [same, ← List.append_nil (d.charges key)]
      refine ⟨left + fixed.authFailPerIP.refillPerSecond * seconds lag, by linarith, drawn.append (.rest later ?_)⟩
      rw [span]
    · have none : (0 : ℚ) ≤ d.uncharged key := Nat.cast_nonneg _
      have held : 0 ≤ d.tokens key - d.uncharged key - 1 := by linarith
      have full : 1 + (d.tokens key - d.uncharged key - 1) ≤ min fixed.authFailPerIP.capacity
          (left + fixed.authFailPerIP.refillPerSecond * (seconds d.clock - seconds d.clock)) := by
        rw [sub_self, mul_zero, add_zero]
        apply le_min <;> linarith
      rw [added]
      refine ⟨d.tokens key - d.uncharged key - 1 + fixed.authFailPerIP.refillPerSecond * seconds lag, by linarith,
        drawn.append (.draw le_rfl held full (.rest later ?_))⟩
      rw [span]

end Invariant

theorem uncharged_le (d : AuthDesk) (key : Name) : d.uncharged key ≤ d.pending key := by
  apply List.countP_mono_left
  intro a _ failed
  simp only [Bool.and_eq_true, decide_eq_true_eq] at failed ⊢
  exact ⟨failed.1, by rw [failed.2]; rfl⟩

theorem counts_set {a a' : Attempt} {i : Nat} (here : d.attempts[i]? = some a) (goes : d'.attempts = d.attempts.set i a')
    (key : Name) :
    d'.pending key + (if a.key = key ∧ a.stage.pending then 1 else 0) =
      d.pending key + (if a'.key = key ∧ a'.stage.pending then 1 else 0) ∧
    d'.uncharged key + (if a.key = key ∧ a.stage = .failed then 1 else 0) =
      d.uncharged key + (if a'.key = key ∧ a'.stage = .failed then 1 else 0) := by
  unfold pending uncharged
  rw [goes]
  constructor
  · simpa using countP_replace (fun a => a.key = key && a.stage.pending) (y := a') here
  · simpa using countP_replace (fun a => a.key = key && a.stage = .failed) (y := a') here

/-- What a call does to an attempt: the check lets it go on, the comparison fails, the failure is
    charged, or none of them. -/
theorem work_cases {a : Attempt} {event : Judging} (may : (judging key).may event.1 a.stage) :
    (event = ⟨.blocked key, false⟩ ∧ a.stage = .asking) ∨
    (a.stage.pending = true ∧ a.stage ≠ .failed ∧ a.stage.after event = .failed ∧ fails a event = true ∧ event.1 ≠ .spend key) ∨
    (event.1 = .spend key ∧ a.stage = .failed ∧ a.stage.after event = .settled ∧ fails a event = false) ∨
    (event.1 ≠ .spend key ∧ ((a.stage.after event).pending = true → a.stage.pending = true) ∧ a.stage ≠ .failed ∧
      a.stage.after event ≠ .failed ∧ fails a event = false) := by
  obtain ⟨call, answer⟩ := event
  cases call with
  | blocked key' =>
    obtain ⟨rfl, stage⟩ := may
    cases answer with
    | false => exact .inl ⟨rfl, stage⟩
    | true =>
      right; right; right
      simp [stage, AuthStage.after, AuthStage.pending, fails]
  | lookup username =>
    have stage : a.stage = .admitted := may
    right; right; right
    simp [stage, AuthStage.after, AuthStage.pending, fails]
  | enter =>
    obtain ⟨known, stage⟩ := may
    right; right; right
    cases answer <;> simp [stage, AuthStage.after, AuthStage.pending, fails]
  | compare hash password =>
    obtain ⟨known, stage⟩ := may
    by_cases right_ : known = true ∧ answer = true
    · right; right; right
      simp [stage, right_, AuthStage.after, AuthStage.pending, fails]
    · right; left
      simp [stage, right_, AuthStage.after, AuthStage.pending, fails]
  | spend key' =>
    obtain ⟨rfl, stage⟩ := may
    right; right; left
    simp [stage, AuthStage.after, fails]

theorem Accounted.work {i lag : Nat} {event : Judging} (accounted : Accounted fixed start key d) (named : key ≠ [])
    (on : fixed.authFailPerIP.enabled = true) (covers : d.Covered key (.work i event lag))
    (next : d.next text (.work i event lag) = some d') : Accounted fixed start key d' := by
  have accounted' := accounted
  obtain ⟨rules, sound, follows, covered, _⟩ := accounted'
  obtain ⟨a, here, next⟩ := Option.bind_eq_some_iff.mp next
  obtain ⟨job, made, next⟩ := Option.bind_eq_some_iff.mp next
  obtain ⟨limiter, served, next⟩ := Option.bind_eq_some_iff.mp next
  obtain ⟨attempts, left, time, failures⟩ : d'.attempts = d.attempts.set i { a with stage := a.stage.after event, job } ∧
      d'.limiter = limiter ∧ d'.clock = d.clock + lag ∧
      d'.failures = if fails a event then d.failures ++ [(a.key, d.clock)] else d.failures := by
    cases next
    exact ⟨rfl, rfl, rfl, rfl⟩
  obtain ⟨may, onward⟩ := (follows a (List.mem_of_getElem? here)).step trivial made
  have follows' : ∀ b ∈ d'.attempts, Follows (judging b.key) (Charged b.key) b.job b.stage := by
    intro b member
    rw [attempts] at member
    rcases mem_replace member with rfl | old
    · exact onward
    · exact follows b old
  have tracked : event.1 = .spend key → ¬ d.limiter.Crowded ⟨.authFailPerIP, key⟩ (d.clock + lag) := by
    intro charge
    obtain ⟨call, answer⟩ := event
    cases charge
    exact covers rfl
  have paid := serve_paid sound (by rw [rules]; exact on) named tracked served
  rw [← left] at paid
  have charged : (d.uncharged key : ℚ) ≤ d.pending key := by exact_mod_cast d.uncharged_le key
  obtain ⟨pending, uncharged⟩ := counts_set here attempts key
  have least : 0 ≤ cost key d event := by
    unfold cost
    split <;> norm_num
  by_cases own : a.key = key
  · have quiet : fails a event = false → d'.charges key = d.charges key := by
      intro fine
      simp [charges, failures, fine]
    simp only [own, true_and] at pending uncharged
    rw [own] at may
    rcases work_cases may with ⟨rfl, stage⟩ | ⟨held, unfailed, after, fail, free⟩ | ⟨charge, stage, after, fine⟩ |
      ⟨free, held, unfailed, after, fine⟩
    · have enough := covers rfl rfl
      have free : cost key d ⟨.blocked key, false⟩ = 0 := by simp [cost]
      simp [stage, AuthStage.after, AuthStage.pending] at pending uncharged
      apply accounted.onward on paid time follows' least
      · rw [free, pending]
        push_cast
        linarith
      · exact .inl ⟨quiet rfl, by rw [free, uncharged, add_zero]⟩
    · have none : cost key d event = 0 := by simp [cost, free]
      have one : d.uncharged key + 1 ≤ d.pending key := by
        have lower := d'.uncharged_le key
        simp [held, unfailed, after] at pending uncharged
        omega
      have one' : (d.uncharged key : ℚ) + 1 ≤ d.pending key := by exact_mod_cast one
      simp [held, unfailed, after] at pending uncharged
      apply accounted.onward on paid time follows' least
      · rw [none, pending, add_zero]
        exact covered
      · refine .inr ⟨by simp [charges, failures, fail, own], ?_, one'.trans covered⟩
        rw [none, uncharged, add_zero]
        push_cast
        exact le_rfl
    · rw [after, stage] at pending uncharged
      simp at pending uncharged
      have fewer : (d'.pending key : ℚ) + 1 = d.pending key := by exact_mod_cast pending
      have fewer' : (d'.uncharged key : ℚ) + 1 = d.uncharged key := by exact_mod_cast uncharged
      have none : (0 : ℚ) ≤ d'.pending key := Nat.cast_nonneg _
      have one : cost key d event = 1 := by
        unfold cost
        rw [if_pos ⟨charge, by linarith⟩]
      apply accounted.onward on paid time follows' least
      · rw [one]
        linarith
      · exact .inl ⟨quiet fine, by rw [one]; linarith⟩
    · have none : cost key d event = 0 := by simp [cost, free]
      have fewer : d'.pending key ≤ d.pending key := by
        cases past : (a.stage.after event).pending with
        | false =>
          simp only [past, Bool.false_eq_true, if_false, add_zero] at pending
          omega
        | true =>
          simp only [past, held past, if_true] at pending
          omega
      have fewer' : (d'.pending key : ℚ) ≤ d.pending key := by exact_mod_cast fewer
      simp [unfailed, after] at uncharged
      apply accounted.onward on paid time follows' least
      · rw [none, add_zero]
        exact fewer'.trans covered
      · exact .inl ⟨quiet fine, by rw [none, uncharged, add_zero]⟩
  · have elsewhere : event.1 ≠ .spend key := by
      intro charge
      obtain ⟨call, answer⟩ := event
      cases charge
      exact own may.1.symm
    have free : cost key d event = 0 := by simp [cost, elsewhere]
    have same : d'.charges key = d.charges key := by
      simp only [charges, failures]
      split <;> simp [own]
    simp only [own, false_and, if_false, add_zero] at pending uncharged
    apply accounted.onward on paid time follows' least
    · rw [free, pending, add_zero]
      exact covered
    · exact .inl ⟨same, by rw [free, uncharged, add_zero]⟩

theorem Accounted.quiet {lag : Nat} (accounted : Accounted fixed start key d) (on : fixed.authFailPerIP.enabled = true)
    (paid : Paid d key lag 0 d'.limiter) (time : d'.clock = d.clock + lag) (failures : d'.failures = d.failures)
    (follows : ∀ a ∈ d'.attempts, Follows (judging a.key) (Charged a.key) a.job a.stage)
    (pending : d'.pending key ≤ d.pending key) (uncharged : d'.uncharged key = d.uncharged key) :
    Accounted fixed start key d' := by
  apply accounted.onward on paid time follows le_rfl
  · have fewer : (d'.pending key : ℚ) ≤ d.pending key := by exact_mod_cast pending
    linarith [accounted.covered]
  · left
    rw [uncharged, add_zero]
    exact ⟨by simp [charges, failures], le_rfl⟩

theorem Accounted.next {move : AuthMove} (accounted : Accounted fixed start key d) (named : key ≠ [])
    (on : fixed.authFailPerIP.enabled = true) (covers : d.Covered key move) (next : d.next text move = some d') :
    Accounted fixed start key d' := by
  have on' : d.limiter.rules.authFailPerIP.enabled = true := by
    rw [accounted.rules]
    exact on
  have sound := accounted.sound
  have still := Paid.idle sound on' key 0
  have now : d.clock = d.clock + (0 : Nat) := by omega
  cases move with
  | attempt remote username password =>
    cases next
    refine accounted.quiet on still now rfl ?_ ?_ ?_
    · intro a member
      rcases List.mem_cons.mp member with rfl | old
      · exact verify_follows _ username password
      · exact accounted.follows a old
    · by_cases unnamed : authRateKey text remote = []
      · simp [AuthDesk.pending, unnamed, named.symm]
      · simp [AuthDesk.pending, unnamed]
    · by_cases unnamed : authRateKey text remote = []
      · simp [AuthDesk.uncharged, unnamed, named.symm]
      · simp [AuthDesk.uncharged, unnamed]
  | work i event lag => exact accounted.work named on covers next
  | finish i =>
    obtain ⟨a, here, next⟩ := Option.bind_eq_some_iff.mp next
    have follows := accounted.follows a (List.mem_of_getElem? here)
    have perm := perm_eraseIdx here
    cases done : a.job with
    | call request rest =>
      rw [done] at next
      cases next
    | done reply =>
      rw [done] at next follows
      cases next
      refine accounted.quiet on still now rfl ?_ ?_ ?_
      · intro b member
        exact accounted.follows b (List.mem_of_mem_eraseIdx member)
      · exact (List.eraseIdx_sublist d.attempts i).countP_le
      · have settled : ¬ (a.key = key ∧ a.stage = .failed) := by
          intro open_
          exact named (open_.1 ▸ follows open_.2)
        unfold AuthDesk.uncharged
        rw [← perm.countP_eq, List.countP_cons]
        simp [settled]
  | limit request other lag =>
    simp only [AuthDesk.next] at next
    split at next
    · cases next
    · rename_i elsewhere
      cases next
      have different : (⟨.authFailPerIP, key⟩ : Key) ≠ other := by
        intro same
        cases same
        exact elsewhere rfl
      have goes : d.clock ≤ d.clock + lag := by omega
      have served := Limiter.serve_fst d.limiter ⟨request, other, d.clock, d.clock + lag⟩
      have others := Limiter.take_others (request ≠ .blocked) sound le_rfl goes different on'
      obtain ⟨rules, sound', level⟩ := served ▸ others
      have paid : Paid d key lag 0 (d.limiter.serve ⟨request, other, d.clock, d.clock + lag⟩).1 :=
        ⟨rules, sound', level.trans (Paid.idle sound on' key lag).level⟩
      exact accounted.quiet on paid rfl rfl accounted.follows le_rfl rfl
  | wait time =>
    cases next
    exact accounted.quiet on (Paid.idle sound on' key time) rfl rfl accounted.follows le_rfl rfl

end AuthDesk

section Samples

instance decidableCovered (key : Name) (d : AuthDesk) : (move : AuthMove) → Decidable (d.Covered key move)
  | .work _ ⟨.blocked _, _⟩ _ => inferInstanceAs (Decidable (_ → _ → _))
  | .work _ ⟨.spend _, _⟩ _ => inferInstanceAs (Decidable (_ → _))
  | .work _ ⟨.lookup _, _⟩ _ | .work _ ⟨.enter, _⟩ _ | .work _ ⟨.compare _ _, _⟩ _ => inferInstanceAs (Decidable True)
  | .attempt _ _ _ | .finish _ | .limit _ _ _ | .wait _ => inferInstanceAs (Decidable True)

def guesser : Name := "192.0.2.1".toList

def failures (rate : Nat) : Ratelimit.Rules := { authFailPerIP := { rate, per := 60000000000 } }

def wrong (i : Nat) : List AuthMove :=
  [.work i ⟨.compare dummyHash [], false⟩ 0, .work i ⟨.spend guesser, ()⟩ 0]

end Samples

end Mailgw.Smtp
