import Mailgw.Lists.Replace
import Mailgw.Store.Claims

namespace Mailgw.Store

open Calls Lists Queue

def signingIn (presented : Name) : Stages LoginCall LoginCall.Answer LoginStage where
  may
    | .readCode, stage => stage = .reading
    | .insert _ _ _ _, stage => stage = .matched
    | _, _ => True
  can _ _ := True
  after call answer stage := stage.after presented ⟨call, answer⟩

theorem newSession_follows (presented : Name) :
    Follows (signingIn presented) (fun _ _ => True) newSession .matched := by
  apply Follows.ask trivial
  intro now _
  apply Follows.ask trivial
  intro id _
  cases id with
  | none => exact trivial
  | some id =>
    apply Follows.ask trivial
    intro csrf _
    cases csrf with
    | none => exact trivial
    | some csrf =>
      apply Follows.ask trivial
      intro swept _
      cases swept with
      | false => exact trivial
      | true =>
        apply Follows.ask rfl
        intro inserted _
        exact trivial

theorem checkClaimCode_follows (presented : Name) :
    Follows (signingIn presented) (fun right stage => right = some true → stage = .matched) (checkClaimCode presented) .reading := by
  apply Follows.ask rfl
  intro stored _
  cases stored with
  | none =>
    intro right
    cases right
  | some stored =>
    dsimp only
    by_cases unset : stored = []
    · rw [if_pos unset]
      intro right
      cases right
    rw [if_neg unset]
    by_cases wrong : normalizeClaimCode presented ≠ stored
    · rw [if_pos wrong]
      intro right
      cases right
    rw [if_neg wrong]
    have matched : LoginStage.after presented ⟨.readCode, some stored⟩ .reading = .matched := by
      simp [LoginStage.after, not_not.mp wrong, unset]
    have reached : (signingIn presented).after .readCode (some stored) .reading = .matched := matched
    rw [reached]
    apply Follows.ask trivial
    intro claimed _
    cases claimed with
    | none =>
      intro right
      cases right
    | some claimed =>
      cases claimed with
      | some time =>
        intro _
        rfl
      | none =>
        apply Follows.ask trivial
        intro written _ _
        rfl

theorem handleClaim_follows (presented : Name) :
    Follows (signingIn presented) (fun _ _ => True) (handleClaim presented) .reading := by
  apply Follows.bind
  apply (checkClaimCode_follows presented).mono
  intro right stage matched
  match right with
  | none => exact trivial
  | some false => exact trivial
  | some true =>
    rw [matched rfl]
    apply Follows.bind
    apply (newSession_follows presented).mono
    intro id _ _
    cases id <;> exact trivial

def Login.finished (l : Login) : Bool :=
  match l.job with
  | .done _ => true
  | .call _ _ => false

namespace AdminDesk

/-- A reset commits only while no login is between the comparison of its code and its session. -/
def Quiet (d : AdminDesk) : AdminMove → Prop
  | .reset _ => ∀ l ∈ d.logins, l.stage = .matched → l.finished = true
  | _ => True

variable {d d' : AdminDesk} {event : Signing} {epoch : Nat}

theorem serve_frame (served : d.serve epoch event = some d') : d'.logins = d.logins ∧ d'.epoch = d.epoch := by
  obtain ⟨call, answer⟩ := event
  cases call <;> simp only [serve] at served
  case token =>
    cases served
    exact ⟨rfl, rfl⟩
  case insert =>
    split at served
    · split at served
      · cases served
        exact ⟨rfl, rfl⟩
      · cases served
    · cases served
      exact ⟨rfl, rfl⟩
  all_goals
    split at served
    · cases served
      exact ⟨rfl, rfl⟩
    · cases served
      try exact ⟨rfl, rfl⟩

theorem serve_sessions (served : d.serve epoch event = some d') {id : Name} {s : AdminSession}
    (here : d'.sessions.get id = some s) :
    d.sessions.get id = some s ∨ s.epoch = epoch ∧ ∃ id csrf now expiresAt, event.1 = .insert id csrf now expiresAt := by
  obtain ⟨call, answer⟩ := event
  cases call <;> simp only [serve] at served
  case token =>
    cases served
    exact .inl here
  case insert id' csrf now expiresAt =>
    split at served
    · split at served
      · cases served
        by_cases own : id = id'
        · subst own
          rw [Table.get_set] at here
          cases here
          exact .inr ⟨rfl, _, _, _, _, rfl⟩
        · rw [Table.get_set_ne own] at here
          exact .inl here
      · cases served
    · cases served
      exact .inl here
  case sweep now =>
    split at served
    · cases served
      rw [Table.get_keep, Option.filter_eq_some_iff] at here
      exact .inl here.1
    · cases served
      exact .inl here
  all_goals
    split at served
    · cases served
      exact .inl here
    · cases served
      try exact .inl here

/-- Every session, and every login that may still get one, has presented the code that is in force. -/
structure Current (d : AdminDesk) : Prop where
  follows : ∀ l ∈ d.logins, Follows (signingIn l.presented) (fun _ _ => True) l.job l.stage
  matched : ∀ l ∈ d.logins, l.stage = .matched → l.finished = true ∨ l.epoch = d.epoch
  sessions : ∀ id s, d.sessions.get id = some s → s.epoch = d.epoch

theorem matched_before {presented : Name} {stage : LoginStage} (later : event.1 ≠ .readCode)
    (matched : stage.after presented event = .matched) : stage = .matched := by
  obtain ⟨call, answer⟩ := event
  cases call with
  | readCode => exact absurd rfl later
  | insert id csrf now expiresAt => cases matched
  | readClaimed | writeClaimed | now | token | sweep now => exact matched

theorem Current.work {i : Nat} (current : d.Current) (next : d.next (.work i event) = some d') : d'.Current := by
  obtain ⟨l, here, next⟩ := Option.bind_eq_some_iff.mp next
  obtain ⟨job, made, next⟩ := Option.bind_eq_some_iff.mp next
  obtain ⟨between, served, next⟩ := Option.bind_eq_some_iff.mp next
  have member := List.mem_of_getElem? here
  obtain ⟨may, onward⟩ := (current.follows l member).step trivial made
  obtain ⟨logins, epoch⟩ := serve_frame served
  have running : l.finished = false := by
    obtain ⟨rest, call, _⟩ := Prog.step_inv made
    simp [Login.finished, call]
  have held : l.stage = .matched → l.epoch = d.epoch := by
    intro stage
    rcases current.matched l member stage with done | same
    · rw [running] at done
      cases done
    · exact same
  cases next
  constructor
  · intro l' member'
    rcases mem_replace member' with rfl | old
    · exact onward
    · rw [logins] at old
      exact current.follows l' old
  · intro l' member' stage
    rcases mem_replace member' with rfl | old
    · right
      dsimp only at stage ⊢
      split
      · rfl
      · rename_i later
        rw [epoch]
        exact held (matched_before later stage)
    · rw [logins] at old
      dsimp only
      rw [epoch]
      exact current.matched l' old stage
  · intro id s there
    dsimp only at there ⊢
    rw [epoch]
    rcases serve_sessions served there with old | ⟨same, id', csrf, now, expiresAt, call⟩
    · exact current.sessions id s old
    · obtain ⟨call', answer⟩ := event
      cases call
      rw [same, held may]

theorem Current.next {move : AdminMove} (current : d.Current) (quiet : d.Quiet move) (next : d.next move = some d') :
    d'.Current := by
  cases move with
  | work i event => exact current.work next
  | login presented =>
    cases next
    constructor
    · intro l member
      rcases List.mem_cons.mp member with rfl | old
      · exact handleClaim_follows presented
      · exact current.follows l old
    · intro l member stage
      rcases List.mem_cons.mp member with rfl | old
      · cases stage
      · exact current.matched l old stage
    · exact current.sessions
  | leave i =>
    cases next
    constructor
    · intro l member
      exact current.follows l (List.mem_of_mem_eraseIdx member)
    · intro l member stage
      exact current.matched l (List.mem_of_mem_eraseIdx member) stage
    · exact current.sessions
  | logout id =>
    simp only [AdminDesk.next] at next
    split at next
    · cases next
      exact current
    · cases next
      refine ⟨current.follows, current.matched, ?_⟩
      intro id' s there
      dsimp only at there
      rw [Table.del, Table.get_keep, Option.filter_eq_some_iff] at there
      exact current.sessions id' s there.1
  | lookup id =>
    cases next
    exact current
  | ensure code =>
    simp only [AdminDesk.next] at next
    split at next
    · cases next
      exact ⟨current.follows, current.matched, current.sessions⟩
    · cases next
      exact current
  | reset code =>
    cases next
    constructor
    · exact current.follows
    · intro l member stage
      exact .inl (quiet l member stage)
    · intro id s none
      cases none
  | tick clock =>
    cases next
    exact ⟨current.follows, current.matched, current.sessions⟩

end AdminDesk

/-- While no reset commits between the comparison of a code and the session it earns, a valid session
    was always obtained with the code in force. -/
theorem reset_revokes (d : AdminDesk) (reachable : Reachable AdminDesk.next AdminDesk.Quiet {} d)
    (id : Name) (s : AdminSession) (valid : d.session id = some s) : s.epoch = d.epoch := by
  have current : d.Current := by
    apply reachable.invariant AdminDesk.Current
    · constructor
      · intro l none
        cases none
      · intro l none
        cases none
      · intro id s none
        cases none
    · intro d move d' current quiet next
      exact current.next quiet next
  unfold AdminDesk.session at valid
  split at valid
  · cases valid
  · exact current.sessions id s (Option.filter_eq_some_iff.mp valid).1

section Samples

def firstCode : Name := "00000-00000-00000-00000".toList
def secondCode : Name := "11111-11111-11111-11111".toList

def presents (code : Name) : List AdminMove :=
  [.login code, .work 0 ⟨.readCode, some code⟩, .work 0 ⟨.readClaimed, some none⟩, .work 0 ⟨.writeClaimed, true⟩]

def getsSession : List AdminMove :=
  [.work 0 ⟨.now, 0⟩, .work 0 ⟨.token, some ['a']⟩, .work 0 ⟨.token, some ['b']⟩, .work 0 ⟨.sweep 0, true⟩,
    .work 0 ⟨.insert ['a'] ['b'] 0 sessionTTL, true⟩]

def inTurn : List AdminMove := .ensure firstCode :: presents firstCode ++ getsSession ++
  [.reset secondCode] ++ presents secondCode ++ getsSession

def straddling : List AdminMove := .ensure firstCode :: presents firstCode ++ [.reset secondCode] ++ getsSession

instance decidableQuiet (d : AdminDesk) : (move : AdminMove) → Decidable (d.Quiet move)
  | .reset _ => inferInstanceAs (Decidable (∀ l ∈ d.logins, _ → _))
  | .login _ | .work _ _ | .leave _ | .logout _ | .lookup _ | .ensure _ | .tick _ => inferInstanceAs (Decidable True)

theorem reset_revokes_sample : ∃ d, play AdminDesk.next (fun d move => decide (d.Quiet move)) {} inTurn = some d ∧
    ∃ s, d.session ['a'] = some s ∧ s.epoch = d.epoch ∧ d.epoch = 1 := by
  have held : (play AdminDesk.next (fun d move => decide (d.Quiet move)) {} inTurn).any
      (fun d => (d.session ['a']).isSome && decide (d.epoch = 1)) = true := by decide
  obtain ⟨d, played, checked⟩ := (Option.any_eq_true _ _).mp held
  rw [Bool.and_eq_true, decide_eq_true_eq] at checked
  obtain ⟨s, valid⟩ := Option.isSome_iff_exists.mp checked.1
  have reachable : Reachable AdminDesk.next AdminDesk.Quiet {} d :=
    reachable_of_play (fun _ _ quiet => of_decide_eq_true quiet) inTurn played
  exact ⟨d, played, s, valid, reset_revokes d reachable ['a'] s valid, checked.2⟩

/-- A login that straddles the reset gets a session for the code that was revoked. -/
theorem session_outlives_reset : ¬ ∀ d, Reachable AdminDesk.next (fun _ _ => True) {} d →
    ∀ id s, d.session id = some s → s.epoch = d.epoch := by
  intro revoked
  have held : (play AdminDesk.next (fun _ _ => true) {} straddling).any
      (fun d => (d.session ['a']).any fun s => decide (s.epoch ≠ d.epoch)) = true := by decide
  obtain ⟨d, played, checked⟩ := (Option.any_eq_true _ _).mp held
  obtain ⟨s, valid, stale⟩ := (Option.any_eq_true _ _).mp checked
  exact of_decide_eq_true stale (revoked d (reachable_of_play (fun _ _ _ => trivial) straddling played) ['a'] s valid)

end Samples

end Mailgw.Store
