import Mailgw.Smtp.Admission

namespace Mailgw.Smtp

open Calls Lists

def closing (wrapper : Wrapper) : Stages CloseCall CloseCall.Answer CloseStage where
  may
    | .inner, stage => stage = .before
    | .enter, stage => stage = .before ∧ wrapper ≠ .plain
    | .readRelease, stage => stage = .inside
    | .receive, stage => stage = .releasing
    | .leave, stage => stage = .spent
  can _ _ := True
  after call answer stage := stage.next wrapper ⟨call, answer⟩

theorem close_follows (wrapper : Wrapper) :
    Follows (closing wrapper) (fun _ stage => stage = .after) wrapper.close .before := by
  cases wrapper with
  | plain =>
    constructor
    · rfl
    · intro _ _
      rfl
  | slot =>
    apply Follows.ask rfl
    intro err _
    have unlike : Wrapper.slot ≠ .plain := Wrapper.noConfusion
    apply Follows.ask (And.intro rfl unlike)
    intro first _
    cases first with
    | false => rfl
    | true =>
      apply Follows.ask rfl
      intro armed _
      cases armed with
      | false =>
        apply Follows.ask rfl
        intro _ _
        rfl
      | true =>
        apply Follows.ask rfl
        intro _ _
        apply Follows.ask rfl
        intro _ _
        rfl
  | limit =>
    apply Follows.ask rfl
    intro err _
    have unlike : Wrapper.limit ≠ .plain := Wrapper.noConfusion
    apply Follows.ask (And.intro rfl unlike)
    intro first _
    cases first with
    | false => rfl
    | true =>
      apply Follows.ask rfl
      intro _ _
      apply Follows.ask rfl
      intro _ _
      rfl

def CloseStage.within : CloseStage → Bool
  | .inside | .releasing | .spent => true
  | _ => false

structure Closer.Fits (k : Nat) (x : Closer) (c : Connection) : Prop where
  alone : x.stage.within = true → c.once = .running k
  unspent : x.stage = .inside → c.released = 0
  releasing : x.stage = .releasing → c.phase = .admitted ∧ c.released = 0
  spent : x.stage = .spent → c.phase = .admitted → c.released = 1
  after : x.stage = .after → x.wrapper ≠ .plain → c.once = .done
  plain : x.wrapper = .plain → c.phase = .refused
  limit : x.wrapper = .limit → c.phase = .admitted

theorem Closer.Fits.metered {k : Nat} {x : Closer} {c : Connection} (fits : x.Fits k c) (admitted : c.phase = .admitted) :
    x.wrapper ≠ .plain := by
  intro plain
  have refused := fits.plain plain
  rw [admitted] at refused
  cases refused

theorem Closer.Fits.outside {k : Nat} {x : Closer} {c c' : Connection} (fits : x.Fits k c) (out : x.stage.within = false)
    (phase : c'.phase = c.phase) (after : x.stage = .after → x.wrapper ≠ .plain → c'.once = .done) : x.Fits k c' := by
  have elsewhere : ∀ stage : CloseStage, stage.within = true → x.stage ≠ stage := by
    intro stage within same
    rw [same, within] at out
    cases out
  constructor
  · intro within
    rw [out] at within
    cases within
  · exact fun stage => absurd stage (elsewhere .inside rfl)
  · exact fun stage => absurd stage (elsewhere .releasing rfl)
  · exact fun stage => absurd stage (elsewhere .spent rfl)
  · exact after
  · rw [phase]
    exact fits.plain
  · rw [phase]
    exact fits.limit

namespace CapDesk

/-- The slots taken are those of the connections that hold one, and each gives it back once. -/
structure Balanced (cap : Nat) (d : CapDesk) : Prop where
  taken : d.taken = d.conns.countP Connection.occupies
  bounded : d.taken ≤ cap
  once : ∀ c ∈ d.conns, c.released ≤ 1
  fresh : ∀ c ∈ d.conns, c.once = .fresh → c.released = 0
  done : ∀ c ∈ d.conns, c.once = .done → c.phase = .admitted → c.released = 1
  given : ∀ (i : Nat) (c : Connection), d.conns[i]? = some c → 0 < c.released →
    c.phase = .admitted ∧ i ∈ d.closers.map Closer.conn
  unclosed : ∀ (i : Nat) (c : Connection), d.conns[i]? = some c → c.phase = .offered ∨ c.phase = .holding →
    c.once = .fresh ∧ ∀ x ∈ d.closers, x.conn ≠ i
  follows : ∀ x ∈ d.closers, Follows (closing x.wrapper) (fun _ stage => stage = .after) x.job x.stage
  fits : ∀ (k : Nat) (x : Closer), d.closers[k]? = some x → ∃ c, d.conns[x.conn]? = some c ∧ x.Fits k c

variable {cap : Nat} {d d' : CapDesk} {i k : Nat} {c : Connection}

theorem Balanced.rephase {phase : ConnPhase} {taken : Nat} (balanced : d.Balanced cap) (here : d.conns[i]? = some c)
    (unclosed : c.phase = .offered ∨ c.phase = .holding)
    (moves : taken + (if c.occupies then 1 else 0) = d.taken + (if Connection.occupies { c with phase } then 1 else 0))
    (bounded : taken ≤ cap) : Balanced cap { d.setConn i { c with phase } with taken } := by
  obtain ⟨unopened, nobody⟩ := balanced.unclosed i c here unclosed
  have member := List.mem_of_getElem? here
  have none := balanced.fresh c member unopened
  constructor
  · have counts := countP_replace Connection.occupies (y := { c with phase }) here
    have before := balanced.taken
    dsimp only [setConn] at moves ⊢
    omega
  · exact bounded
  · intro c' member'
    rcases mem_replace member' with rfl | old
    · dsimp only
      omega
    · exact balanced.once c' old
  · intro c' member' opened
    rcases mem_replace member' with rfl | old
    · exact none
    · exact balanced.fresh c' old opened
  · intro c' member' closed
    rcases mem_replace member' with rfl | old
    · dsimp only at closed
      rw [unopened] at closed
      cases closed
    · exact balanced.done c' old closed
  · intro j c' there gave
    rcases getElem?_replace there with ⟨rfl, rfl⟩ | ⟨_, old⟩
    · dsimp only at gave
      omega
    · exact balanced.given j c' old gave
  · intro j c' there waits
    rcases getElem?_replace there with ⟨rfl, rfl⟩ | ⟨_, old⟩
    · exact ⟨unopened, nobody⟩
    · exact balanced.unclosed j c' old waits
  · exact balanced.follows
  · intro k x there
    obtain ⟨c', conn, fits⟩ := balanced.fits k x there
    have other : x.conn ≠ i := nobody x (List.mem_of_getElem? there)
    exact ⟨c', (List.getElem?_set_ne (Ne.symm other)).trans conn, fits⟩

theorem Balanced.goes {x : Closer} {c' : Connection} {taken : Nat} {stage : CloseStage} {left : CloseJob Bool}
    (balanced : d.Balanced cap) (there : d.closers[k]? = some x) (here : d.conns[x.conn]? = some c)
    (follows : Follows (closing x.wrapper) (fun _ stage => stage = .after) left stage) (phase : c'.phase = c.phase)
    (fits : Closer.Fits k { x with stage, job := left } c')
    (moves : taken + (if c.occupies then 1 else 0) = d.taken + (if c'.occupies then 1 else 0)) (bounded : taken ≤ cap)
    (once : c'.released ≤ 1) (fresh : c'.once = .fresh → c'.released = 0)
    (done : c'.once = .done → c'.phase = .admitted → c'.released = 1) (given : 0 < c'.released → c.phase = .admitted)
    (others : ∀ (j : Nat) (y : Closer), j ≠ k → d.closers[j]? = some y → y.conn = x.conn → y.Fits j c → y.Fits j c') :
    Balanced cap { d.setConn x.conn c' with taken, closers := d.closers.set k { x with stage, job := left } } := by
  have short := (List.getElem?_eq_some_iff.mp here).1
  have mine := List.mem_of_getElem? there
  constructor
  · have counts := countP_replace Connection.occupies (y := c') here
    have before := balanced.taken
    dsimp only [setConn] at moves ⊢
    omega
  · exact bounded
  · intro c'' member
    rcases mem_replace member with rfl | old
    · exact once
    · exact balanced.once c'' old
  · intro c'' member opened
    rcases mem_replace member with rfl | old
    · exact fresh opened
    · exact balanced.fresh c'' old opened
  · intro c'' member closed
    rcases mem_replace member with rfl | old
    · exact done closed
    · exact balanced.done c'' old closed
  · intro j c'' at_ gave
    have same : (d.closers.set k { x with stage, job := left }).map Closer.conn = d.closers.map Closer.conn :=
      map_replace Closer.conn there rfl
    rw [same]
    rcases getElem?_replace at_ with ⟨rfl, rfl⟩ | ⟨_, old⟩
    · exact ⟨phase.trans (given gave), List.mem_map_of_mem mine⟩
    · exact balanced.given j c'' old gave
  · intro j c'' at_ waits
    have untouched : ∀ c₀, d.conns[j]? = some c₀ → c₀.phase = .offered ∨ c₀.phase = .holding → j ≠ x.conn := by
      intro c₀ old waits' own
      exact (balanced.unclosed j c₀ old waits').2 x mine own.symm
    rcases getElem?_replace at_ with ⟨rfl, rfl⟩ | ⟨other, old⟩
    · rw [phase] at waits
      exact absurd rfl (untouched c here waits)
    · obtain ⟨unopened, nobody⟩ := balanced.unclosed j c'' old waits
      refine ⟨unopened, ?_⟩
      intro y member
      rcases mem_replace member with rfl | old'
      · exact Ne.symm other
      · exact nobody y old'
  · intro y member
    rcases mem_replace member with rfl | old
    · exact follows
    · exact balanced.follows y old
  · intro j y at_
    rcases getElem?_replace at_ with ⟨rfl, rfl⟩ | ⟨other, old⟩
    · exact ⟨c', List.getElem?_set_self short, fits⟩
    · obtain ⟨c'', conn, fits'⟩ := balanced.fits j y old
      by_cases own : y.conn = x.conn
      · rw [own, here] at conn
        cases conn
        exact ⟨c', by rw [own]; exact List.getElem?_set_self short, others j y other old own fits'⟩
      · exact ⟨c'', (List.getElem?_set_ne (Ne.symm own)).trans conn, fits'⟩

theorem Balanced.waits {x : Closer} {stage : CloseStage} {left : CloseJob Bool} (balanced : d.Balanced cap)
    (there : d.closers[k]? = some x) (here : d.conns[x.conn]? = some c)
    (follows : Follows (closing x.wrapper) (fun _ stage => stage = .after) left stage)
    (fits : Closer.Fits k { x with stage, job := left } c) :
    Balanced cap { d with closers := d.closers.set k { x with stage, job := left } } := by
  have member := List.mem_of_getElem? here
  have still : d.conns.set x.conn c = d.conns := by
    obtain ⟨short, rfl⟩ := List.getElem?_eq_some_iff.mp here
    exact List.set_getElem_self short
  have goes := balanced.goes there here follows rfl fits rfl balanced.bounded (balanced.once c member)
    (balanced.fresh c member) (balanced.done c member) (fun gave => (balanced.given x.conn c here gave).1)
    fun _ _ _ _ _ fits => fits
  simp only [setConn, still] at goes
  exact goes

theorem Balanced.work {event : Closing} (balanced : d.Balanced cap) (next : d.next cap (.work k event) = some d') :
    d'.Balanced cap := by
  obtain ⟨x, there, next⟩ := Option.bind_eq_some_iff.mp next
  obtain ⟨left, made, next⟩ := Option.bind_eq_some_iff.mp next
  obtain ⟨c, here, next⟩ := Option.bind_eq_some_iff.mp next
  obtain ⟨between, served, next⟩ := Option.bind_eq_some_iff.mp next
  have member := List.mem_of_getElem? here
  obtain ⟨may, onward⟩ := (balanced.follows x (List.mem_of_getElem? there)).step trivial made
  obtain ⟨c', here', fits⟩ := balanced.fits k x there
  rw [here] at here'
  cases here'
  obtain ⟨call, answer⟩ := event
  replace onward : Follows (closing x.wrapper) (fun _ stage => stage = .after) left (x.stage.next x.wrapper ⟨call, answer⟩) := onward
  cases call with
  | inner =>
    have before : x.stage = .before := may
    cases served
    cases next
    apply balanced.waits there here onward
    by_cases plain : x.wrapper = .plain
    · constructor <;> simp [CloseStage.next, CloseStage.within, plain, fits.plain plain]
    · have still : x.stage.next x.wrapper ⟨.inner, answer⟩ = .before := by simp [CloseStage.next, plain, before]
      rw [still, ← before]
      exact ⟨fits.alone, fits.unspent, fits.releasing, fits.spent, fits.after, fits.plain, fits.limit⟩
  | enter =>
    obtain ⟨before, wrapped⟩ := may
    simp only [serve] at served
    cases opened : c.once with
    | running j =>
      rw [opened] at served
      cases served
    | done =>
      rw [opened] at served
      dsimp only at served
      split at served
      · cases served
      · rename_i late
        cases served
        cases next
        apply balanced.waits there here onward
        constructor <;> simp_all [CloseStage.next, CloseStage.within, fits.limit]
    | fresh =>
      rw [opened] at served
      dsimp only at served
      split at served
      · rename_i first
        cases served
        cases next
        have none := balanced.fresh c member opened
        apply balanced.goes there here onward
        · rfl
        · by_cases limited : x.wrapper = .limit
          · constructor <;> simp [CloseStage.next, CloseStage.within, first, limited, none, fits.limit limited]
          · constructor <;> simp [CloseStage.next, CloseStage.within, first, limited, none, wrapped]
        · rfl
        · exact balanced.bounded
        · exact balanced.once c member
        · intro _
          exact none
        · intro closed
          cases closed
        · intro gave
          dsimp only at gave
          omega
        · intro j y _ _ _ fits'
          apply fits'.outside
          · cases within : y.stage.within with
            | false => rfl
            | true =>
              have running := fits'.alone within
              rw [opened] at running
              cases running
          · rfl
          · intro after wrapped'
            have closed := fits'.after after wrapped'
            rw [opened] at closed
            cases closed
      · cases served
  | readRelease =>
    have inside : x.stage = .inside := may
    have alone := fits.alone (by rw [inside]; rfl)
    have none := fits.unspent inside
    simp only [serve] at served
    split at served
    · rename_i read
      cases served
      cases next
      apply balanced.waits there here onward
      by_cases admitted : c.phase = .admitted
      · have armed : answer = true := by simpa [admitted] using read
        have unlike : x.wrapper ≠ .plain := fits.metered admitted
        constructor <;> simp [CloseStage.next, CloseStage.within, armed, alone, none, admitted, unlike]
      · have armed : answer = false := by simpa [admitted] using read
        have unlike : x.wrapper ≠ .limit := fun limit => admitted (fits.limit limit)
        constructor <;> simp [CloseStage.next, CloseStage.within, armed, alone, admitted, unlike]
        exact fits.plain
    · cases served
  | receive =>
    have releasing : x.stage = .releasing := may
    obtain ⟨admitted, none⟩ := fits.releasing releasing
    have alone := fits.alone (by rw [releasing]; rfl)
    have occupies : c.occupies = true := by simp [Connection.occupies, admitted, none]
    have some_ : 0 < d.taken := by
      rw [balanced.taken]
      exact List.countP_pos_iff.mpr ⟨c, member, occupies⟩
    simp only [serve, if_pos some_] at served
    cases served
    cases next
    apply balanced.goes there here onward
    · rfl
    · have unlike : x.wrapper ≠ .plain := fits.metered admitted
      constructor <;> simp [CloseStage.next, CloseStage.within, alone, none, admitted, unlike]
    · have freed : Connection.occupies { c with released := c.released + 1 } = false := by
        simp [Connection.occupies, admitted]
      rw [occupies, freed, if_pos rfl, if_neg Bool.false_ne_true]
      dsimp only
      omega
    · have bounded := balanced.bounded
      dsimp only
      omega
    · dsimp only
      omega
    · intro opened
      dsimp only at opened
      rw [alone] at opened
      cases opened
    · intro closed
      dsimp only at closed
      rw [alone] at closed
      cases closed
    · intro _
      exact admitted
    · intro j y other _ _ fits'
      apply fits'.outside
      · cases within : y.stage.within with
        | false => rfl
        | true =>
          have running := fits'.alone within
          rw [alone] at running
          cases running
          exact absurd rfl other
      · rfl
      · intro after wrapped
        have closed := fits'.after after wrapped
        rw [alone] at closed
        cases closed
  | leave =>
    have spent : x.stage = .spent := may
    have alone := fits.alone (by rw [spent]; rfl)
    cases served
    cases next
    apply balanced.goes there here onward
    · rfl
    · constructor <;> simp [CloseStage.next, CloseStage.within]
      · exact fits.plain
      · exact fits.limit
    · rfl
    · exact balanced.bounded
    · exact balanced.once c member
    · intro opened
      cases opened
    · intro _ admitted
      exact fits.spent spent admitted
    · intro gave
      exact (balanced.given x.conn c here gave).1
    · intro j y other _ _ fits'
      apply fits'.outside
      · cases within : y.stage.within with
        | false => rfl
        | true =>
          have running := fits'.alone within
          rw [alone] at running
          cases running
          exact absurd rfl other
      · rfl
      · intro _ _
        rfl

theorem Balanced.accept (balanced : d.Balanced cap) (conn : NetConn) :
    Balanced cap { d with conns := d.conns ++ [{ conn }] } := by
  have idle : Connection.occupies { conn } = false := rfl
  have known : ∀ x ∈ d.closers, x.conn < d.conns.length := by
    intro x member
    obtain ⟨k, there⟩ := List.getElem?_of_mem member
    obtain ⟨c, here, _⟩ := balanced.fits k x there
    exact (List.getElem?_eq_some_iff.mp here).1
  constructor
  · simp [List.countP_append, idle, balanced.taken]
  · exact balanced.bounded
  · intro c member
    rcases List.mem_append.mp member with old | new
    · exact balanced.once c old
    · simp [List.mem_singleton.mp new]
  · intro c member opened
    rcases List.mem_append.mp member with old | new
    · exact balanced.fresh c old opened
    · simp [List.mem_singleton.mp new]
  · intro c member closed admitted
    rcases List.mem_append.mp member with old | new
    · exact balanced.done c old closed admitted
    · simp [List.mem_singleton.mp new] at closed
  · intro i c here gave
    rcases getElem?_added here with ⟨_, rfl⟩ | ⟨_, old⟩
    · cases gave
    · exact balanced.given i c old gave
  · intro i c here waits
    rcases getElem?_added here with ⟨last, rfl⟩ | ⟨_, old⟩
    · apply And.intro rfl
      intro x member same
      have short := known x member
      omega
    · exact balanced.unclosed i c old waits
  · exact balanced.follows
  · intro k x there
    obtain ⟨c, here, fits⟩ := balanced.fits k x there
    have short := known x (List.mem_of_getElem? there)
    exact ⟨c, (List.getElem?_append_left short).trans here, fits⟩

theorem Balanced.close (balanced : d.Balanced cap) (here : d.conns[i]? = some c)
    (phase : c.phase = .admitted ∨ c.phase = .refused) :
    Balanced cap { d with closers := d.closers ++ [{ conn := i, wrapper := c.wrapper, job := c.wrapper.close }] } := by
  constructor
  · exact balanced.taken
  · exact balanced.bounded
  · exact balanced.once
  · exact balanced.fresh
  · exact balanced.done
  · intro j c' here' gave
    obtain ⟨admitted, closed⟩ := balanced.given j c' here' gave
    rw [List.map_append]
    exact ⟨admitted, List.mem_append_left _ closed⟩
  · intro j c' here' waits
    obtain ⟨unopened, nobody⟩ := balanced.unclosed j c' here' waits
    apply And.intro unopened
    intro x member
    rcases List.mem_append.mp member with old | new
    · exact nobody x old
    · rw [List.mem_singleton.mp new]
      rintro rfl
      rw [here] at here'
      cases here'
      rcases phase with phase | phase <;> simp [phase] at waits
  · intro x member
    rcases List.mem_append.mp member with old | new
    · exact balanced.follows x old
    · rw [List.mem_singleton.mp new]
      exact close_follows c.wrapper
  · intro k x there
    rcases getElem?_added there with ⟨_, rfl⟩ | ⟨_, old⟩
    · apply Exists.intro c
      apply And.intro here
      by_cases metered : slotOf 4 c.conn = true
      · constructor <;> simp [CloseStage.within, Connection.wrapper, metered]
      · rcases phase with phase | phase <;> constructor <;> simp [CloseStage.within, Connection.wrapper, metered, phase]
    · exact balanced.fits k x old

theorem Balanced.next {move : CapMove} (balanced : d.Balanced cap) (next : d.next cap move = some d') : d'.Balanced cap := by
  cases move with
  | accept conn =>
    cases next
    exact balanced.accept conn
  | turnAway i =>
    obtain ⟨c, here, next⟩ := Option.bind_eq_some_iff.mp next
    split at next
    · rename_i offered
      cases next
      apply balanced.rephase here (.inl offered) _ balanced.bounded
      simp [Connection.occupies, offered]
    · cases next
  | take i =>
    obtain ⟨c, here, next⟩ := Option.bind_eq_some_iff.mp next
    split at next
    · rename_i free
      cases next
      apply balanced.rephase here (.inl free.1)
      · simp [Connection.occupies, free.1]
      · omega
    · cases next
  | handOn i =>
    obtain ⟨c, here, next⟩ := Option.bind_eq_some_iff.mp next
    split at next
    · rename_i holding
      cases next
      have none := balanced.fresh c (List.mem_of_getElem? here) (balanced.unclosed i c here (.inr holding)).1
      apply balanced.rephase here (.inr holding) _ balanced.bounded
      simp [Connection.occupies, holding, none]
    · cases next
  | close i =>
    obtain ⟨c, here, next⟩ := Option.bind_eq_some_iff.mp next
    split at next
    · rename_i phase
      cases next
      exact balanced.close here phase
    · cases next
  | work k event => exact balanced.work next

theorem Balanced.closed {x : Closer} {err : Bool} (balanced : d.Balanced cap) (there : d.closers[k]? = some x)
    (returned : x.job = .done err) (here : d.conns[x.conn]? = some c) (admitted : c.phase = .admitted) :
    c.released = 1 := by
  obtain ⟨c', here', fits⟩ := balanced.fits k x there
  rw [here] at here'
  cases here'
  have after := balanced.follows x (List.mem_of_getElem? there)
  rw [returned] at after
  exact balanced.done c (List.mem_of_getElem? here) (fits.after after (fits.metered admitted)) admitted

theorem reachable_balanced (reachable : Reachable (CapDesk.next cap) (fun _ _ => True) {} d) : d.Balanced cap := by
  apply reachable.invariant (CapDesk.Balanced cap)
  · constructor <;> simp
  · intro d move d' balanced _ next
    exact balanced.next next

end CapDesk

/-- However its connections are accepted, turned away, handed on and closed, what is taken of the cap is
    what the connections hold that are admitted and still have their slot. A slot goes back once, when its
    connection is closed, and before any close of it returns. -/
theorem slots_balanced {cap : Nat} {d : CapDesk} (reachable : Reachable (CapDesk.next cap) (fun _ _ => True) {} d) :
    (d.taken = d.conns.countP Connection.occupies ∧ d.taken ≤ cap) ∧
    (∀ (i : Nat) (c : Connection), d.conns[i]? = some c → c.released ≤ 1 ∧
      (0 < c.released → c.phase = .admitted ∧ i ∈ d.closers.map Closer.conn)) ∧
    ∀ (x : Closer) (err : Bool) (c : Connection), x ∈ d.closers → x.job = .done err → d.conns[x.conn]? = some c →
      c.phase = .admitted → c.released = 1 := by
  have balanced := CapDesk.reachable_balanced reachable
  apply And.intro ⟨balanced.taken, balanced.bounded⟩
  apply And.intro
  · intro i c here
    exact ⟨balanced.once c (List.mem_of_getElem? here), balanced.given i c here⟩
  · intro x err c member returned here admitted
    obtain ⟨k, there⟩ := List.getElem?_of_mem member
    exact balanced.closed there returned here admitted

section Sample

/-- One slot for two connections over TLS. The second is turned away, the first is closed twice at a time. -/
def closedTwice : List CapMove :=
  [.accept (.layer (.slotConn .socket)), .accept (.layer (.slotConn .socket)), .take 0, .turnAway 1, .handOn 0,
    .close 1, .work 0 ⟨.inner, true⟩, .work 0 ⟨.enter, true⟩, .work 0 ⟨.readRelease, false⟩, .work 0 ⟨.leave, ()⟩,
    .close 0, .close 0, .work 1 ⟨.inner, true⟩, .work 2 ⟨.inner, false⟩, .work 2 ⟨.enter, true⟩,
    .work 2 ⟨.readRelease, true⟩, .work 2 ⟨.receive, ()⟩, .work 2 ⟨.leave, ()⟩, .work 1 ⟨.enter, false⟩]

theorem slots_balanced_sample : ∃ d, play (CapDesk.next 1) (fun _ _ => true) {} closedTwice = some d ∧
    d.conns.map (fun c => (c.phase, c.released)) = [(.admitted, 1), (.refused, 0)] ∧
    d.taken = d.conns.countP Connection.occupies ∧ d.taken ≤ 1 := by
  have held : (play (CapDesk.next 1) (fun _ _ => true) {} closedTwice).any (fun d =>
      decide (d.conns.map (fun c => (c.phase, c.released)) = [(.admitted, 1), (.refused, 0)])) = true := by
    decide
  obtain ⟨d, played, checked⟩ := (Option.any_eq_true _ _).mp held
  have reachable : Reachable (CapDesk.next 1) (fun _ _ => True) {} d :=
    reachable_of_play (fun _ _ _ => trivial) closedTwice played
  obtain ⟨⟨taken, bounded⟩, _, _⟩ := slots_balanced reachable
  exact ⟨d, played, of_decide_eq_true checked, taken, bounded⟩

end Sample

end Mailgw.Smtp
