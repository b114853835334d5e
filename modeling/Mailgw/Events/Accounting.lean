import Mailgw.Events.Pipeline
import Mailgw.Lists.Replace

namespace Mailgw.Events

open Calls Lists

def Stage.pend (g : Stage) : List Event := if g.written then g.hand else []

def Stage.due (g : Stage) : List Event := if g.acked then g.hand else []

theorem Counter.ne_of_not_final {counter last : Counter} (open_ : counter.isFinal = false) (final : last.isFinal = true) :
    counter ≠ last := by
  rintro rfl
  rw [open_] at final
  cases final

def Stage.isAtWork (g : Stage) : Bool := decide (g.role = .worker) && !g.left

namespace Pipeline

variable {opts : Options} {s : Pipeline}

/-- Every event handed over is counted, in the buffer, or in somebody's hand. -/
structure Inv (s : Pipeline) : Prop where
  follows : ∀ g ∈ s.goroutines, Follows clientStages goesOn g.prog g.stage
  balance : ∀ e, s.handed.count e =
    s.settled.count e + s.channel.count e + (s.goroutines.flatMap fun g => g.stage.hand).count e
  files : ∀ e, (s.files.map fun file => file.2.event).count e =
    (s.countedAs .spilled).count e + (s.goroutines.flatMap fun g => g.stage.pend).count e
  acknowledged : ∀ e, s.acknowledged.count e =
    (s.countedAs .sent).count e + (s.goroutines.flatMap fun g => g.stage.due).count e
  encodable : ∀ e ∈ s.channel, e.json.isSome = true
  hands : ∀ g ∈ s.goroutines, ∀ e ∈ g.stage.hand, e.json.isSome = true
  running : s.running = s.goroutines.countP fun g => g.stage.isAtWork
  left : ∀ g ∈ s.goroutines, g.stage.left = true → g.stage.hand = []
  signalled : ∀ g ∈ s.goroutines, g.stage.signalled = true → s.done = true
  waited : ∀ g ∈ s.goroutines, g.stage.waited = true → s.running = 0 ∧ s.done = true
  finished : s.once = .finished → s.done = true
  watched : s.channel = [] ∨ s.Watched

theorem settle_follows (spills : opts.spills = true) {p : Client (Option Body)} {g : Stage}
    (follows : Follows clientStages goesOn p g) : Follows clientStages goesOn (settle opts p) g := by
  unfold settle
  split
  · exact body_follows spills _ follows
  · exact follows

section Effects
variable {c : ClientCall} {answer : c.Answer} {g : Stage}

/-- An answer moves an event between the buffer, a hand and the counters, and loses none. -/
theorem effect_balance (may : g.fits c) (can : s.mayAnswer opts c answer) (e : Event) :
    (s.effect c answer).settled.count e + (s.effect c answer).channel.count e + (g.after c answer).hand.count e =
      s.settled.count e + s.channel.count e + g.hand.count e := by
  cases c with
  | offer env =>
    cases answer with
    | false => rfl
    | true =>
      simp only [effect, Stage.after, settled, may.1, List.count_append, List.count_nil]
      omega
  | take =>
    cases answer with
    | none => rfl
    | some env =>
      simp only [mayAnswer, List.head?_eq_some_iff] at can
      obtain ⟨rest, found⟩ := can
      simp only [effect, Stage.after, settled, may.1, found, List.tail_cons, List.count_cons, List.count_nil]
      omega
  | takeNow =>
    cases answer with
    | none => rfl
    | some env =>
      simp only [mayAnswer, eq_comm (a := some env), List.head?_eq_some_iff] at can
      obtain ⟨rest, found⟩ := can
      simp only [effect, Stage.after, settled, may.1, found, List.tail_cons, List.count_cons, List.count_nil]
      omega
  | count counter env =>
    cases final : counter.isFinal with
    | false => simp [effect, Stage.after, settled, final]
    | true =>
      obtain ⟨hand, -⟩ := may final
      simp only [effect, Stage.after, settled, final, hand, ite_true, List.filter_cons, List.map_cons, List.count_cons,
        List.count_nil]
      omega
  | once => cases answer <;> rfl
  | write name record => cases answer <;> rfl
  | _ => rfl

variable (answer) in
theorem effect_files (may : g.fits c) (fresh : ∀ name record, c = .write name record → name ∉ s.files.map Prod.fst)
    (e : Event) :
    ((s.effect c answer).files.map fun file => file.2.event).count e + (s.countedAs .spilled).count e + g.pend.count e =
      (s.files.map fun file => file.2.event).count e + ((s.effect c answer).countedAs .spilled).count e +
        (g.after c answer).pend.count e := by
  cases c with
  | offer env =>
    cases answer with
    | false => rfl
    | true => simp [effect, Stage.after, Stage.pend, countedAs, may.2.1]
  | take =>
    cases answer with
    | none => rfl
    | some env => simp [effect, Stage.after, Stage.pend, countedAs, may.2.1]
  | takeNow =>
    cases answer with
    | none => rfl
    | some env => simp [effect, Stage.after, Stage.pend, countedAs, may.2.1]
  | count counter env =>
    cases final : counter.isFinal with
    | false =>
      have other : counter ≠ .spilled := Counter.ne_of_not_final final rfl
      simp [effect, Stage.after, Stage.pend, countedAs, final, other]
    | true =>
      obtain ⟨hand, written, -⟩ := may final
      by_cases spilled : counter = .spilled
      · simp only [effect, Stage.after, Stage.pend, countedAs, hand, written, spilled, Counter.isFinal, decide_true,
          ite_true, List.filter_cons, List.map_cons, List.count_cons, List.count_nil, Bool.false_eq_true, ite_false]
        omega
      · simp [effect, Stage.after, Stage.pend, countedAs, final, written, spilled]
  | once => cases answer <;> rfl
  | write name record =>
    cases answer with
    | false => rfl
    | true =>
      have kept : s.files.filter (fun file => file.1 ≠ name) = s.files := by
        apply List.filter_eq_self.mpr
        intro file member
        simp only [ne_eq, decide_not, Bool.not_eq_true', decide_eq_false_iff_not]
        intro same
        exact fresh name record rfl (same ▸ List.mem_map_of_mem member)
      simp only [effect, Stage.after, Stage.pend, countedAs, kept, may.1, may.2, List.map_cons, List.count_cons,
        List.count_nil, Bool.false_eq_true, ite_true, ite_false]
      omega
  | _ => rfl

variable (answer) in
theorem effect_acknowledged (may : g.fits c) (e : Event) :
    (s.effect c answer).acknowledged.count e + (s.countedAs .sent).count e + g.due.count e =
      s.acknowledged.count e + ((s.effect c answer).countedAs .sent).count e + (g.after c answer).due.count e := by
  cases c with
  | offer env =>
    cases answer with
    | false => rfl
    | true => simp [effect, Stage.after, Stage.due, countedAs, may.2.2]
  | take =>
    cases answer with
    | none => rfl
    | some env => simp [effect, Stage.after, Stage.due, countedAs, may.2.2.1]
  | takeNow =>
    cases answer with
    | none => rfl
    | some env => simp [effect, Stage.after, Stage.due, countedAs, may.2.2.1]
  | count counter env =>
    cases final : counter.isFinal with
    | false =>
      have other : counter ≠ .sent := Counter.ne_of_not_final final rfl
      simp [effect, Stage.after, Stage.due, countedAs, final, other]
    | true =>
      obtain ⟨hand, -, acked⟩ := may final
      by_cases sent : counter = .sent
      · simp only [effect, Stage.after, Stage.due, countedAs, hand, acked, sent, Counter.isFinal, decide_true, ite_true,
          List.filter_cons, List.map_cons, List.count_cons, List.count_nil, Bool.false_eq_true, ite_false]
        omega
      · simp [effect, Stage.after, Stage.due, countedAs, final, acked, sent]
  | post env body =>
    obtain ⟨hand, -, unacked⟩ := may
    cases acked : isAck answer with
    | false => simp [effect, Stage.after, Stage.due, countedAs, acked, unacked]
    | true =>
      simp only [effect, Stage.after, Stage.due, countedAs, acked, unacked, hand, ite_true, List.count_cons,
        List.count_nil, Bool.false_eq_true, ite_false]
      omega
  | once => cases answer <;> rfl
  | write name record => cases answer <;> rfl
  | _ => rfl

variable (answer) in
theorem effect_running (may : g.fits c) (counted : g.isAtWork = true → 0 < s.running) :
    (s.effect c answer).running + (if g.isAtWork then 1 else 0) =
      s.running + (if (g.after c answer).isAtWork then 1 else 0) := by
  cases c with
  | workerDone =>
    obtain ⟨worker, -, stayed⟩ := may
    have atWork : g.isAtWork = true := by simp [Stage.isAtWork, worker, stayed]
    have positive := counted atWork
    have gone : (g.after .workerDone answer).isAtWork = false := by simp [Stage.isAtWork, Stage.after]
    simp only [effect, atWork, gone, ite_true, Bool.false_eq_true, ite_false]
    omega
  | count counter env => cases final : counter.isFinal <;> simp [effect, Stage.after, final, Stage.isAtWork]
  | offer env => cases answer <;> rfl
  | take => cases answer <;> rfl
  | takeNow => cases answer <;> rfl
  | once => cases answer <;> rfl
  | write name record => cases answer <;> rfl
  | _ => rfl

variable (s answer) in
theorem effect_running_le : (s.effect c answer).running ≤ s.running := by
  cases c with
  | workerDone => exact Nat.sub_le _ _
  | offer env => cases answer <;> exact le_refl _
  | take => cases answer <;> exact le_refl _
  | takeNow => cases answer <;> exact le_refl _
  | once => cases answer <;> exact le_refl _
  | write name record => cases answer <;> exact le_refl _
  | _ => exact le_refl _

theorem effect_done (already : s.done = true) : (s.effect c answer).done = true := by
  cases c with
  | closeDone => rfl
  | offer env => cases answer <;> exact already
  | take => cases answer <;> exact already
  | takeNow => cases answer <;> exact already
  | once => cases answer <;> exact already
  | write name record => cases answer <;> exact already
  | _ => exact already

theorem effect_not_done (may : g.fits c) (before : s.done = false) :
    (s.effect c answer).done = false ∨ g.role = .closer := by
  cases c with
  | closeDone => exact .inr may
  | offer env => cases answer <;> exact .inl before
  | take => cases answer <;> exact .inl before
  | takeNow => cases answer <;> exact .inl before
  | once => cases answer <;> exact .inl before
  | write name record => cases answer <;> exact .inl before
  | _ => exact .inl before

theorem after_role : (g.after c answer).role = g.role := by
  cases c with
  | count counter env =>
    simp only [Stage.after]
    split <;> rfl
  | offer env => cases answer <;> rfl
  | take => cases answer <;> rfl
  | takeNow => cases answer <;> rfl
  | once => cases answer <;> rfl
  | write name record => cases answer <;> rfl
  | _ => rfl

theorem after_signalled (can : s.mayAnswer opts c answer) (known : g.signalled = true → s.done = true)
    (finished : s.once = .finished → s.done = true) (signalled : (g.after c answer).signalled = true) :
    (s.effect c answer).done = true := by
  cases c with
  | closeDone => rfl
  | once =>
    cases answer with
    | true => exact known signalled
    | false => exact finished can
  | count counter env =>
    simp only [Stage.after] at signalled
    split at signalled <;> exact known signalled
  | offer env => cases answer <;> exact known signalled
  | take => cases answer <;> exact known signalled
  | takeNow => cases answer <;> exact known signalled
  | write name record => cases answer <;> exact known signalled
  | _ => exact known signalled

theorem after_waited (may : g.fits c) (can : s.mayAnswer opts c answer) (known : g.signalled = true → s.done = true)
    (before : g.waited = true → s.running = 0 ∧ s.done = true) (waited : (g.after c answer).waited = true) :
    s.running = 0 ∧ s.done = true := by
  cases c with
  | wait => exact ⟨can, known may⟩
  | count counter env =>
    simp only [Stage.after] at waited
    split at waited <;> exact before waited
  | offer env => cases answer <;> exact before waited
  | take => cases answer <;> exact before waited
  | takeNow => cases answer <;> exact before waited
  | once => cases answer <;> exact before waited
  | write name record => cases answer <;> exact before waited
  | _ => exact before waited

theorem after_left (may : g.fits c) (before : g.left = true → g.hand = []) (left : (g.after c answer).left = true) :
    (g.after c answer).hand = [] := by
  cases c with
  | workerDone => exact may.2.1
  | count counter env =>
    simp only [Stage.after] at left ⊢
    split
    · rfl
    · rename_i plain
      rw [if_neg plain] at left
      exact before left
  | offer env =>
    cases answer with
    | true => rfl
    | false => exact before left
  | take =>
    cases answer with
    | some env => simp [Stage.after, may.2.2.2] at left
    | none => exact before left
  | takeNow =>
    cases answer with
    | some env => simp [Stage.after, may.2.2.2] at left
    | none => exact before left
  | once => cases answer <;> exact before left
  | write name record => cases answer <;> exact before left
  | _ => exact before left

theorem effect_finished (may : g.fits c) (known : g.signalled = true → s.done = true)
    (before : s.once = .finished → s.done = true) (finished : (s.effect c answer).once = .finished) :
    (s.effect c answer).done = true := by
  cases c with
  | onceDone => exact known may
  | closeDone => rfl
  | once =>
    cases answer with
    | true => cases finished
    | false => exact before finished
  | offer env => cases answer <;> exact before finished
  | take => cases answer <;> exact before finished
  | takeNow => cases answer <;> exact before finished
  | write name record => cases answer <;> exact before finished
  | _ => exact before finished

theorem effect_encodable (may : g.fits c) (can : s.mayAnswer opts c answer)
    (buffer : ∀ e ∈ s.channel, e.json.isSome = true) (hand : ∀ e ∈ g.hand, e.json.isSome = true) :
    Stage.can c answer ∧ (∀ e ∈ (s.effect c answer).channel, e.json.isSome = true) ∧
      ∀ e ∈ (g.after c answer).hand, e.json.isSome = true := by
  cases c with
  | offer env =>
    cases answer with
    | false => exact ⟨trivial, buffer, hand⟩
    | true =>
      have encoded : env.json.isSome = true := hand env (by simp [may.1])
      refine ⟨trivial, ?_, by simp [Stage.after]⟩
      intro e member
      rcases List.mem_append.mp member with old | new
      · exact buffer e old
      · rwa [List.mem_singleton.mp new]
  | take =>
    cases answer with
    | none => exact ⟨trivial, buffer, hand⟩
    | some env =>
      have encoded : env.json.isSome = true := buffer env (List.mem_of_mem_head? can)
      exact ⟨encoded, fun e member => buffer e (List.mem_of_mem_tail member), by simp [Stage.after, encoded]⟩
  | takeNow =>
    cases answer with
    | none => exact ⟨trivial, buffer, hand⟩
    | some env =>
      have encoded : env.json.isSome = true := buffer env (List.mem_of_mem_head? can.symm)
      exact ⟨encoded, fun e member => buffer e (List.mem_of_mem_tail member), by simp [Stage.after, encoded]⟩
  | count counter env =>
    refine ⟨trivial, buffer, ?_⟩
    simp only [Stage.after]
    split
    · simp
    · exact hand
  | once => cases answer <;> exact ⟨trivial, buffer, hand⟩
  | write name record => cases answer <;> exact ⟨trivial, buffer, hand⟩
  | _ => exact ⟨trivial, buffer, hand⟩

/-- A Close is through when it finds the buffer empty. -/
theorem effect_emptied (may : g.emptied = false) (can : s.mayAnswer opts c answer)
    (emptied : (g.after c answer).emptied = true) : (s.effect c answer).channel = [] := by
  have still : ∀ g' : Stage, g' = g → g'.emptied = true → False := by
    intro g' same emptied
    rw [same, may] at emptied
    cases emptied
  cases c with
  | takeNow =>
    cases answer with
    | none => exact List.head?_eq_none_iff.mp can.symm
    | some env => exact (still g rfl emptied).elim
  | count counter env =>
    simp only [Stage.after] at emptied
    split at emptied <;> exact (still g rfl emptied).elim
  | offer env => cases answer <;> exact (still g rfl emptied).elim
  | take => cases answer <;> exact (still g rfl emptied).elim
  | once => cases answer <;> exact (still g rfl emptied).elim
  | write name record => cases answer <;> exact (still g rfl emptied).elim
  | _ => exact (still g rfl emptied).elim

theorem effect_channel (other : ∀ env, c ≠ .offer env) (empty : s.channel = []) :
    (s.effect c answer).channel = [] := by
  cases c with
  | offer env => exact absurd rfl (other env)
  | take => cases answer <;> simp [effect, empty]
  | takeNow => cases answer <;> simp [effect, empty]
  | once => cases answer <;> exact empty
  | write name record => cases answer <;> exact empty
  | _ => exact empty

end Effects

theorem next_step {i : Nat} {answers : (c : ClientCall) → c.Answer} {s' : Pipeline}
    (step : next opts s (.step i answers) = some s') :
    ∃ c rest stage, s.goroutines[i]? = some ⟨.call c rest, stage⟩ ∧ s.mayAnswer opts c (answers c) ∧
      s' = { s.effect c (answers c) with
        goroutines := s.goroutines.set i ⟨settle opts (rest (answers c)), stage.after c (answers c)⟩ } := by
  simp only [next] at step
  split at step
  · rename_i c rest stage found
    split at step
    · rename_i may
      cases step
      exact ⟨c, rest, stage, found, may, rfl⟩
    · cases step
  · cases step

theorem effect_handed (c : ClientCall) (answer : c.Answer) : (s.effect c answer).handed = s.handed := by
  cases c with
  | offer env => cases answer <;> rfl
  | take => cases answer <;> rfl
  | takeNow => cases answer <;> rfl
  | once => cases answer <;> rfl
  | write name record => cases answer <;> rfl
  | _ => rfl

theorem watched_step {i : Nat} {c : ClientCall} {answer : c.Answer} {rest : c.Answer → Client (Option Body)}
    {stage : Stage} (at_ : s.goroutines[i]? = some ⟨.call c rest, stage⟩) (may : Stage.may c stage)
    (can : s.mayAnswer opts c answer)
    (follows : Follows clientStages goesOn (settle opts (rest answer)) (stage.after c answer))
    (watched : s.channel = [] ∨ s.Watched) (offer : ∀ env, c = .offer env → s.Watched) :
    (s.effect c answer).channel = [] ∨
      Watched { s.effect c answer with
        goroutines := s.goroutines.set i ⟨settle opts (rest answer), stage.after c answer⟩ } := by
  by_cases through : stage.role = .closer ∧ Goroutine.ended ⟨settle opts (rest answer), stage.after c answer⟩ = true
  · left
    obtain ⟨closer, ended⟩ := through
    simp only [Goroutine.ended] at ended
    split at ended
    · rename_i stop
      rw [stop] at follows
      exact effect_emptied may.1 can (follows.2.2.2 (after_role.trans closer)).2
    · cases ended
  · have goesOn : stage.role = .closer → Goroutine.ended ⟨settle opts (rest answer), stage.after c answer⟩ = false :=
      fun closer => by simpa [closer] using through
    have still : s.Watched → Watched { s.effect c answer with
        goroutines := s.goroutines.set i ⟨settle opts (rest answer), stage.after c answer⟩ } := by
      intro before
      have inside : i < s.goroutines.length := (List.getElem?_eq_some_iff.mp at_).1
      have here : (⟨settle opts (rest answer), stage.after c answer⟩ : Goroutine) ∈
          s.goroutines.set i ⟨settle opts (rest answer), stage.after c answer⟩ := List.mem_set inside _
      rcases before with open_ | ⟨g, member, closer, alive⟩
      · rcases effect_not_done may.2 open_ with open_' | closer
        · exact .inl open_'
        · exact .inr ⟨_, here, after_role.trans closer, goesOn closer⟩
      · obtain ⟨j, inside', rfl⟩ := List.mem_iff_getElem.mp member
        by_cases same : j = i
        · subst same
          have own : s.goroutines[j] = ⟨.call c rest, stage⟩ := (List.getElem?_eq_some_iff.mp at_).2
          rw [own] at closer
          exact .inr ⟨_, here, after_role.trans closer, goesOn closer⟩
        · have kept : s.goroutines[j] ∈ s.goroutines.set i ⟨settle opts (rest answer), stage.after c answer⟩ := by
            apply List.mem_iff_getElem.mpr
            refine ⟨j, by simpa using inside', ?_⟩
            rw [List.getElem_set_ne (Ne.symm same)]
          exact .inr ⟨_, kept, closer, alive⟩
    by_cases offers : ∃ env, c = .offer env
    · obtain ⟨env, same⟩ := offers
      exact .inr (still (offer env same))
    · rcases watched with empty | before
      · exact .inl (effect_channel (fun env same => offers ⟨env, same⟩) empty)
      · exact .inr (still before)

theorem Inv.begin (inv : Inv s) (spills : opts.spills = true) (b : Body) (hand : List Event)
    (ready : b.Ready { role := b.role, hand }) (outsider : b.role ≠ .worker)
    (encoded : ∀ e ∈ hand, e.json.isSome = true) :
    Inv { s with goroutines := start opts b hand :: s.goroutines, handed := hand ++ s.handed } := by
  have running : (start opts b hand).stage.isAtWork = false := by simp [start, Stage.isAtWork, outsider]
  constructor
  · intro g member
    rcases List.mem_cons.mp member with rfl | old
    · exact body_follows spills b ready
    · exact inv.follows g old
  · intro e
    have before := inv.balance e
    simp only [settled, List.flatMap_cons, List.count_append, start] at before ⊢
    omega
  · intro e
    have before := inv.files e
    simp only [countedAs, List.flatMap_cons, start, Stage.pend, Bool.false_eq_true, ite_false, List.nil_append] at before ⊢
    exact before
  · intro e
    have before := inv.acknowledged e
    simp only [countedAs, List.flatMap_cons, start, Stage.due, Bool.false_eq_true, ite_false, List.nil_append] at before ⊢
    exact before
  · exact inv.encodable
  · intro g member
    rcases List.mem_cons.mp member with rfl | old
    · exact encoded
    · exact inv.hands g old
  · simp only [List.countP_cons, running, Bool.false_eq_true, ite_false, Nat.add_zero]
    exact inv.running
  · intro g member left
    rcases List.mem_cons.mp member with rfl | old
    · cases left
    · exact inv.left g old left
  · intro g member signalled
    rcases List.mem_cons.mp member with rfl | old
    · cases signalled
    · exact inv.signalled g old signalled
  · intro g member waited
    rcases List.mem_cons.mp member with rfl | old
    · cases waited
    · exact inv.waited g old waited
  · exact inv.finished
  · rcases inv.watched with empty | open_ | ⟨g, member, closer⟩
    · exact .inl empty
    · exact .inr (.inl open_)
    · exact .inr (.inr ⟨g, List.mem_cons_of_mem _ member, closer⟩)

/-- An answered call keeps the books, as long as it does not put an event into a buffer nobody
    looks into any more and takes no other spill's name. -/
theorem Inv.call (inv : Inv s) (spills : opts.spills = true) {i : Nat} {c : ClientCall}
    {rest : c.Answer → Client (Option Body)} {stage : Stage} (at_ : s.goroutines[i]? = some ⟨.call c rest, stage⟩)
    (answer : c.Answer) (can : s.mayAnswer opts c answer) (offer : ∀ env, c = .offer env → s.Watched)
    (fresh : ∀ name record, c = .write name record → name ∉ s.files.map Prod.fst) :
    Inv { s.effect c answer with
      goroutines := s.goroutines.set i ⟨settle opts (rest answer), stage.after c answer⟩ } := by
  have member : (⟨.call c rest, stage⟩ : Goroutine) ∈ s.goroutines := List.mem_of_getElem? at_
  have path := inv.follows _ member
  have may : Stage.may c stage := path.1
  obtain ⟨fitting, encodable, hands⟩ := effect_encodable may.2 can inv.encodable (inv.hands _ member)
  have follows := settle_follows spills (path.2 answer fitting)
  constructor
  · intro g inside
    rcases mem_replace inside with rfl | old
    · exact follows
    · exact inv.follows g old
  · intro e
    have moved := effect_balance may.2 can e
    have before := inv.balance e
    have replaced := count_flatMap_replace (fun g => g.stage.hand) (y := ⟨settle opts (rest answer), stage.after c answer⟩) at_ e
    have same := effect_handed (s := s) c answer
    simp only [settled, same] at moved before replaced ⊢
    omega
  · intro e
    have moved := effect_files answer may.2 fresh e
    have before := inv.files e
    have replaced := count_flatMap_replace (fun g => g.stage.pend) (y := ⟨settle opts (rest answer), stage.after c answer⟩) at_ e
    simp only [countedAs] at moved before replaced ⊢
    omega
  · intro e
    have moved := effect_acknowledged (s := s) answer may.2 e
    have before := inv.acknowledged e
    have replaced := count_flatMap_replace (fun g => g.stage.due) (y := ⟨settle opts (rest answer), stage.after c answer⟩) at_ e
    simp only [countedAs] at moved before replaced ⊢
    omega
  · exact encodable
  · intro g inside
    rcases mem_replace inside with rfl | old
    · exact hands
    · exact inv.hands g old
  · have counted : stage.isAtWork = true → 0 < s.running := by
      intro atWork
      rw [inv.running]
      exact List.countP_pos_iff.mpr ⟨_, member, atWork⟩
    have moved := effect_running answer may.2 counted
    have replaced := countP_replace (fun g => g.stage.isAtWork)
      (y := ⟨settle opts (rest answer), stage.after c answer⟩) at_
    have before := inv.running
    simp only at moved replaced before ⊢
    omega
  · intro g inside left
    rcases mem_replace inside with rfl | old
    · exact after_left may.2 (inv.left _ member) left
    · exact inv.left g old left
  · intro g inside signalled
    rcases mem_replace inside with rfl | old
    · exact after_signalled can (inv.signalled _ member) inv.finished signalled
    · exact effect_done (inv.signalled g old signalled)
  · intro g inside waited
    have before : s.running = 0 ∧ s.done = true := by
      rcases mem_replace inside with rfl | old
      · exact after_waited may.2 can (inv.signalled _ member) (inv.waited _ member) waited
      · exact inv.waited g old waited
    have less := effect_running_le s answer
    exact ⟨by simp only; omega, effect_done before.2⟩
  · exact effect_finished may.2 (inv.signalled _ member) inv.finished
  · exact watched_step at_ may can follows inv.watched offer

theorem inv_new (opts : Options) (spills : opts.spills = true) : Inv (new opts) := by
  have idle : ∀ g ∈ (new opts).goroutines, g = start opts .work [] := fun g member => List.eq_of_mem_replicate member
  have empty (view : Stage → List Event) (nothing : view (start opts .work []).stage = []) :
      ((new opts).goroutines.flatMap fun g => view g.stage) = [] := by
    apply List.flatMap_eq_nil_iff.mpr
    intro g member
    rw [idle g member]
    exact nothing
  constructor
  · intro g member
    rw [idle g member]
    exact body_follows spills .work rfl
  · intro e
    rw [empty Stage.hand rfl]
    rfl
  · intro e
    rw [empty Stage.pend rfl]
    rfl
  · intro e
    rw [empty Stage.due rfl]
    rfl
  · intro e member
    cases member
  · intro g member
    rw [idle g member]
    simp [start]
  · simp [new, List.countP_replicate, start, Stage.isAtWork, Body.role]
  · intro g member left
    rw [idle g member] at left
    cases left
  · intro g member signalled
    rw [idle g member] at signalled
    cases signalled
  · intro g member waited
    rw [idle g member] at waited
    cases waited
  · intro finished
    cases finished
  · exact .inl rfl

theorem Inv.next (inv : Inv s) (spills : opts.spills = true) {turn : Turn} (safe : s.Safe turn) {s' : Pipeline}
    (step : next opts s turn = some s') : Inv s' := by
  cases turn with
  | send env =>
    cases step
    exact inv.begin spills (.send env) [env] ⟨safe.1, rfl⟩ (by simp [Body.role]) (by simpa using safe.2)
  | close =>
    cases step
    exact inv.begin spills .close [] rfl (by simp [Body.role]) (by simp)
  | step i answers =>
    obtain ⟨c, rest, stage, at_, can, rfl⟩ := next_step step
    simp only [Safe, at_] at safe
    apply inv.call spills at_ _ can
    · intro env same
      subst same
      exact safe
    · intro name record same
      subst same
      exact safe

theorem Inv.accounted (inv : Inv s) (returned : s.Returned) : s.Accounted := by
  obtain ⟨⟨closer, present, isCloser⟩, ended⟩ := returned
  have finished : ∀ g ∈ s.goroutines, g.role ≠ .worker → goesOn none g.stage := by
    intro g member outsider
    have stopped := ended g member outsider
    have follows := inv.follows g member
    simp only [Goroutine.ended] at stopped
    split at stopped
    · rename_i stop
      rw [stop] at follows
      exact follows
    · cases stopped
  have idle := (finished closer present (by rw [isCloser]; decide)).2.2.2 isCloser
  obtain ⟨none_, done⟩ := inv.waited closer present idle.1
  have empty : ∀ g ∈ s.goroutines, g.stage.hand = [] := by
    intro g member
    by_cases worker : g.role = .worker
    · apply inv.left g member
      have notAtWork : ¬ g.stage.isAtWork = true := by
        have all := inv.running
        rw [none_, eq_comm, List.countP_eq_zero] at all
        exact all g member
      simpa [Stage.isAtWork, show g.stage.role = .worker from worker] using notAtWork
    · exact (finished g member worker).1
  have channel : s.channel = [] := by
    rcases inv.watched with empty | open_ | ⟨g, member, isCloser, alive⟩
    · exact empty
    · rw [done] at open_
      cases open_
    · have stopped := ended g member (by rw [isCloser]; decide)
      rw [alive] at stopped
      cases stopped
  have hands : (s.goroutines.flatMap fun g => g.stage.hand) = [] := List.flatMap_eq_nil_iff.mpr empty
  have pends : (s.goroutines.flatMap fun g => g.stage.pend) = [] := by
    apply List.flatMap_eq_nil_iff.mpr
    intro g member
    simp [Stage.pend, empty g member]
  have dues : (s.goroutines.flatMap fun g => g.stage.due) = [] := by
    apply List.flatMap_eq_nil_iff.mpr
    intro g member
    simp [Stage.due, empty g member]
  refine ⟨?_, ?_, ?_⟩
  · apply List.perm_iff_count.mpr
    intro e
    have balance := inv.balance e
    rw [channel, hands] at balance
    simpa using balance.symm
  · apply List.perm_iff_count.mpr
    intro e
    have acknowledged := inv.acknowledged e
    rw [dues] at acknowledged
    simpa using acknowledged
  · apply List.perm_iff_count.mpr
    intro e
    have files := inv.files e
    rw [pends] at files
    simpa using files

/-- In every run in which no event is put into a buffer nobody looks into any more, no event
    without an endpoint is handed over and no spill takes another one's name, every event is
    accounted for once Close and all Sends have returned. -/
theorem events_accounted (opts : Options) (spills : opts.spills = true) (s : Pipeline)
    (run : Reachable (next opts) Safe (new opts) s) (returned : s.Returned) : s.Accounted := by
  have inv : Inv s := run.invariant Inv (inv_new opts spills) fun _ _ _ inv safe step => inv.next spills safe step
  exact inv.accounted returned

section Sample

instance (s : Pipeline) : Decidable s.Watched := inferInstanceAs (Decidable (_ ∨ _))
instance (s : Pipeline) : Decidable s.Returned := inferInstanceAs (Decidable (_ ∧ _))

def safeNow (s : Pipeline) : Turn → Bool
  | .send env => decide (env.url ≠ []) && env.json.isSome
  | .close => true
  | .step i _ =>
    match s.goroutines[i]? with
    | some { prog := .call (.offer _) _, .. } => decide s.Watched
    | some { prog := .call (.write name _) _, .. } => decide (name ∉ s.files.map Prod.fst)
    | _ => true

theorem safe_of_safeNow (s : Pipeline) (turn : Turn) (checked : safeNow s turn = true) : s.Safe turn := by
  cases turn with
  | send env => simpa [safeNow, Safe] using checked
  | close => trivial
  | step i answers =>
    simp only [safeNow] at checked
    simp only [Safe]
    split at checked <;> simp_all

def sampleEvent : Event := ⟨"queue".toList, "http://log/api/queue".toList, some "good".toList⟩

def refusedEvent : Event := ⟨"delivery".toList, "http://log/api/delivery".toList, some "late".toList⟩

def sampleOptions : Options := { bufferSize := 1, senders := 1, spills := true, formatTime := fun _ => [] }

def reply (yes : Bool) (found : Option Event) : (c : ClientCall) → c.Answer
  | .loadClosed | .offer _ | .once | .makeDir | .write _ _ => yes
  | .take | .takeNow => found
  | .expired => none
  | .post _ _ => .ok (if yes then 200 else 503)
  | .now | .nextSpill => 1
  | .count _ _ | .storeClosed | .storeShutdown | .closeDone | .onceDone | .workerDone | .wait | .sleep _ => ()

def closing (c w : Nat) : List Turn :=
  .close :: List.replicate 5 (.step c (reply true none)) ++ List.replicate 3 (.step w (reply true none)) ++
    List.replicate 2 (.step c (reply true none))

def handing (env : Event) (w : Nat) : List Turn :=
  [.send env, .step 0 (reply false none), .step 0 (reply false none), .step 0 (reply true none),
    .step w (reply true (some env)), .step w (reply true none)]

/-- One event is acknowledged and one refused and spilled before Close is called. -/
def orderly : List Turn :=
  handing sampleEvent 1 ++ List.replicate 2 (.step 1 (reply true none)) ++ handing refusedEvent 2 ++
    .step 2 (reply false none) :: List.replicate 6 (.step 2 (reply true none)) ++ closing 0 3

/-- Send passes the check, Close returns, and then the event is put into the buffer. -/
def overtaken : List Turn :=
  [.send sampleEvent, .step 0 (reply false none), .step 0 (reply false none)] ++ closing 0 2 ++
    [.step 1 (reply true none)]

def sampleEnd : Pipeline := ((play (next sampleOptions) safeNow (new sampleOptions) orderly).getD (new sampleOptions))

theorem sampleEnd_reached : Reachable (next sampleOptions) Safe (new sampleOptions) sampleEnd := by
  have done : (play (next sampleOptions) safeNow (new sampleOptions) orderly).isSome = true := by decide
  obtain ⟨s, played⟩ := Option.isSome_iff_exists.mp done
  have same : sampleEnd = s := by simp [sampleEnd, played]
  rw [same]
  exact reachable_of_play safe_of_safeNow orderly played

theorem events_accounted_sample : sampleEnd.acknowledged = [sampleEvent] ∧ sampleEnd.countedAs .sent = [sampleEvent] ∧
    sampleEnd.countedAs .spilled = [refusedEvent] ∧ sampleEnd.Accounted :=
  ⟨by decide, by decide, by decide, events_accounted sampleOptions rfl sampleEnd sampleEnd_reached (by decide)⟩

/-- Only events with an endpoint and a body that can be encoded are handed over. -/
def Proper : Turn → Prop
  | .send env => env.url ≠ [] ∧ env.json.isSome = true
  | _ => True

instance : (turn : Turn) → Decidable (Proper turn)
  | .send _ => inferInstanceAs (Decidable (_ ∧ _))
  | .close | .step _ _ => .isTrue trivial

/-- An event put into the buffer after Close has drained it belongs to nobody. -/
theorem overtaken_event_lost :
    ¬ ∀ s, Reachable (next sampleOptions) (fun _ turn => Proper turn) (new sampleOptions) s → s.Returned →
      s.Accounted := by
  intro claim
  have ended : (play (next sampleOptions) (fun _ turn => decide (Proper turn)) (new sampleOptions) overtaken).map
      (fun s => (decide s.Returned, s.handed, s.settled)) = some (true, [sampleEvent], []) := by decide
  obtain ⟨s, played, facts⟩ := Option.map_eq_some_iff.mp ended
  simp only [Prod.mk.injEq, decide_eq_true_eq] at facts
  obtain ⟨returned, handed, settled⟩ := facts
  have reached : Reachable (next sampleOptions) (fun _ turn => Proper turn) (new sampleOptions) s :=
    reachable_of_play (fun _ _ proper => of_decide_eq_true proper) overtaken played
  have kept := (claim s reached returned).1.length_eq
  rw [handed, settled] at kept
  cases kept

end Sample

end Pipeline

end Mailgw.Events
