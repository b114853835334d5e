import Mailgw.Buckets.Window
import Mailgw.Ratelimit.Levels

namespace Mailgw.Ratelimit

open Buckets

def Ticking : Int → List Call → Prop
  | _, [] => True
  | clock, c :: rest => clock ≤ c.now ∧ c.now ≤ c.later ∧ Ticking c.later rest

def Call.spends (c : Call) : Bool := c.request ≠ .blocked

namespace Limiter

def Tracked : Limiter → List Call → Prop
  | _, [] => True
  | l, c :: rest => ¬ (c.spends = true ∧ l.Limits c.key ∧ l.Crowded c.key c.later) ∧ (l.serve c).1.Tracked rest

instance decidableTracked : (l : Limiter) → (calls : List Call) → Decidable (l.Tracked calls)
  | _, [] => inferInstanceAs (Decidable True)
  | l, c :: rest =>
    have := decidableTracked (l.serve c).1 rest
    inferInstanceAs (Decidable (_ ∧ _))

def serveUnbounded (l : Limiter) (c : Call) : Limiter × Option Bool :=
  let taken := l.takeUnbounded c.key c.spends c.now
  match c.request with
  | .allow => (taken.1, some taken.2)
  | .blocked => (taken.1, some !taken.2)
  | .spend => (taken.1, none)

def answersUnbounded (l : Limiter) : List Call → List (Option Bool)
  | [] => []
  | c :: rest => (l.serveUnbounded c).2 :: (l.serveUnbounded c).1.answersUnbounded rest

/-- How often a key is allowed to go on in a window, both ends included. -/
def granted (key : Key) (first last : Int) : Limiter → List Call → Nat
  | _, [] => 0
  | l, c :: rest =>
    (if c.key = key ∧ (c.request = .allow ∧ (l.serve c).2 = some true) ∧ first ≤ c.now ∧ c.now ≤ last then 1 else 0) +
      granted key first last (l.serve c).1 rest

def draws (key : Key) : Limiter → List Call → List (ℚ × ℚ)
  | _, [] => []
  | l, c :: rest =>
    (seconds c.now, if c.key = key ∧ (c.request = .allow ∧ (l.serve c).2 = some true) then 1 else 0) ::
      draws key (l.serve c).1 rest

variable {l u : Limiter} {c : Call} {key : Key} {clock : Int} {calls : List Call}

theorem serve_fst (l : Limiter) (c : Call) : (l.serve c).1 = (l.take c.key c.spends c.now c.later).1 := by
  unfold serve Call.spends
  cases request : c.request <;> simp

theorem serve_allow (request : c.request = .allow) :
    (l.serve c).2 = some (l.take c.key true c.now c.later).2 := by simp [serve, request]

theorem drawnIn_draws (key : Key) (first last : Int) (l : Limiter) (calls : List Call) :
    drawnIn (seconds first) (seconds last) (draws key l calls) = granted key first last l calls := by
  induction calls generalizing l with
  | nil => simp [draws, drawnIn, granted]
  | cons c rest ih =>
    rw [draws, drawnIn, granted, ih]
    simp only [seconds_le_iff]
    by_cases inside : first ≤ c.now ∧ c.now ≤ last
    · by_cases given : c.key = key ∧ c.request = .allow ∧ (l.serve c).2 = some true
      · rw [if_pos inside, if_pos given, if_pos ⟨given.1, given.2, inside⟩]
        push_cast
        rfl
      · rw [if_pos inside, if_neg given, if_neg fun all => given ⟨all.1, all.2.1⟩]
        push_cast
        rfl
    · rw [if_neg inside, if_neg fun all => inside all.2.2]
      push_cast
      rfl

/-- What one call does to a key that is limited: it gets no more than the call leaves. -/
theorem serve_key (sound : l.Sound clock) (limits : l.Limits key) (goes : clock ≤ c.now) (reads : c.now ≤ c.later)
    (tracked : ¬ (c.spends = true ∧ l.Limits c.key ∧ l.Crowded c.key c.later)) :
    (l.serve c).1.rules = l.rules ∧ (l.serve c).1.Sound c.later ∧ ∃ amount left : ℚ,
      amount = (if c.key = key ∧ (c.request = .allow ∧ (l.serve c).2 = some true) then 1 else 0) ∧ 0 ≤ left ∧
      amount + left = l.level key c.now ∧ (l.serve c).1.level key c.later ≤
        left + (l.rules.rule key.dim).refillPerSecond * seconds (c.later - c.now) := by
  have held := level_nonneg sound limits.2 goes
  have risen := level_later key sound limits.2 goes reads
  have bounded : l.level key c.later ≤
      l.level key c.now + (l.rules.rule key.dim).refillPerSecond * seconds (c.later - c.now) := by
    rw [risen]
    exact min_le_right _ _
  rw [serve_fst]
  by_cases free : l.Limits c.key
  · have counts := take_counts c.spends sound free goes reads fun spends crowded => tracked ⟨spends, free, crowded⟩
    refine ⟨counts.rules, counts.sound, ?_⟩
    by_cases own : c.key = key
    · have left := counts.left c.later reads
      rw [own] at left
      have answered := counts.answer
      rw [own] at answered
      by_cases given : c.request = .allow ∧ (l.serve c).2 = some true
      · have spends : c.spends = true := by simp [Call.spends, given.1]
        have enough : 1 ≤ l.level key c.now := by
          have ok := (serve_allow given.1).symm.trans given.2
          rw [own] at ok
          rw [spends, Option.some.inj ok] at answered
          exact of_decide_eq_true answered.symm
        refine ⟨1, l.level key c.now - 1, by rw [if_pos ⟨own, given⟩], by linarith, by ring, ?_⟩
        rw [own, left, spent, if_pos ⟨spends, enough⟩]
        exact min_le_right _ _
      · refine ⟨0, l.level key c.now, by rw [if_neg fun all => given all.2], held, by ring, ?_⟩
        have paid : 0 ≤ l.spent key c.spends c.now := by
          unfold spent
          split <;> norm_num
        rw [own, left]
        apply (min_le_right _ _).trans
        linarith
    · refine ⟨0, l.level key c.now, by rw [if_neg fun all => own all.1], held, by ring, ?_⟩
      rw [counts.others key (Ne.symm own) limits.2 c.later (le_refl _)]
      exact bounded
  · obtain ⟨_, rules, sound', same⟩ := take_free c.spends c.now sound (goes.trans reads) (.inl free)
    refine ⟨rules, sound', 0, l.level key c.now, ?_, held, by ring, ?_⟩
    · rw [if_neg]
      intro all
      rw [all.1] at free
      exact free limits
    · rw [same key limits.2 c.later (le_refl _)]
      exact bounded

theorem drawn_draws (sound : l.Sound clock) (limits : l.Limits key) (ticking : Ticking clock calls)
    (tracked : l.Tracked calls) : ∃ clock' level', Drawn (l.rules.rule key.dim).capacity
      (l.rules.rule key.dim).refillPerSecond (seconds clock) (l.level key clock) (draws key l calls) clock' level' := by
  induction calls generalizing l clock with
  | nil => exact ⟨seconds clock, l.level key clock, .rest (le_refl _) (by simp)⟩
  | cons c rest ih =>
    obtain ⟨goes, reads, onward⟩ := ticking
    obtain ⟨rules, sound', amount, left, taken, held, total, falls⟩ := serve_key sound limits goes reads tracked.1
    have limits' : (l.serve c).1.Limits key := ⟨limits.1, by rw [rules]; exact limits.2⟩
    obtain ⟨clock', level', others⟩ := ih sound' limits' onward tracked.2
    rw [rules] at others
    rw [draws, ← taken]
    refine ⟨clock', level', .draw (seconds_le_iff.mpr goes) held ?_ ?_⟩
    · rw [total, ← seconds_sub]
      exact (level_later key sound limits.2 (le_refl clock) goes).le
    · apply others.earlier (seconds_le_iff.mpr reads)
      rw [← seconds_sub]
      exact falls

structure Alike (l u : Limiter) (clock : Int) : Prop where
  rules : u.rules = l.rules
  levels : ∀ key, (l.rules.rule key.dim).enabled = true → ∀ t, clock ≤ t → l.level key t = u.level key t

theorem unbounded_free (free : ¬ u.Limits key) {spend : Bool} {now : Int} : u.takeUnbounded key spend now = (u, true) := by
  unfold takeUnbounded
  by_cases named : key.id = []
  · rw [if_pos named]
  · cases on : (u.rules.rule key.dim).enabled with
    | true => exact absurd ⟨named, on⟩ free
    | false => rw [if_neg named, Bool.not_false, if_pos rfl]

theorem take_alike (sound : l.Sound clock) (sound' : u.Sound clock) (alike : Alike l u clock) {spend : Bool} {now later : Int}
    (goes : clock ≤ now) (reads : now ≤ later) (tracked : ¬ (spend = true ∧ l.Limits key ∧ l.Crowded key later)) :
    (l.take key spend now later).2 = (u.takeUnbounded key spend now).2 ∧
    (l.take key spend now later).1.Sound later ∧ (u.takeUnbounded key spend now).1.Sound later ∧
    Alike (l.take key spend now later).1 (u.takeUnbounded key spend now).1 later := by
  by_cases limits : l.Limits key
  · have limits' : u.Limits key := ⟨limits.1, by rw [alike.rules]; exact limits.2⟩
    have mine := take_counts spend sound limits goes reads fun spends crowded => tracked ⟨spends, limits, crowded⟩
    have theirs := unbounded_counts spend sound' limits' goes
    have level := alike.levels key limits.2 now goes
    refine ⟨?_, mine.sound, theirs.sound.mono reads, ?_, ?_⟩
    · rw [mine.answer, theirs.answer, level]
    · rw [mine.rules, theirs.rules, alike.rules]
    · rw [mine.rules]
      intro key' on t after
      by_cases own : key' = key
      · rw [own, mine.left t (reads.trans after), theirs.left t (reads.trans after), spent, spent, level, alike.rules]
      · have on' : (u.rules.rule key'.dim).enabled = true := by rw [alike.rules]; exact on
        rw [mine.others key' own on t after, theirs.others key' own on' t (reads.trans after)]
        exact alike.levels key' on t (goes.trans (reads.trans after))
  · have limits' : ¬ u.Limits key := by
      unfold Limits
      rw [alike.rules]
      exact limits
    obtain ⟨answer, rules, mine, same⟩ := take_free spend now sound (goes.trans reads) (.inl limits)
    rw [unbounded_free limits']
    refine ⟨answer, mine, sound'.mono (goes.trans reads), alike.rules.trans rules.symm, ?_⟩
    rw [rules]
    intro key' on t after
    rw [same key' on t after]
    exact alike.levels key' on t (goes.trans (reads.trans after))

theorem answers_alike (sound : l.Sound clock) (sound' : u.Sound clock) (alike : Alike l u clock)
    (ticking : Ticking clock calls) (tracked : l.Tracked calls) : l.answers calls = u.answersUnbounded calls := by
  induction calls generalizing l u clock with
  | nil => rfl
  | cons c rest ih =>
    obtain ⟨goes, reads, onward⟩ := ticking
    obtain ⟨same, mine, theirs, alike'⟩ := take_alike sound sound' alike goes reads tracked.1
    have left : (u.serveUnbounded c).1 = (u.takeUnbounded c.key c.spends c.now).1 := by
      unfold serveUnbounded
      cases c.request <;> rfl
    have answer : (l.serve c).2 = (u.serveUnbounded c).2 := by
      unfold serve serveUnbounded
      unfold Call.spends at same ⊢
      cases request : c.request <;> rw [request] at same <;> simp_all
    rw [answers, answersUnbounded, answer]
    congr 1
    apply ih _ _ _ onward tracked.2
    · rw [serve_fst]
      exact mine
    · rw [left]
      exact theirs
    · rw [serve_fst, left]
      exact alike'

theorem draw_size (l : Limiter) (key : Key) (b : Bucket) (spend : Bool) (now : Int) :
    ∃ b', (l.draw key b spend now).1.buckets = l.buckets.set key b' := by
  unfold draw
  dsimp only
  split <;> exact ⟨_, rfl⟩

theorem take_size {spend : Bool} {now later : Int} (bounded : l.buckets.size ≤ l.rules.bound) :
    (l.take key spend now later).1.buckets.size ≤ l.rules.bound := by
  unfold take
  split
  · exact bounded
  split
  · exact bounded
  split
  · rename_i b found
    obtain ⟨b', set⟩ := l.draw_size key b spend now
    rw [set]
    exact (Lists.Table.size_set_of_some found).trans bounded
  · split
    · exact bounded
    · have trimmed : (if l.full = true then l.evict later else l).buckets.size ≤ l.rules.bound := by
        split
        · exact Lists.Table.size_keep_le.trans bounded
        · exact bounded
      have rules : (if l.full = true then l.evict later else l).rules = l.rules := by split <;> rfl
      generalize (if l.full = true then l.evict later else l) = l' at trimmed rules
      dsimp only
      split
      · exact trimmed
      · rename_i room
        obtain ⟨b', set⟩ := l'.draw_size key ⟨(l'.rules.rule key.dim).capacity, now⟩ spend now
        have fits : l'.buckets.size < l'.rules.bound := by simpa [full] using room
        rw [set, ← rules]
        exact Lists.Table.size_set_le.trans fits

theorem take_rules (l : Limiter) (key : Key) (spend : Bool) (now later : Int) : (l.take key spend now later).1.rules = l.rules := by
  unfold take
  split
  · rfl
  split
  · rfl
  split
  · exact draw_rules _ _ _ _ _
  · split
    · rfl
    · have rules : (if l.full = true then l.evict later else l).rules = l.rules := by split <;> rfl
      generalize (if l.full = true then l.evict later else l) = l' at rules
      dsimp only
      split
      · exact rules
      · rw [draw_rules, rules]

theorem after_size (bounded : l.buckets.size ≤ l.rules.bound) : (l.after calls).buckets.size ≤ l.rules.bound := by
  induction calls generalizing l with
  | nil => exact bounded
  | cons c rest ih =>
    have rules : (l.serve c).1.rules = l.rules := by
      rw [serve_fst]
      exact l.take_rules _ _ _ _
    have held : (l.serve c).1.buckets.size ≤ (l.serve c).1.rules.bound := by
      rw [rules, serve_fst]
      exact take_size bounded
    rw [← rules]
    exact ih held

end Limiter

/-- No key is allowed more in a window than its burst and its rate, and the bound on the buckets
    changes no answer. -/
theorem limiter_meaning (rules : Rules) (clock : Int) (calls : List Call) :
    (Ticking clock calls → Limiter.Tracked { rules } calls →
      (∀ (key : Key) (first last : Int), Limiter.Limits { rules } key → first ≤ last →
        (Limiter.granted key first last { rules } calls : ℚ) ≤
          (rules.rule key.dim).capacity + (rules.rule key.dim).refillPerSecond * seconds (last - first)) ∧
      Limiter.answers { rules } calls = Limiter.answersUnbounded { rules } calls) ∧
    (Limiter.after { rules } calls).buckets.size ≤ rules.bound := by
  have sound : Limiter.Sound { rules } clock := by
    intro key b here
    cases here
  refine ⟨fun ticking tracked => ⟨fun key first last limits goes => ?_, ?_⟩, ?_⟩
  · obtain ⟨clock', level', drawn⟩ := Limiter.drawn_draws sound limits ticking tracked
    have capacity := Rule.one_le_capacity limits.2
    have bound := drawn.window (Rule.refill_nonneg limits.2) (by linarith) (seconds_le_iff.mpr goes)
    rw [Limiter.drawnIn_draws, ← seconds_sub] at bound
    exact bound
  · exact Limiter.answers_alike sound sound ⟨rfl, fun _ _ _ _ => rfl⟩ ticking tracked
  · exact Limiter.after_size (Nat.zero_le _)

section Sample

def tightRules : Rules := { connPerIP := { rate := 1, per := 60000000000 }, maxKeys := 1 }

/-- The second address arrives when the bucket of the first one is full again. -/
def twoPeers : List Call :=
  [⟨.allow, ⟨.connPerIP, "192.0.2.1".toList⟩, 0, 0⟩, ⟨.blocked, ⟨.connPerIP, "192.0.2.1".toList⟩, 1, 1⟩,
    ⟨.allow, ⟨.connPerIP, "192.0.2.2".toList⟩, 90000000000, 90000000001⟩,
    ⟨.spend, ⟨.connPerIP, "192.0.2.2".toList⟩, 90000000002, 90000000002⟩]

theorem limiter_meaning_sample :
    (Limiter.granted ⟨.connPerIP, "192.0.2.1".toList⟩ 0 60000000000 { rules := tightRules } twoPeers : ℚ) ≤
      (tightRules.rule .connPerIP).capacity + (tightRules.rule .connPerIP).refillPerSecond * seconds (60000000000 - 0) ∧
    Limiter.answers { rules := tightRules } twoPeers = Limiter.answersUnbounded { rules := tightRules } twoPeers ∧
    (Limiter.after { rules := tightRules } twoPeers).buckets.size ≤ 1 ∧
    Limiter.answers { rules := tightRules } twoPeers = [some true, some true, some true, none] := by
  have ticking : Ticking 0 twoPeers := by
    simp [Ticking, twoPeers]
  have tracked : Limiter.Tracked { rules := tightRules } twoPeers := by decide +kernel
  obtain ⟨law, size⟩ := limiter_meaning tightRules 0 twoPeers
  obtain ⟨window, same⟩ := law ticking tracked
  have limits : Limiter.Limits { rules := tightRules } ⟨.connPerIP, "192.0.2.1".toList⟩ := ⟨by decide, by decide⟩
  exact ⟨window _ 0 60000000000 limits (by decide), same, size, by decide +kernel⟩

end Sample

end Mailgw.Ratelimit
