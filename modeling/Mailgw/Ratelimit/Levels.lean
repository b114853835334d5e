import Mailgw.Ratelimit.Limiter
import Mathlib.Tactic.FieldSimp
import Mathlib.Tactic.Linarith
import Mathlib.Tactic.Positivity
import Mathlib.Tactic.Ring

namespace Mailgw.Ratelimit

open Lists Queue

theorem seconds_add (d e : Int) : seconds (d + e) = seconds d + seconds e := by
  simp only [seconds, Int.cast_add]
  ring

theorem seconds_le_iff {a b : Int} : seconds a ≤ seconds b ↔ a ≤ b := by
  have positive : (0 : ℚ) < 1000000000 := by norm_num
  rw [seconds, seconds, div_le_div_iff_of_pos_right positive, Int.cast_le]

theorem seconds_sub (a b : Int) : seconds (a - b) = seconds a - seconds b := by
  simp only [seconds, Int.cast_sub]
  ring

theorem seconds_nonneg {d : Int} (forward : 0 ≤ d) : 0 ≤ seconds d := by
  have cast : (0 : ℚ) ≤ d := Int.cast_nonneg forward
  unfold seconds
  positivity

section Rules
variable {r : Rule} (on : r.enabled = true)
include on

theorem Rule.one_le_capacity : 1 ≤ r.capacity := by
  simp only [enabled, Bool.and_eq_true, decide_eq_true_eq] at on
  unfold capacity
  split
  · rename_i burst
    exact_mod_cast Int.add_one_le_iff.mpr burst
  · exact_mod_cast Int.add_one_le_iff.mpr on.1

theorem Rule.refill_nonneg : 0 ≤ r.refillPerSecond := by
  simp only [enabled, Bool.and_eq_true, decide_eq_true_eq] at on
  have rate : (0 : ℚ) ≤ r.rate := Int.cast_nonneg on.1.le
  exact div_nonneg rate (seconds_nonneg on.2.le)

end Rules

section Buckets
variable {r : Rule} {b : Bucket} {u t : Int}

theorem Bucket.accrued_eq (past : b.last ≤ t) : b.accrued r t = b.tokens + r.refillPerSecond * seconds (t - b.last) := by
  unfold accrued
  split
  · ring
  · rename_i still
    have same : t - b.last = 0 := by omega
    rw [same]
    simp [seconds]

theorem Bucket.accrued_add (past : b.last ≤ u) (later : u ≤ t) :
    b.accrued r t = b.accrued r u + r.refillPerSecond * seconds (t - u) := by
  rw [accrued_eq past, accrued_eq (past.trans later)]
  have whole : t - b.last = u - b.last + (t - u) := by ring
  rw [whole, seconds_add]
  ring

theorem Bucket.accrued_mono (on : r.enabled = true) (past : b.last ≤ u) (later : u ≤ t) :
    b.accrued r u ≤ b.accrued r t := by
  rw [accrued_add past later]
  have flowed := mul_nonneg (Rule.refill_nonneg on) (seconds_nonneg (sub_nonneg.mpr later))
  linarith

theorem Bucket.refill_tokens : (b.refill r u).tokens = min r.capacity (b.accrued r u) := by
  simp only [refill]
  split
  · rename_i over_
    exact (min_eq_left over_.le).symm
  · rename_i below
    exact (min_eq_right (not_lt.mp below)).symm

theorem Bucket.refill_last (past : b.last ≤ u) : (b.refill r u).last = u := by
  simp only [refill]
  split
  · rfl
  · omega

end Buckets

namespace Limiter

/-- What one key has at a time. A key without a bucket has its full allowance. -/
def level (l : Limiter) (key : Key) (now : Int) : ℚ :=
  match l.buckets.get key with
  | none => (l.rules.rule key.dim).capacity
  | some b => min (l.rules.rule key.dim).capacity (b.accrued (l.rules.rule key.dim) now)

/-- The clock has not gone back behind any bucket, and none is overdrawn. -/
def Sound (l : Limiter) (clock : Int) : Prop :=
  ∀ key b, l.buckets.get key = some b → b.last ≤ clock ∧ 0 ≤ b.tokens

/-- A new key arrives while every tracked bucket is in use. -/
def Crowded (l : Limiter) (key : Key) (later : Int) : Prop :=
  l.buckets.get key = none ∧ l.full = true ∧ (l.evict later).full = true

def Limits (l : Limiter) (key : Key) : Prop := key.id ≠ [] ∧ (l.rules.rule key.dim).enabled = true

instance decidableCrowded (l : Limiter) (key : Key) (later : Int) : Decidable (l.Crowded key later) :=
  inferInstanceAs (Decidable (_ ∧ _))

instance decidableLimits (l : Limiter) (key : Key) : Decidable (l.Limits key) := inferInstanceAs (Decidable (_ ∧ _))

def takeUnbounded (l : Limiter) (key : Key) (spend : Bool) (now : Int) : Limiter × Bool :=
  if key.id = [] then (l, true)
  else if !(l.rules.rule key.dim).enabled then (l, true)
  else
    match l.buckets.get key with
    | some b => l.draw key b spend now
    | none =>
      if !spend then (l, true)
      else l.draw key { tokens := (l.rules.rule key.dim).capacity, last := now } spend now

variable {l : Limiter} {key key' : Key} {b : Bucket} {spend : Bool} {clock now later t : Int}

theorem Sound.mono (sound : l.Sound clock) (goes : clock ≤ now) : l.Sound now :=
  fun key b here => ⟨(sound key b here).1.trans goes, (sound key b here).2⟩

theorem level_le (l : Limiter) (key : Key) (now : Int) : l.level key now ≤ (l.rules.rule key.dim).capacity := by
  unfold level
  split
  · exact le_refl _
  · exact min_le_left _ _

theorem level_nonneg (sound : l.Sound clock) (on : (l.rules.rule key.dim).enabled = true) (goes : clock ≤ now) :
    0 ≤ l.level key now := by
  have one := Rule.one_le_capacity on
  unfold level
  split
  · linarith
  · rename_i b here
    obtain ⟨past, held⟩ := sound key b here
    have grown := Bucket.accrued_eq (r := l.rules.rule key.dim) (past.trans goes)
    have flowed := mul_nonneg (Rule.refill_nonneg on) (seconds_nonneg (sub_nonneg.mpr (past.trans goes)))
    apply le_min <;> linarith

theorem level_later (key : Key) (sound : l.Sound clock) (on : (l.rules.rule key.dim).enabled = true) (goes : clock ≤ now)
    (later : now ≤ t) : l.level key t = min (l.rules.rule key.dim).capacity
      (l.level key now + (l.rules.rule key.dim).refillPerSecond * seconds (t - now)) := by
  have flowed := mul_nonneg (Rule.refill_nonneg on) (seconds_nonneg (sub_nonneg.mpr later))
  unfold level
  cases found : l.buckets.get key with
  | none => exact (min_eq_left (by linarith)).symm
  | some b =>
    have past := (sound key b found).1
    dsimp only
    rw [Bucket.accrued_add (past.trans goes) later]
    rcases le_total (l.rules.rule key.dim).capacity (b.accrued (l.rules.rule key.dim) now) with full | room
    · rw [min_eq_left full, min_eq_left (by linarith), min_eq_left (by linarith)]
    · rw [min_eq_right room]

theorem level_mono (sound : l.Sound clock) (on : (l.rules.rule key.dim).enabled = true) (goes : clock ≤ now)
    (later : now ≤ t) : l.level key now ≤ l.level key t := by
  have flowed := mul_nonneg (Rule.refill_nonneg on) (seconds_nonneg (sub_nonneg.mpr later))
  rw [level_later key sound on goes later]
  apply le_min (l.level_le key now)
  linarith

theorem level_evict (sound : l.Sound clock) (on : (l.rules.rule key.dim).enabled = true) (goes : clock ≤ later)
    (after : later ≤ t) : (l.evict later).level key t = l.level key t := by
  unfold level evict
  rw [Table.get_keep]
  cases found : l.buckets.get key with
  | none => rfl
  | some b =>
    have past := (sound key b found).1
    by_cases idle : (l.rules.rule key.dim).capacity ≤ b.accrued (l.rules.rule key.dim) later
    · have still := idle.trans (Bucket.accrued_mono on (past.trans goes) after)
      simp [Option.filter, idle, min_eq_left still]
    · simp [Option.filter, idle, on]

theorem Sound.evict (sound : l.Sound clock) (later : Int) : (l.evict later).Sound clock := by
  intro key b here
  rw [Limiter.evict, Table.get_keep, Option.filter_eq_some_iff] at here
  exact sound key b here.1

def Left (l l' : Limiter) (key : Key) (spent : ℚ) (now : Int) : Prop :=
  ∀ t, now ≤ t → l'.level key t = min (l.rules.rule key.dim).capacity
    (l.level key now - spent + (l.rules.rule key.dim).refillPerSecond * seconds (t - now))

theorem draw_answer (l : Limiter) (key : Key) (b : Bucket) (spend : Bool) (now : Int) :
    (l.draw key b spend now).2 =
      decide (1 ≤ min (l.rules.rule key.dim).capacity (b.accrued (l.rules.rule key.dim) now)) := by
  rw [← Bucket.refill_tokens]
  unfold draw
  dsimp only
  split
  · rename_i short
    rw [decide_eq_false (not_le.mpr short)]
  · rename_i enough
    rw [decide_eq_true (not_lt.mp enough)]

theorem draw_rules (l : Limiter) (key : Key) (b : Bucket) (spend : Bool) (now : Int) :
    (l.draw key b spend now).1.rules = l.rules := by
  unfold draw
  dsimp only
  split <;> rfl

theorem draw_get_ne (other : key' ≠ key) : (l.draw key b spend now).1.buckets.get key' = l.buckets.get key' := by
  unfold draw
  dsimp only
  split <;> exact Table.get_set_ne other

theorem draw_get (spend : Bool) (past : b.last ≤ now) (same : min (l.rules.rule key.dim).capacity
    (b.accrued (l.rules.rule key.dim) now) = l.level key now) :
    (l.draw key b spend now).1.buckets.get key = some
      ⟨l.level key now - (if spend = true ∧ 1 ≤ l.level key now then 1 else 0), now⟩ := by
  have tokens : (b.refill (l.rules.rule key.dim) now).tokens = l.level key now := Bucket.refill_tokens.trans same
  have current := Bucket.refill_last (r := l.rules.rule key.dim) past
  unfold draw
  dsimp only
  rw [tokens]
  split
  · rename_i short
    rw [if_neg fun spent => absurd spent.2 (not_le.mpr short), Table.get_set, sub_zero, ← tokens]
    congr 1
    rw [Bucket.mk.injEq]
    exact ⟨rfl, current⟩
  · rename_i enough
    rw [Table.get_set]
    congr 1
    cases spend with
    | false => simp [Bucket.ext_iff, tokens, current]
    | true => simp [current, not_lt.mp enough]

def spent (l : Limiter) (key : Key) (spend : Bool) (now : Int) : ℚ :=
  if spend = true ∧ 1 ≤ l.level key now then 1 else 0

/-- A call the limiter keeps track of: it is answered by the level, and the level falls by what it
    spends. Nothing else changes from `later` on. -/
structure Counts (l l' : Limiter) (key : Key) (spend : Bool) (now later : Int) (ok : Bool) : Prop where
  rules : l'.rules = l.rules
  answer : ok = decide (1 ≤ l.level key now)
  left : Left l l' key (l.spent key spend now) now
  others : ∀ key', key' ≠ key → (l.rules.rule key'.dim).enabled = true → ∀ t, later ≤ t → l'.level key' t = l.level key' t
  sound : l'.Sound later

theorem level_congr {l' : Limiter} (rules : l'.rules = l.rules) (same : l'.buckets.get key = l.buckets.get key) :
    l'.level key t = l.level key t := by
  unfold level
  rw [rules, same]

theorem draw_counts (sound : l.Sound clock) (limits : l.Limits key) (goes : clock ≤ now) (past : b.last ≤ now)
    (same : min (l.rules.rule key.dim).capacity (b.accrued (l.rules.rule key.dim) now) = l.level key now) :
    Counts l (l.draw key b spend now).1 key spend now now (l.draw key b spend now).2 := by
  have here := draw_get spend past same
  have held := level_nonneg sound limits.2 goes
  constructor
  · exact draw_rules l key b spend now
  · rw [draw_answer, same]
  · intro t later
    unfold level
    rw [draw_rules, here]
    dsimp only
    rw [Bucket.accrued_eq later]
    rfl
  · intro key' other _ t _
    exact level_congr (draw_rules l key b spend now) (draw_get_ne other)
  · intro key' b' found
    by_cases own : key' = key
    · rw [own, here] at found
      cases found
      refine ⟨le_refl _, ?_⟩
      dsimp only
      split
      · rename_i paid
        linarith [paid.2]
      · linarith
    · rw [draw_get_ne own] at found
      exact sound.mono goes key' b' found

theorem Sound.untouched (sound : l.Sound clock) (limits : l.Limits key) (goes : clock ≤ now)
    (none : l.buckets.get key = none) : Counts l l key false now now true := by
  have full : ∀ t, l.level key t = (l.rules.rule key.dim).capacity := by
    intro t
    unfold level
    rw [none]
  have one := Rule.one_le_capacity limits.2
  constructor
  · rfl
  · rw [full, decide_eq_true one]
  · intro t later
    have flowed := mul_nonneg (Rule.refill_nonneg limits.2) (seconds_nonneg (sub_nonneg.mpr later))
    rw [full, full, min_eq_left]
    simp only [spent, Bool.false_eq_true, false_and, ite_false]
    linarith
  · exact fun _ _ _ _ _ => rfl
  · exact sound.mono goes

theorem unbounded_counts (spend : Bool) (sound : l.Sound clock) (limits : l.Limits key) (goes : clock ≤ now) :
    Counts l (l.takeUnbounded key spend now).1 key spend now now (l.takeUnbounded key spend now).2 := by
  unfold takeUnbounded
  rw [if_neg limits.1, limits.2, Bool.not_true, if_neg Bool.false_ne_true]
  cases found : l.buckets.get key with
  | some b =>
    apply draw_counts sound limits goes ((sound key b found).1.trans goes)
    unfold level
    rw [found]
  | none =>
    cases spend with
    | false => exact sound.untouched limits goes found
    | true =>
      apply draw_counts sound limits goes (le_refl now)
      rw [Bucket.accrued_eq (le_refl _)]
      unfold level
      rw [found]
      simp [seconds]

/-- A call on a limiter that keeps track of it is one on a limiter without bounds, but for what is
    evicted. -/
theorem take_eq (now : Int) (tracked : spend = true → ¬ l.Crowded key later) : l.take key spend now later = l.takeUnbounded key spend now ∨
    l.take key spend now later = (l.evict later).takeUnbounded key spend now ∧ l.buckets.get key = none := by
  unfold take takeUnbounded
  by_cases named : key.id = []
  · simp [named]
  rw [if_neg named, if_neg named, if_neg named]
  cases on : (l.rules.rule key.dim).enabled with
  | false => simp
  | true =>
    rw [Bool.not_true, if_neg Bool.false_ne_true, if_neg Bool.false_ne_true]
    cases found : l.buckets.get key with
    | some b => exact .inl rfl
    | none =>
      cases spend with
      | false => exact .inl rfl
      | true =>
        dsimp only
        cases full : l.full with
        | false =>
          left
          simp [full]
        | true =>
          have room : (l.evict later).full = false := by
            by_contra crowded
            exact tracked rfl ⟨found, full, by simpa using crowded⟩
          have unnamed : (l.evict later).buckets.get key = none := by
            rw [evict, Table.get_keep, found]
            rfl
          right
          have rule : ((l.evict later).rules.rule key.dim).enabled = true := on
          simp only [if_true, Bool.not_true, Bool.false_eq_true, if_false, room, unnamed, rule]
          exact ⟨trivial, trivial⟩

theorem take_counts (spend : Bool) (sound : l.Sound clock) (limits : l.Limits key) (goes : clock ≤ now) (reads : now ≤ later)
    (tracked : spend = true → ¬ l.Crowded key later) :
    Counts l (l.take key spend now later).1 key spend now later (l.take key spend now later).2 := by
  rcases take_eq now tracked with same | ⟨same, unnamed⟩
  · obtain ⟨rules, answer, left, others, sound'⟩ := unbounded_counts spend sound limits goes
    rw [same]
    refine ⟨rules, answer, left, fun key' other on t after => ?_, sound'.mono reads⟩
    exact others key' other on t (reads.trans after)
  · obtain ⟨rules, answer, left, others, sound'⟩ := unbounded_counts spend (sound.evict later) limits goes
    have kept : (l.evict later).buckets.get key = l.buckets.get key := by
      rw [evict, Table.get_keep, unnamed]
      rfl
    have full : (l.evict later).level key now = l.level key now := level_congr rfl kept
    rw [same]
    constructor
    · exact rules
    · rw [answer, full]
    · unfold Left spent at left ⊢
      rw [full] at left
      exact left
    · intro key' other on t after
      rw [others key' other on t (reads.trans after), level_evict sound on (goes.trans reads) after]
    · exact sound'.mono reads

theorem take_free (spend : Bool) (now : Int) (sound : l.Sound clock) (goes : clock ≤ later) (free : ¬ l.Limits key ∨ spend = true ∧ l.Crowded key later) :
    (l.take key spend now later).2 = true ∧ (l.take key spend now later).1.rules = l.rules ∧
      (l.take key spend now later).1.Sound later ∧ ∀ key', (l.rules.rule key'.dim).enabled = true →
        ∀ t, later ≤ t → (l.take key spend now later).1.level key' t = l.level key' t := by
  have same : ∀ {l' : Limiter}, l' = l ∨ l' = l.evict later → l'.rules = l.rules ∧ l'.Sound later ∧
      ∀ key', (l.rules.rule key'.dim).enabled = true → ∀ t, later ≤ t → l'.level key' t = l.level key' t := by
    intro l' cases_
    rcases cases_ with rfl | rfl
    · exact ⟨rfl, sound.mono goes, fun _ _ _ _ => rfl⟩
    · exact ⟨rfl, (sound.evict later).mono goes, fun key' on t after => level_evict sound on goes after⟩
  unfold take
  by_cases named : key.id = []
  · rw [if_pos named]
    exact ⟨rfl, same (.inl rfl)⟩
  rw [if_neg named]
  cases on : (l.rules.rule key.dim).enabled with
  | false => exact ⟨rfl, same (.inl rfl)⟩
  | true =>
    rcases free with off | ⟨rfl, unnamed, full, crowded⟩
    · exact absurd ⟨named, on⟩ off
    · rw [Bool.not_true, if_neg Bool.false_ne_true, unnamed]
      simp only [full, crowded, Bool.false_eq_true, if_false, if_true]
      exact ⟨trivial, same (.inr rfl)⟩

theorem take_others (spend : Bool) (sound : l.Sound clock) (goes : clock ≤ now) (reads : now ≤ later) (other : key' ≠ key)
    (on : (l.rules.rule key'.dim).enabled = true) : (l.take key spend now later).1.rules = l.rules ∧
      (l.take key spend now later).1.Sound later ∧ (l.take key spend now later).1.level key' later = l.level key' later := by
  by_cases tracked : l.Limits key ∧ (spend = true → ¬ l.Crowded key later)
  · have counts := take_counts spend sound tracked.1 goes reads tracked.2
    exact ⟨counts.rules, counts.sound, counts.others key' other on later le_rfl⟩
  · have free : ¬ l.Limits key ∨ spend = true ∧ l.Crowded key later := by
      by_cases limits : l.Limits key
      · simpa [limits] using tracked
      · exact .inl limits
    obtain ⟨_, rules, sound', same⟩ := take_free spend now sound (goes.trans reads) free
    exact ⟨rules, sound', same key' on later le_rfl⟩

end Limiter

def Bucket.idle (b : Bucket) (now : Int) : ℚ := seconds (max 0 (now - b.last))

namespace Limiter

/-- New rules give a key nothing the old ones had not. What has flowed in since the bucket was last
    current flowed in under the old rules, but is made up for at the new rate: that is no more than
    at the old one, or the bucket is full with either, and it stays within the old burst. -/
def Steady (l : Limiter) (rules : Rules) (key : Key) (now : Int) : Prop :=
  let old := l.rules.rule key.dim
  let new := rules.rule key.dim
  match l.buckets.get key with
  | none => new.capacity ≤ old.capacity
  | some b =>
    (new.capacity ≤ old.capacity ∨ b.idle now * new.refillPerSecond ≤ old.capacity - b.tokens) ∧
      (b.idle now = 0 ∨ new.refillPerSecond ≤ old.refillPerSecond ∨
        new.capacity - b.tokens ≤ b.idle now * old.refillPerSecond)

variable {l : Limiter} {rules : Rules} {key : Key} {now : Int}

def peer : Key := ⟨.connPerIP, "192.0.2.1".toList⟩

end Limiter

end Mailgw.Ratelimit
