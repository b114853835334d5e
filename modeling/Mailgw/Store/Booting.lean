import Mailgw.Store.Configs

namespace Mailgw.Store

open Lists Queue

namespace ConfigCache

variable {cache : ConfigCache} {c : CachedConfig} {now id id' : Int} {row : Row}

def appliedAfter (cache : ConfigCache) (c : CachedConfig) : Option Int :=
  match cache.get c.versionID with
  | none => c.appliedAt
  | some row => row.appliedAt

/-- A bundle survives the pruning after it was stored: it was applied before, or few others were
    fetched later. -/
def Keeps (cache : ConfigCache) (c : CachedConfig) (now : Int) : Prop :=
  (cache.appliedAfter c).isSome = true ∨
    (cache.entries.countP fun entry => entry.1 ≠ c.versionID ∧
      toLex (c.fetchedAt.getD now, c.versionID) < fetchOrder entry) < keepConfigs

theorem insert_get (cache : ConfigCache) (c : CachedConfig) (now : Int) : ∃ row, (cache.insert c now).get c.versionID = some row ∧
    row.bundle = c.bundle ∧ row.fetchedAt = c.fetchedAt.getD now ∧ row.appliedAt = cache.appliedAfter c ∧
    row.appliedSeq = ((cache.get c.versionID).map Row.appliedSeq).getD 0 := by
  unfold insert appliedAfter
  rw [Table.get_set]
  cases cache.get c.versionID <;> exact ⟨_, rfl, rfl, rfl, rfl, rfl⟩

theorem insert_get_ne (other : id ≠ c.versionID) : (cache.insert c now).get id = cache.get id := Table.get_set_ne other

theorem fetchOrder_distinct (cache : ConfigCache) : (cache.entries.map fetchOrder).Nodup := by
  apply List.Nodup.of_map fun rank : Int ×ₗ Int => (ofLex rank).2
  rw [List.map_map]
  exact cache.distinct

theorem pruned_get : (cache.pruneConfigs).get id = some row ↔
    cache.get id = some row ∧ (row.appliedAt.isSome = true ∨
      (cache.entries.countP fun entry => fetchOrder (id, row) < fetchOrder entry) < keepConfigs) := by
  unfold pruneConfigs
  rw [Table.get_keep, Option.filter_eq_some_iff]
  apply and_congr_right
  intro here
  have member := Table.get_eq_some_iff.mp here
  have recent : id ∈ ((latest fetchOrder cache.entries).take keepConfigs).map Prod.fst ↔
      (id, row) ∈ (latest fetchOrder cache.entries).take keepConfigs := by
    constructor
    · intro found
      obtain ⟨entry, first, rfl⟩ := List.mem_map.mp found
      have there : entry ∈ cache.entries := mem_latest.mp (List.mem_of_mem_take first)
      have same := List.inj_on_of_nodup_map cache.distinct there member rfl
      exact same ▸ first
    · intro first
      exact List.mem_map.mpr ⟨_, first, rfl⟩
  rw [Bool.or_eq_true, decide_eq_true_eq, recent, mem_latest_take cache.fetchOrder_distinct]
  simp [member]

theorem save_get : ((cache.saveConfig c now none).1.configByVersionID c.versionID).map CachedConfig.bundle = some c.bundle ↔
    cache.Keeps c now := by
  obtain ⟨row, here, bundle, fetched, applied, _⟩ := cache.insert_get c now
  have others : ((cache.insert c now).entries.countP fun entry => fetchOrder (c.versionID, row) < fetchOrder entry) =
      cache.entries.countP fun entry => entry.1 ≠ c.versionID ∧
        toLex (c.fetchedAt.getD now, c.versionID) < fetchOrder entry := by
    have rank : fetchOrder (c.versionID, row) = toLex (c.fetchedAt.getD now, c.versionID) := by
      rw [← fetched]
      rfl
    obtain ⟨row', set⟩ : ∃ row', cache.insert c now = cache.set c.versionID row' := ⟨_, rfl⟩
    have same : row = row' := by
      rw [set, Table.get_set] at here
      exact (Option.some.inj here).symm
    rw [set, Table.set, List.countP_cons, ← same, Table.del, Table.keep, List.countP_filter, rank]
    simp [Bool.and_comm]
  have kept : (cache.insert c now).pruneConfigs.get c.versionID = some row ↔ _ := pruned_get
  rw [others, applied] at kept
  unfold Keeps
  constructor
  · intro read
    obtain ⟨found, left, same⟩ := Option.map_eq_some_iff.mp read
    obtain ⟨row', left, _⟩ := Option.map_eq_some_iff.mp left
    have stays := (pruned_get.mp left).1
    rw [here] at stays
    cases stays
    exact (kept.mp left).2
  · intro keeps
    have left := kept.mpr ⟨here, keeps⟩
    simp only [saveConfig, configByVersionID, left, Option.map_some, oneConfig, bundle]

theorem le_maxSeq (here : cache.get id = some row) : row.appliedSeq ≤ cache.maxSeq := by
  have member : row.appliedSeq ∈ cache.entries.map fun entry => entry.2.appliedSeq :=
    List.mem_map.mpr ⟨(id, row), Table.get_eq_some_iff.mp here, rfl⟩
  unfold maxSeq
  cases top : (cache.entries.map fun entry => entry.2.appliedSeq).max? with
  | none =>
    rw [List.max?_eq_none_iff] at top
    simp [top] at member
  | some most => exact (List.max?_eq_some_iff.mp top).2 _ member

theorem appliedConfig_eq (here : cache.get id = some row) (applied : row.appliedAt.isSome = true)
    (latest_ : ∀ id' row', cache.get id' = some row' → id' ≠ id → row'.appliedSeq < row.appliedSeq) :
    cache.appliedConfig = some (oneConfig (id, row)) := by
  have head : (latest appliedOrder cache.applied).head? = some (id, row) := by
    apply latest_head
    · intro entry member
      have there := Table.get_eq_some_iff.mpr (List.mem_of_mem_filter member)
      by_cases same : entry.1 = id
      · left
        rw [same, here] at there
        rw [← same, Option.some.inj there]
      · right
        apply Prod.Lex.toLex_lt_toLex.mpr
        exact .inl (latest_ entry.1 entry.2 there same)
    · exact List.mem_filter.mpr ⟨Table.get_eq_some_iff.mp here, applied⟩
  rw [appliedConfig, head]
  rfl

def AppliedLast (cache : ConfigCache) (id : Int) : Prop :=
  ∃ row, cache.get id = some row ∧ row.appliedAt.isSome = true ∧ 0 < row.appliedSeq ∧
    ∀ id' row', cache.get id' = some row' → id' ≠ id → row'.appliedSeq < row.appliedSeq

theorem AppliedLast.config (last : cache.AppliedLast id) : ∃ row, cache.get id = some row ∧
    cache.appliedConfig = some (oneConfig (id, row)) := by
  obtain ⟨row, here, applied, _, others⟩ := last
  exact ⟨row, here, appliedConfig_eq here applied others⟩

theorem AppliedLast.insert (last : cache.AppliedLast id) (c : CachedConfig) (now : Int) : (cache.insert c now).AppliedLast id := by
  obtain ⟨row, here, applied, positive, others⟩ := last
  obtain ⟨stored, there, _, _, applied', seq⟩ := cache.insert_get c now
  by_cases own : id = c.versionID
  · subst own
    rw [here] at seq
    simp only [appliedAfter, here] at applied'
    simp only [Option.map_some, Option.getD_some] at seq
    refine ⟨stored, there, by rw [applied', applied], by rw [seq]; exact positive, ?_⟩
    intro id' row' there' other
    rw [insert_get_ne other] at there'
    rw [seq]
    exact others id' row' there' other
  · refine ⟨row, (insert_get_ne own).trans here, applied, positive, ?_⟩
    intro id' row' there' other
    by_cases same : id' = c.versionID
    · subst same
      rw [there] at there'
      cases there'
      rw [seq]
      cases old : cache.get c.versionID with
      | none => exact positive
      | some row' => exact others _ row' old other
    · rw [insert_get_ne same] at there'
      exact others id' row' there' other

theorem AppliedLast.prune (last : cache.AppliedLast id) : cache.pruneConfigs.AppliedLast id := by
  obtain ⟨row, here, applied, positive, others⟩ := last
  refine ⟨row, pruned_get.mpr ⟨here, .inl applied⟩, applied, positive, ?_⟩
  intro id' row' there other
  exact others id' row' (pruned_get.mp there).1 other

theorem markApplied_last (row : Row) (here : cache.get id = some row) (counted : 0 ≤ row.appliedSeq) (time : Int) :
    (cache.markApplied id time).AppliedLast id := by
  have above := le_maxSeq here
  unfold markApplied
  rw [here]
  refine ⟨_, Table.get_set, rfl, ?_, ?_⟩
  · dsimp only
    omega
  · intro id' row' there other
    rw [Table.get_set_ne other] at there
    have below := le_maxSeq there
    dsimp only
    omega

theorem AppliedLast.markApplyError (last : cache.AppliedLast id) (id' : Int) (message : Name) :
    (cache.markApplyError id' message).AppliedLast id := by
  obtain ⟨row, here, applied, positive, others⟩ := last
  unfold ConfigCache.markApplyError
  cases found : cache.get id' with
  | none => exact ⟨row, here, applied, positive, others⟩
  | some stored =>
    by_cases own : id = id'
    · subst own
      rw [here] at found
      cases found
      refine ⟨_, Table.get_set, applied, positive, ?_⟩
      intro id'' row'' there other
      rw [Table.get_set_ne other] at there
      exact others id'' row'' there other
    · refine ⟨row, (Table.get_set_ne own).trans here, applied, positive, ?_⟩
      intro id'' row'' there other
      by_cases same : id'' = id'
      · subst same
        rw [Table.get_set] at there
        cases there
        exact others id'' stored found other
      · rw [Table.get_set_ne same] at there
        exact others id'' row'' there other

end ConfigCache

namespace ConfigStore

open ConfigCache

/-- Every row holds the bytes last saved for its version, and the version that was marked last is
    the one applied last. -/
structure Consistent (s : ConfigStore) : Prop where
  saved : ∀ id row, s.cache.get id = some row → s.saved.get id = some row.bundle
  counted : ∀ id row, s.cache.get id = some row → 0 ≤ row.appliedSeq
  marked : ∀ id, s.marked = some id → s.cache.AppliedLast id

variable {s : ConfigStore}

theorem Consistent.insert (consistent : s.Consistent) (c : CachedConfig) (now : Int) :
    Consistent { s with cache := s.cache.insert c now, saved := s.saved.set c.versionID c.bundle } := by
  obtain ⟨stored, there, bundle, _, _, seq⟩ := s.cache.insert_get c now
  constructor
  · intro id row here
    by_cases own : id = c.versionID
    · subst own
      rw [there] at here
      cases here
      rw [Table.get_set, bundle]
    · rw [insert_get_ne own] at here
      rw [Table.get_set_ne own]
      exact consistent.saved id row here
  · intro id row here
    by_cases own : id = c.versionID
    · subst own
      rw [there] at here
      cases here
      rw [seq]
      cases old : s.cache.get c.versionID with
      | none => exact le_rfl
      | some row => exact consistent.counted _ row old
    · rw [insert_get_ne own] at here
      exact consistent.counted id row here
  · intro id marked
    exact (consistent.marked id marked).insert c now

theorem Consistent.prune (consistent : s.Consistent) : Consistent { s with cache := s.cache.pruneConfigs } := by
  constructor
  · intro id row here
    exact consistent.saved id row (pruned_get.mp here).1
  · intro id row here
    exact consistent.counted id row (pruned_get.mp here).1
  · intro id marked
    exact (consistent.marked id marked).prune

theorem Consistent.set (consistent : s.Consistent) {id : Int} {row row' : Row} (here : s.cache.get id = some row)
    (same : row'.bundle = row.bundle) (counted : 0 ≤ row'.appliedSeq) {marked : Option Int}
    (last : ∀ id', marked = some id' → AppliedLast (s.cache.set id row') id') :
    Consistent { s with cache := s.cache.set id row', marked } := by
  constructor
  · intro id' stored there
    by_cases own : id' = id
    · subst own
      rw [Table.get_set] at there
      cases there
      rw [same]
      exact consistent.saved _ row here
    · rw [Table.get_set_ne own] at there
      exact consistent.saved id' stored there
  · intro id' stored there
    by_cases own : id' = id
    · subst own
      rw [Table.get_set] at there
      cases there
      exact counted
    · rw [Table.get_set_ne own] at there
      exact consistent.counted id' stored there
  · exact last

theorem Consistent.after (consistent : s.Consistent) (move : ConfigMove) : (s.after move).Consistent := by
  cases move with
  | reboot => exact consistent
  | setDesired id fails =>
    cases fails with
    | true => exact consistent
    | false => exact ⟨consistent.saved, consistent.counted, consistent.marked⟩
  | save c now fault =>
    cases fault with
    | none => exact (consistent.insert c now).prune
    | some fault =>
      cases fault with
      | cache => exact consistent
      | prune => exact consistent.insert c now
  | markApplied id time fails =>
    cases fails with
    | true => exact consistent
    | false =>
      cases found : s.cache.get id with
      | none =>
        simp only [ConfigStore.after, ConfigCache.markApplied, found]
        exact consistent
      | some row =>
        have counted := consistent.counted id row found
        have below := le_maxSeq found
        have last := markApplied_last row found counted time
        simp only [ConfigCache.markApplied, found] at last
        simp only [ConfigStore.after, ConfigCache.markApplied, found, Bool.false_eq_true, if_false, Option.isSome_some, if_true]
        apply consistent.set found
        · rfl
        · dsimp only
          omega
        · intro id' marked
          cases marked
          exact last
  | markApplyError id message fails =>
    cases fails with
    | true => exact consistent
    | false =>
      cases found : s.cache.get id with
      | none =>
        simp only [ConfigStore.after, ConfigCache.markApplyError, found]
        exact consistent
      | some row =>
        simp only [ConfigStore.after, ConfigCache.markApplyError, found, Bool.false_eq_true, if_false]
        apply consistent.set found
        · rfl
        · exact consistent.counted id row found
        · intro id' marked
          have last := (consistent.marked id' marked).markApplyError id message
          simp only [ConfigCache.markApplyError, found] at last
          exact last

theorem Consistent.run (consistent : s.Consistent) (moves : List ConfigMove) : (moves.foldl ConfigStore.after s).Consistent := by
  induction moves generalizing s with
  | nil => exact consistent
  | cons move rest ih => exact ih (consistent.after move)

theorem consistent_fresh : Consistent {} := by
  constructor
  · intro id row none
    cases none
  · intro id row none
    cases none
  · intro id none
    cases none

structure Lawful (s : ConfigStore) : Prop where
  saves : ∀ c now, (s.cache.saveConfig c now none).2 = .ok () ∧
    (((s.cache.saveConfig c now none).1.configByVersionID c.versionID).map CachedConfig.bundle = some c.bundle ↔
      s.cache.Keeps c now)
  applied : ∀ id, s.marked = some id → ∃ c, s.cache.appliedConfig = some c ∧ s.cache.configByVersionID id = some c ∧
    c.versionID = id ∧ s.saved.get id = some c.bundle
  boots : s.boot = if s.desired ≠ 0 ∧ (s.cache.configByVersionID s.desired).isSome = true
    then s.cache.configByVersionID s.desired else s.cache.appliedConfig
  offline : s.marked ≠ none → s.boot.isSome = true

theorem boot_eq (s : ConfigStore) : s.boot = if s.desired ≠ 0 ∧ (s.cache.configByVersionID s.desired).isSome = true
    then s.cache.configByVersionID s.desired else s.cache.appliedConfig := by
  unfold boot bootConfig
  by_cases unset : s.desired = 0
  · simp [unset]
  · cases found : s.cache.configByVersionID s.desired <;> simp [unset, found]

theorem Consistent.lawful (consistent : s.Consistent) : s.Lawful := by
  have applied : ∀ id, s.marked = some id → ∃ c, s.cache.appliedConfig = some c ∧
      s.cache.configByVersionID id = some c ∧ c.versionID = id ∧ s.saved.get id = some c.bundle := by
    intro id marked
    obtain ⟨row, here, config⟩ := (consistent.marked id marked).config
    refine ⟨oneConfig (id, row), config, ?_, rfl, consistent.saved id row here⟩
    rw [configByVersionID, here]
    rfl
  constructor
  · intro c now
    exact ⟨rfl, save_get⟩
  · exact applied
  · exact s.boot_eq
  · intro marked
    rw [boot_eq]
    split
    · rename_i desired
      exact desired.2
    · obtain ⟨id, last⟩ := Option.ne_none_iff_exists'.mp marked
      obtain ⟨c, config, _⟩ := applied id last
      rw [config]
      rfl

/-- The cache keeps its promises after every sequence of operations, whatever the clock shows. -/
theorem cache_lawful (moves : List ConfigMove) : (moves.foldl after {}).Lawful :=
  (consistent_fresh.run moves).lawful

end ConfigStore

/-- Ten versions were fetched before the clock stepped back. -/
def tenVersions : List ConfigMove :=
  (List.range 10).map fun i : Nat => .save { versionID := i + 1, bundle := [i.toUInt8], fetchedAt := some 100 } 100 none

/-- What is saved then is gone at once. -/
theorem saved_gone : ¬ ∀ (moves : List ConfigMove) (c : CachedConfig) (now : Int),
    ((moves.foldl ConfigStore.after {}).cache.saveConfig c now none).2 = .ok () →
    (((moves.foldl ConfigStore.after {}).cache.saveConfig c now none).1.configByVersionID c.versionID).map
      CachedConfig.bundle = some c.bundle := by
  intro kept
  have gone : (((tenVersions.foldl ConfigStore.after {}).cache.saveConfig
      { versionID := 11, bundle := [11], fetchedAt := some 50 } 50 none).1.configByVersionID 11).map
      CachedConfig.bundle = none := by decide
  have read := kept tenVersions { versionID := 11, bundle := [11], fetchedAt := some 50 } 50 rfl
  rw [gone] at read
  cases read

end Mailgw.Store
