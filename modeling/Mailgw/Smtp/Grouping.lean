import Mailgw.Smtp.Split
import Mailgw.Text.Paths

namespace Mailgw.Smtp

open Queue Rules Lists

namespace Fate

def failed? : Fate → Option FailedRcpt
  | .failed f => some f
  | _ => none

def relayed? : Fate → Option (Destination × Tags × BucketRcpt)
  | .relayed dest tags rcpt => some (dest, tags, rcpt)
  | _ => none

end Fate

namespace Destination

def texts (d : Destination) : List Name :=
  d.group :: (if d.quarantine then ['q'] else []) :: d.headers.map fun h => h.name ++ ':' :: h.value

/-- The texts of a destination, cut at every NUL in them. -/
def pieces (d : Destination) : List Name := d.texts.flatMap fun t => t.splitOn nul

end Destination

theorem splitOn_headers (mark : Name) (hs : List Rules.Header) :
    (mark ++ hs.flatMap fun h => nul :: (h.name ++ ':' :: h.value)).splitOn nul =
      mark.splitOn nul ++ (hs.map fun h => h.name ++ ':' :: h.value).flatMap fun t => t.splitOn nul := by
  induction hs generalizing mark with
  | nil => simp
  | cons h rest ih =>
    simp only [List.flatMap_cons, List.cons_append, List.map_cons]
    rw [List.splitOn_append_cons_self, ih]

theorem splitOn_bucketKey (d : Destination) : (bucketKey d).splitOn nul = d.pieces := by
  unfold bucketKey Destination.pieces Destination.texts
  rw [List.splitOn_append_cons_self, splitOn_headers]
  simp

/-- Destinations share a key exactly when their texts read the same once they are cut at NUL. -/
theorem bucketKey_eq_iff (d d' : Destination) : bucketKey d = bucketKey d' ↔ d.pieces = d'.pieces := by
  rw [← splitOn_bucketKey, ← splitOn_bucketKey]
  constructor
  · intro same
    rw [same]
  · intro same
    have back := congrArg ([nul].intercalate) same
    rwa [List.intercalate_splitOn, List.intercalate_splitOn] at back

/-- Nothing in the destination contains the separator, and no header name a colon. -/
structure Destination.Plain (d : Destination) : Prop where
  group : nul ∉ d.group
  headers : ∀ h ∈ d.headers, nul ∉ h.name ∧ nul ∉ h.value ∧ ':' ∉ h.name

theorem Destination.Plain.pieces_eq {d : Destination} (plain : d.Plain) : d.pieces = d.texts := by
  have alone : ∀ t ∈ d.texts, t.splitOn nul = [t] := by
    intro t member
    apply List.splitOn_eq_singleton
    simp only [texts, List.mem_cons, List.mem_map] at member
    rcases member with rfl | rfl | ⟨h, within, rfl⟩
    · exact plain.group
    · split <;> decide
    · have clean := plain.headers h within
      have colon : nul ≠ ':' := by decide
      simp [clean.1, clean.2.1, colon]
  unfold pieces
  rw [List.flatMap_congr alone]
  simp

theorem header_lines_inj {hs hs' : List Rules.Header} (clean : ∀ h ∈ hs, ':' ∉ h.name) (clean' : ∀ h ∈ hs', ':' ∉ h.name)
    (lines : (hs.map fun h => h.name ++ ':' :: h.value) = hs'.map fun h => h.name ++ ':' :: h.value) : hs = hs' := by
  induction hs generalizing hs' with
  | nil => cases hs' <;> simp_all
  | cons h rest ih =>
    cases hs' with
    | nil => simp at lines
    | cons h' rest' =>
      simp only [List.map_cons, List.cons.injEq] at lines
      simp only [List.mem_cons, forall_eq_or_imp] at clean clean'
      obtain ⟨names, values⟩ := Text.append_sep_inj clean.1 clean'.1 lines.1
      rw [ih clean.2 clean'.2 lines.2]
      cases h
      cases h'
      simp_all

theorem Destination.Plain.pieces_inj {d d' : Destination} (plain : d.Plain) (plain' : d'.Plain)
    (same : d.pieces = d'.pieces) : d = d' := by
  rw [plain.pieces_eq, plain'.pieces_eq] at same
  have headers := header_lines_inj (fun h member => (plain.headers h member).2.2)
    (fun h member => (plain'.headers h member).2.2) (List.cons.inj (List.cons.inj same).2).2
  obtain ⟨group, quarantine, hs⟩ := d
  obtain ⟨group', quarantine', hs'⟩ := d'
  simp only [texts, List.cons.injEq] at same headers
  obtain ⟨rfl, marks, -⟩ := same
  subst headers
  have flags : quarantine = quarantine' := by cases quarantine <;> cases quarantine' <;> simp_all
  rw [flags]

structure Gathers (fates : List Fate) (c : Collected) : Prop where
  failed : c.failed = fates.filterMap Fate.failed?
  dropped : c.dropped = fates.countP fun f => f = .dropped
  buckets : Groups.Collects (fun r : Destination × Tags × BucketRcpt => bucketKey r.1) (fun r => (r.1, r.2.1)) (fun r => r.2.2)
    (fates.filterMap Fate.relayed?) c.buckets

theorem gathers (fates : List Fate) : Gathers fates (fates.foldl Collected.add {}) := by
  induction fates using List.reverseRecOn with
  | nil => exact ⟨rfl, rfl, .nil⟩
  | append_singleton fates fate ih =>
    rw [List.foldl_append, List.foldl_cons, List.foldl_nil]
    cases fate with
    | failed f =>
      refine ⟨?_, ?_, ?_⟩
      · simp [Collected.add, ih.failed, Fate.failed?]
      · simp [Collected.add, ih.dropped, List.countP_append]
      · simpa [Collected.add, List.filterMap_cons, Fate.relayed?] using ih.buckets
    | dropped =>
      refine ⟨?_, ?_, ?_⟩
      · simp [Collected.add, ih.failed, List.filterMap_cons, Fate.failed?]
      · simp [Collected.add, ih.dropped, List.countP_append]
      · simpa [Collected.add, List.filterMap_cons, Fate.relayed?] using ih.buckets
    | relayed dest tags rcpt =>
      refine ⟨?_, ?_, ?_⟩
      · simp [Collected.add, ih.failed, List.filterMap_cons, Fate.failed?]
      · simp [Collected.add, ih.dropped, List.countP_append]
      · have grown := ih.buckets.add (dest, tags, rcpt)
        simpa [Collected.add, List.filterMap_append, List.filterMap_cons, Fate.relayed?] using grown

theorem length_fates (fates : List Fate) :
    (fates.filterMap Fate.failed?).length + fates.countP (fun f => f = .dropped) +
      (fates.filterMap Fate.relayed?).length = fates.length := by
  induction fates with
  | nil => rfl
  | cons fate rest ih =>
    cases fate <;> simp [List.filterMap_cons, Fate.failed?, Fate.relayed?] <;> omega

section Splitting
variable [Text.LowerCase] {s : Session} {bodyName : Name} {size : Nat} {now : Instant} {msgDrop : Option Drop}

namespace Session

def Bound (s : Session) (msgDrop : Option Drop) (rs : RcptState) (d : Destination) : Prop :=
  ∃ tags rcpt, s.settle msgDrop rs = .relayed d tags rcpt

/-- The recipient with its own DSN parameters, as an envelope for the destination has it. -/
def recipientFor (s : Session) (msgDrop : Option Drop) (d : Destination) (rs : RcptState) : Option Recipient :=
  match s.settle msgDrop rs with
  | .relayed d' _ rcpt =>
    if d' = d then some { addr := rs.addr, status := .pending, routeRule := rcpt.rule, origRcpt := rs.orcpt,
                          origRcptType := rs.orcptType, notify := rs.notify }
    else none
  | _ => none

/-- Every recipient is counted once, and there is one envelope for each destination, with the
    recipients bound for it in their order. -/
structure Separates (s : Session) (bodyName : Name) (size : Nat) (now : Instant) (msgDrop : Option Drop) : Prop where
  failed : (s.split bodyName size now msgDrop).failed = s.rcpts.filterMap fun rs => (s.settle msgDrop rs).failed?
  dropped : (s.split bodyName size now msgDrop).dropped = s.rcpts.countP fun rs => s.settle msgDrop rs = .dropped
  total : (s.split bodyName size now msgDrop).failed.length + (s.split bodyName size now msgDrop).dropped +
    ((s.split bodyName size now msgDrop).envelopes.map fun o => o.env.rcpts.length).sum = s.rcpts.length
  envelopes : ∃ dests : List Destination, dests.Nodup ∧ (∀ d, d ∈ dests ↔ ∃ rs ∈ s.rcpts, s.Bound msgDrop rs d) ∧
    List.Forall₂ (fun d o => o.env.relayGrp = d.group ∧ o.quarantined = d.quarantine ∧
      o.env.prepend = toQueueHeaders d.headers ∧ o.env.rcpts = s.rcpts.filterMap (s.recipientFor msgDrop d))
      dests (s.split bodyName size now msgDrop).envelopes

end Session

theorem collect_eq (s : Session) (msgDrop : Option Drop) :
    s.collect msgDrop = (s.rcpts.map (s.settle msgDrop)).foldl Collected.add {} := by
  rw [List.foldl_map]
  rfl

theorem settle_relayed {rs : RcptState} {dest : Destination} {tags : Tags} {rcpt : BucketRcpt}
    (relayed : s.settle msgDrop rs = .relayed dest tags rcpt) : rcpt = newBucketRcpt rs rcpt.rule := by
  unfold Session.settle at relayed
  dsimp only at relayed
  split at relayed
  · cases relayed
  · split at relayed
    · rename_i e headers fate ended
      unfold Session.dataPolicy at ended
      split at ended
      · cases ended
      · dsimp only at ended
        split at ended <;> cases ended <;> cases relayed
    · unfold Session.dispatch at relayed
      split at relayed
      · cases relayed
      · split at relayed <;> cases relayed
        rfl

def sortedBuckets (s : Session) (msgDrop : Option Drop) : Buckets :=
  (s.collect msgDrop).buckets.insertionSort fun b b' => b.1 ≤ b'.1

theorem sortedBuckets_collects (s : Session) (msgDrop : Option Drop) :
    Groups.Collects (fun r : Destination × Tags × BucketRcpt => bucketKey r.1) (fun r => (r.1, r.2.1)) (fun r => r.2.2)
      ((s.rcpts.map (s.settle msgDrop)).filterMap Fate.relayed?) (sortedBuckets s msgDrop) := by
  have collected := (gathers (s.rcpts.map (s.settle msgDrop))).buckets
  rw [← collect_eq] at collected
  exact collected.perm (List.perm_insertionSort _ _)

theorem mem_relayed {r : Destination × Tags × BucketRcpt} :
    r ∈ (s.rcpts.map (s.settle msgDrop)).filterMap Fate.relayed? ↔
      ∃ rs ∈ s.rcpts, s.settle msgDrop rs = .relayed r.1 r.2.1 r.2.2 := by
  simp only [List.mem_filterMap, List.mem_map]
  constructor
  · rintro ⟨fate, ⟨rs, member, rfl⟩, relayed⟩
    refine ⟨rs, member, ?_⟩
    cases fate : s.settle msgDrop rs <;> rw [fate] at relayed <;> cases relayed
    rfl
  · rintro ⟨rs, member, relayed⟩
    exact ⟨_, ⟨rs, member, rfl⟩, by rw [relayed]; rfl⟩

theorem bucket_label {b : Name × (Destination × Tags) × List BucketRcpt} (member : b ∈ sortedBuckets s msgDrop) :
    bucketKey b.2.1.1 = b.1 ∧ ∃ rs ∈ s.rcpts, s.Bound msgDrop rs b.2.1.1 := by
  obtain ⟨r, within, key, label⟩ := (sortedBuckets_collects s msgDrop).labels b member
  obtain ⟨rs, there, relayed⟩ := mem_relayed.mp within
  rw [← label]
  exact ⟨key, rs, there, _, _, relayed⟩

theorem bucket_of_bound {rs : RcptState} {d : Destination} (member : rs ∈ s.rcpts) (bound : s.Bound msgDrop rs d) :
    bucketKey d ∈ (sortedBuckets s msgDrop).keys := by
  obtain ⟨tags, rcpt, relayed⟩ := bound
  exact (sortedBuckets_collects s msgDrop).covers (d, tags, rcpt) (mem_relayed.mpr ⟨rs, member, relayed⟩)

theorem split_envelopes (s : Session) (bodyName : Name) (size : Nat) (now : Instant) (msgDrop : Option Drop) :
    (s.split bodyName size now msgDrop).envelopes = (sortedBuckets s msgDrop).mapIdx fun i b =>
      s.envelopeOf bodyName size now i b.2.1.1 b.2.1.2 b.2.2 := rfl

def Distinct (s : Session) (msgDrop : Option Drop) : Prop :=
  ∀ rs ∈ s.rcpts, ∀ rs' ∈ s.rcpts, ∀ d d', s.Bound msgDrop rs d → s.Bound msgDrop rs' d' → d.pieces = d'.pieces → d = d'

theorem distinct_of_separates (separates : s.Separates bodyName size now msgDrop) : Distinct s msgDrop := by
  obtain ⟨dests, nodup, bound, envelopes⟩ := separates.envelopes
  have count : dests.length = (sortedBuckets s msgDrop).keys.length := by
    rw [envelopes.length_eq, split_envelopes, List.length_mapIdx, Groups.keys, List.length_map]
  have covered : (sortedBuckets s msgDrop).keys ⊆ dests.map bucketKey := by
    intro key member
    obtain ⟨b, within, rfl⟩ := List.mem_map.mp member
    obtain ⟨key, someone⟩ := bucket_label within
    exact List.mem_map.mpr ⟨b.2.1.1, (bound _).mpr someone, key⟩
  intro rs member rs' member' d d' here there same
  exact Lists.injOn_of_covers (sortedBuckets_collects s msgDrop).nodup covered count d ((bound d).mpr ⟨rs, member, here⟩)
    d' ((bound d').mpr ⟨rs', member', there⟩) ((bucketKey_eq_iff d d').mpr same)

theorem bucket_rcpts (distinct : Distinct s msgDrop) {b : Name × (Destination × Tags) × List BucketRcpt}
    (member : b ∈ sortedBuckets s msgDrop) :
    b.2.2.map BucketRcpt.toRecipient = s.rcpts.filterMap (s.recipientFor msgDrop b.2.1.1) := by
  obtain ⟨key, rs₀, there, bound₀⟩ := bucket_label member
  rw [(sortedBuckets_collects s msgDrop).items b member, List.filterMap_map, List.filter_filterMap, List.map_filterMap,
    List.map_filterMap]
  apply List.filterMap_congr
  intro rs within
  simp only [Function.comp_apply, Session.recipientFor]
  cases fate : s.settle msgDrop rs with
  | failed f => rfl
  | dropped => rfl
  | relayed d tags rcpt =>
    have own := settle_relayed fate
    have keys : bucketKey d = b.1 ↔ d = b.2.1.1 := by
      constructor
      · intro same
        exact distinct rs within rs₀ there _ _ ⟨tags, rcpt, fate⟩ bound₀
          ((bucketKey_eq_iff _ _).mp (same.trans key.symm))
      · rintro rfl
        exact key
    by_cases same : d = b.2.1.1
    · subst same
      rw [own]
      simp [Fate.relayed?, key, newBucketRcpt, BucketRcpt.toRecipient]
    · simp [Fate.relayed?, mt keys.mp same, same]

theorem separates_of_distinct (distinct : Distinct s msgDrop) : s.Separates bodyName size now msgDrop := by
  have collected := gathers (s.rcpts.map (s.settle msgDrop))
  rw [← collect_eq] at collected
  have fates := length_fates (s.rcpts.map (s.settle msgDrop))
  refine ⟨?_, ?_, ?_, (sortedBuckets s msgDrop).map fun b => b.2.1.1, ?_, ?_, ?_⟩
  · exact collected.failed.trans List.filterMap_map
  · exact collected.dropped.trans List.countP_map
  · have relayed := (sortedBuckets_collects s msgDrop).count
    have sizes : ((s.split bodyName size now msgDrop).envelopes.map fun o => o.env.rcpts.length) =
        (sortedBuckets s msgDrop).map fun b => b.2.2.length := by
      rw [split_envelopes]
      apply List.ext_getElem
      · simp
      · intro i here there
        simp [Session.envelopeOf]
    have failed : (s.split bodyName size now msgDrop).failed.length =
        ((s.rcpts.map (s.settle msgDrop)).filterMap Fate.failed?).length := congrArg _ collected.failed
    have dropped : (s.split bodyName size now msgDrop).dropped = _ := collected.dropped
    rw [sizes, relayed, failed, dropped]
    rw [List.length_map] at fates
    omega
  · have nodup := (sortedBuckets_collects s msgDrop).nodup
    have keys : ((sortedBuckets s msgDrop).map fun b => b.2.1.1).map bucketKey = (sortedBuckets s msgDrop).keys := by
      rw [List.map_map]
      exact List.map_congr_left fun b member => (bucket_label member).1
    rw [← keys] at nodup
    exact List.Nodup.of_map _ nodup
  · intro d
    rw [List.mem_map]
    constructor
    · rintro ⟨b, member, rfl⟩
      exact (bucket_label member).2
    · rintro ⟨rs, member, bound⟩
      obtain ⟨b, within, key⟩ := List.mem_map.mp (bucket_of_bound member bound)
      obtain ⟨label, rs', member', bound'⟩ := bucket_label within
      exact ⟨b, within, distinct rs' member' rs member _ _ bound' bound
        ((bucketKey_eq_iff _ _).mp (label.trans key))⟩
  · rw [split_envelopes, List.forall₂_iff_get]
    refine ⟨by simp, fun i here there => ?_⟩
    have inside : i < (sortedBuckets s msgDrop).length := by simpa using here
    have member := List.getElem_mem inside
    simp only [List.get_eq_getElem, List.getElem_map, List.getElem_mapIdx, Session.envelopeOf]
    exact ⟨trivial, trivial, trivial, bucket_rcpts distinct member⟩

/-- `split` gives every destination one envelope of its own exactly when no two destinations read
    the same once their texts are cut at NUL. -/
theorem split_separates_iff (s : Session) (bodyName : Name) (size : Nat) (now : Instant) (msgDrop : Option Drop) :
    s.Separates bodyName size now msgDrop ↔ Distinct s msgDrop :=
  ⟨distinct_of_separates, separates_of_distinct⟩

end Splitting

section Sample

local instance : Text.LowerCase := ⟨Char.toLower⟩
local instance : CaseFolding := ⟨Char.toLower⟩
local instance : Patterns := ⟨fun _ _ _ => none, fun _ => none, fun _ => none, fun _ => none⟩

def sampleTo (addr : String) : Pred := .field { field := "rcpt.to".toList, op := some .eq, value := some (.str addr.toList) }

def nulHeader : Rules.File where
  policy := [
    { name := "one".toList, pred := sampleTo "one@example.com"
      actions := [.addHeader "X".toList ('1' :: nul :: "Y:2".toList)] },
    { name := "two".toList, pred := sampleTo "two@example.com"
      actions := [.addHeader "X".toList "1".toList, .addHeader "Y".toList "2".toList] }]
  routes := [{ name := "out".toList, pred := .all [], actions := [.relay "out".toList] }]

def sampleBackend : Backend := { hostname := "mx.example.com".toList }

def sessionWith (rs : Ruleset) (rcpts : List Name) : Option Session :=
  match newSession "C".toList "client".toList none {} (some rs) with
  | .error _ => none
  | .ok s =>
    match s.mail sampleBackend {} "sender@example.com".toList none with
    | (_, some _) => none
    | (s, none) => rcpts.foldl (fun s addr => s.bind fun s =>
        match s.rcpt {} addr none with
        | (_, some _) => none
        | (s, none) => some s) (some s)

def collides (s : Session) : Bool :=
  match s.rcpts.map (s.settle none) with
  | [.relayed d _ _, .relayed d' _ _] => d.pieces = d'.pieces ∧ d ≠ d'
  | _ => false

theorem not_distinct_of_collides {s : Session} (collision : collides s = true) : ¬ Distinct s none := by
  intro distinct
  unfold collides at collision
  split at collision
  · rename_i d tags rcpt d' tags' rcpt' fates
    obtain ⟨same, differ⟩ := of_decide_eq_true collision
    obtain ⟨rs, rest, rcpts, first, others⟩ := List.map_eq_cons_iff.mp fates
    obtain ⟨rs', rest', rcpts', second, -⟩ := List.map_eq_cons_iff.mp others
    exact differ (distinct rs (by simp [rcpts]) rs' (by simp [rcpts, rcpts']) d d' ⟨_, _, first⟩ ⟨_, _, second⟩ same)
  · cases collision

/-- Recipients of a valid rule file with different headers can share an envelope. -/
theorem headers_merged : ∃ f rs s, compile f none = .ok rs ∧
    sessionWith rs ["one@example.com".toList, "two@example.com".toList] = some s ∧
    ¬ s.Separates "C.1.eml".toList 0 .zero none := by
  have outcome : ((compile nulHeader none).toOption.bind fun rs =>
      (sessionWith rs ["one@example.com".toList, "two@example.com".toList]).map collides) = some true := by
    decide +kernel
  obtain ⟨rs, compiled, rest⟩ := Option.bind_eq_some_iff.mp outcome
  obtain ⟨s, accepted, collision⟩ := Option.map_eq_some_iff.mp rest
  have valid : compile nulHeader none = .ok rs := by
    cases result : compile nulHeader none with
    | error err =>
      rw [result] at compiled
      cases compiled
    | ok rs' =>
      rw [result] at compiled
      cases compiled
      rfl
  exact ⟨nulHeader, rs, s, valid, accepted, fun separates =>
    not_distinct_of_collides collision (distinct_of_separates separates)⟩

end Sample

end Mailgw.Smtp
