import Mailgw.Calls.Contract
import Mailgw.Deliver.Traffic

namespace Mailgw.Deliver

open Calls

structure Identity where
  addr : Chars
  authUser : Chars
  tlsPolicy : TLSPolicy
  localName : Chars
  deriving Repr, DecidableEq

namespace Identity

def of (relay : Relay) (localName : Chars) : Identity where
  addr := relay.addr
  authUser := relay.authUser
  tlsPolicy := relay.tlsPolicy
  localName := if localName = [] then "localhost".toList else localName

def key (i : Identity) : Chars :=
  i.addr ++ '\x00' :: i.authUser ++ '\x00' :: i.tlsPolicy.text ++ '\x00' :: i.localName

end Identity

theorem poolKey_eq (pool : Pool) (relay : Relay) (localName : Chars) (reuse : Bool) :
    poolKey relay (Op.options pool localName reuse).withDefaults = (Identity.of relay localName).key := by
  by_cases empty : localName = [] <;>
    simp [poolKey, Op.options, Options.withDefaults, Identity.of, Identity.key, empty]

def verified (relay : Relay) : TLSConfig := { serverName := relay.exchange, minVersion := versionTLS12 }

theorem tlsConfigFor_required {pool : Pool} {relay : Relay} {localName : Chars} {reuse : Bool}
    (required : relay.tlsPolicy = .required) :
    tlsConfigFor relay (Op.options pool localName reuse).withDefaults = verified relay := by
  by_cases empty : localName = [] <;>
    simp [tlsConfigFor, Op.options, Options.withDefaults, verified, required, empty]

structure Conn.Fits (k : Conn) (relay : Relay) (localName : Chars) : Prop where
  opened : k.opened = some (relay, localName)
  addr : k.addr = relay.addr
  required : relay.tlsPolicy = .required → k.secured = some (verified relay)
  plain : relay.tlsPolicy = .none → k.secured = none

def Conn.Kept (k : Conn) (key : Chars) : Prop :=
  ∃ relay localName, k.Fits relay localName ∧ (Identity.of relay localName).key = key

def Sent.Proper (e : Sent) : Prop :=
  match e.op, e.request with
  | op, .take key => e.conn.storedUnder = some key ∧ e.conn.Kept key ∧
    ∀ relay msg localName reuse, op = .deliver relay msg localName reuse → key = (Identity.of relay localName).key
  | .deliver relay _ _ _, .auth _ user pass =>
    user = relay.authUser ∧ pass = relay.authPass ∧ e.conn.addr = relay.addr ∧
      (e.conn.secured.isSome ∨ relay.allowInsecureAuth)
  | .deliver relay _ localName _, .mail _ _ _ | .deliver relay _ localName _, .rcpt _ _
  | .deliver relay _ localName _, .write _ _ => e.conn.Kept (Identity.of relay localName).key
  | _, _ => True

namespace World

def hold (w : World) : Option Nat → List Nat := fun p => p.elim (ids w.idle.all) w.hands

/-- The invariant of the pool and of the connections. -/
structure Sound (w : World) : Prop where
  keys : w.idle.keys.Nodup
  sole : Sole w.hold
  live : ∀ c, (w.conns c).live = true ↔ ∃ p, c ∈ w.hold p
  fresh : ∀ c, w.dialed ≤ c → (w.conns c).live = false
  stored : ∀ key, ∀ conn ∈ w.idle.slot key,
    (w.conns conn.socket.id).storedUnder = some key ∧ (w.conns conn.socket.id).Kept key
  perKey : ∀ key, ((w.idle.slot key).length : Int) ≤ w.pool.perKey
  total : 0 < w.pool.maxTotal → (w.idle.total : Int) ≤ w.pool.maxTotal
  proper : ∀ e ∈ w.log, e.Proper

structure Guar (t : Nat) (w w' : World) : Prop where
  sound : w'.Sound
  pool : w'.pool = w.pool
  hands : ∀ t', t' ≠ t → w'.hands t' = w.hands t'
  carrier : ∀ t', t' ≠ t → w'.carrier t' = w.carrier t'
  conns : ∀ t', t' ≠ t → ∀ c ∈ w.hands t', w'.conns c = w.conns c

structure Rely (t : Nat) (w w' : World) : Prop where
  sound : w'.Sound
  pool : w'.pool = w.pool
  hands : w'.hands t = w.hands t
  carrier : w'.carrier t = w.carrier t
  conns : ∀ c ∈ w.hands t, w'.conns c = w.conns c

theorem Guar.rely {t t' : Nat} {w w' : World} (guar : Guar t w w') (other : t' ≠ t) : Rely t' w w' :=
  ⟨guar.sound, guar.pool, guar.hands t' other, guar.carrier t' other, guar.conns t' other⟩

theorem Guar.refl {t : Nat} {w : World} (sound : w.Sound) : Guar t w w :=
  ⟨sound, rfl, fun _ _ => rfl, fun _ _ => rfl, fun _ _ _ _ => rfl⟩

theorem Guar.trans {t : Nat} {w w₁ w₂ : World} (first : Guar t w w₁) (second : Guar t w₁ w₂) : Guar t w w₂ where
  sound := second.sound
  pool := second.pool.trans first.pool
  hands t' other := (second.hands t' other).trans (first.hands t' other)
  carrier t' other := (second.carrier t' other).trans (first.carrier t' other)
  conns t' other c held := by
    have held' : c ∈ w₁.hands t' := by
      rw [first.hands t' other]
      exact held
    exact (second.conns t' other c held').trans (first.conns t' other c held)

section Moves
variable {w : World} {t : Nat} {op : Op}

theorem mem_ids_of_slot (sound : w.Sound) {key : Chars} {conn : Pooled} (member : conn ∈ w.idle.slot key) :
    conn.socket.id ∈ w.hold none :=
  List.mem_map_of_mem (Idle.mem_all_of_slot sound.keys member)

theorem Sound.apart (sound : w.Sound) {key : Chars} {conn : Pooled} (member : conn ∈ w.idle.slot key) {c : Nat}
    (held : c ∈ w.hands t) : conn.socket.id ≠ c := by
  rintro rfl
  cases sound.sole.apart none (some t) _ (mem_ids_of_slot sound member) held

theorem hold_hands (w : World) (t : Nat) (items : List Nat) :
    hold { w with hands := Function.update w.hands t items } = Function.update w.hold (some t) items := by
  funext p
  cases p with
  | none => rfl
  | some t' =>
    by_cases same : t' = t
    · subst same
      simp [hold]
    · simp [hold, same]

theorem hold_idle (w : World) (idle : Idle) :
    hold { w with idle } = Function.update w.hold none (ids idle.all) := by
  funext p
  cases p <;> simp [hold]

theorem guar_log (sound : w.Sound) {new : List Sent} (proper : ∀ e ∈ new, e.Proper) :
    Guar t w (w.withLog (new ++ w.log)) where
  sound := { sound with
    proper := by
      intro e member
      rcases List.mem_append.mp member with late | early
      · exact proper e late
      · exact sound.proper e early }
  pool := rfl
  hands _ _ := rfl
  carrier _ _ := rfl
  conns _ _ _ _ := rfl

theorem guar_carrier (sound : w.Sound) (conn : Option Conn) :
    Guar t w { w with carrier := Function.update w.carrier t conn } where
  sound := { sound with }
  pool := rfl
  hands _ _ := rfl
  carrier _ other := Function.update_of_ne other _ _
  conns _ _ _ _ := rfl

theorem guar_amend (sound : w.Sound) {s : Socket} (mine : s.id ∈ w.hands t) {change : Conn → Conn}
    (live : (change (w.conns s.id)).live = (w.conns s.id).live) : Guar t w (w.amend s change) where
  sound := { sound with
    live := by
      intro c
      by_cases same : c = s.id
      · subst same
        simp only [amend, Function.update_self, live]
        exact sound.live s.id
      · simp only [amend, Function.update_of_ne same]
        exact sound.live c
    fresh := by
      intro c unused
      by_cases same : c = s.id
      · subst same
        simp only [amend, Function.update_self, live]
        exact sound.fresh s.id unused
      · simp only [amend, Function.update_of_ne same]
        exact sound.fresh c unused
    stored := by
      intro key conn member
      have other := sound.apart member mine
      simp only [amend, Function.update_of_ne other]
      exact sound.stored key conn member }
  pool := rfl
  hands _ _ := rfl
  carrier _ _ := rfl
  conns t' other c held := by
    have differ : c ≠ s.id := by
      rintro rfl
      exact other (Option.some.inj (sound.sole.apart (some t') (some t) _ held mine))
    exact Function.update_of_ne differ _ _

theorem guar_shut (sound : w.Sound) {s : Socket} (mine : s.id ∈ w.hands t) : Guar t w (w.shut t s) := by
  have others : ∀ p c, c ∈ (w.shut t s).hold p ↔ c ∈ w.hold p ∧ c ≠ s.id := by
    intro p c
    have same : (w.shut t s).hold = Function.update w.hold (some t) ((w.hands t).erase s.id) := hold_hands w t _
    rw [same]
    by_cases here : p = some t
    · subst here
      rw [Function.update_self]
      exact (sound.sole.nodup (some t)).mem_erase_iff.trans and_comm
    · rw [Function.update_of_ne here]
      refine ⟨fun held => ⟨held, ?_⟩, And.left⟩
      rintro rfl
      exact here (sound.sole.apart p (some t) _ held mine)
  constructor
  · refine { sound with sole := ?_, live := ?_, fresh := ?_, stored := ?_ }
    · have same : (w.shut t s).hold = Function.update w.hold (some t) ((w.hands t).erase s.id) := hold_hands w t _
      rw [same]
      exact sound.sole.shrink (some t) List.erase_sublist
    · intro c
      simp only [others]
      by_cases same : c = s.id
      · subst same
        simp [shut, amend, putDown]
      · simp only [shut, amend, putDown, Function.update_of_ne same, ne_eq, same, not_false_eq_true, and_true]
        exact sound.live c
    · intro c unused
      by_cases same : c = s.id
      · subst same
        simp [shut, amend, putDown]
      · simp only [shut, amend, putDown, Function.update_of_ne same]
        exact sound.fresh c unused
    · intro key conn member
      have other := sound.apart member mine
      simp only [shut, amend, putDown, Function.update_of_ne other]
      exact sound.stored key conn member
  · rfl
  · exact fun t' other => Function.update_of_ne other _ _
  · exact fun _ _ => rfl
  · intro t' other c held
    have differ : c ≠ s.id := by
      rintro rfl
      exact other (Option.some.inj (sound.sole.apart (some t') (some t) _ held mine))
    exact Function.update_of_ne differ _ _

theorem guar_enroll (sound : w.Sound) {conn : Conn} (live : conn.live = true) : Guar t w (w.enroll t conn) := by
  have new : ∀ p, w.dialed ∉ w.hold p := by
    intro p held
    have alive := (sound.live w.dialed).mpr ⟨p, held⟩
    rw [sound.fresh w.dialed (Nat.le_refl _)] at alive
    cases alive
  have holds : (w.enroll t conn).hold = Function.update w.hold (some t) (w.dialed :: w.hands t) := hold_hands w t _
  constructor
  · refine { sound with sole := ?_, live := ?_, fresh := ?_, stored := ?_ }
    · rw [holds]
      exact sound.sole.fresh (some t) new
    · intro c
      by_cases same : c = w.dialed
      · subst same
        simp only [enroll, Function.update_self, live, true_iff]
        refine ⟨some t, ?_⟩
        rw [hold, Option.elim_some]
        simp
      · have kept : (∃ p, c ∈ (w.enroll t conn).hold p) ↔ ∃ p, c ∈ w.hold p := by
          rw [holds]
          refine exists_congr fun p => ?_
          by_cases here : p = some t
          · subst here
            rw [Function.update_self, List.mem_cons]
            exact or_iff_right same
          · rw [Function.update_of_ne here]
        rw [kept]
        simp only [enroll, Function.update_of_ne same]
        exact sound.live c
    · intro c unused
      have later : w.dialed + 1 ≤ c := unused
      simp only [enroll, Function.update_of_ne (show c ≠ w.dialed by omega)]
      exact sound.fresh c (by omega)
    · intro key pooled member
      have other : pooled.socket.id ≠ w.dialed := by
        intro same
        exact new none (same ▸ mem_ids_of_slot sound member)
      simp only [enroll, Function.update_of_ne other]
      exact sound.stored key pooled member
  · rfl
  · exact fun t' other => Function.update_of_ne other _ _
  · exact fun _ _ => rfl
  · intro t' _ c held
    have differ : c ≠ w.dialed := by
      rintro rfl
      exact new (some t') held
    exact Function.update_of_ne differ _ _

theorem guar_collect (sound : w.Sound) {idle : Idle} {gain : List Nat} {closed : Bool} (keys : idle.keys.Nodup)
    (split : (ids w.idle.all).Perm (gain ++ ids idle.all))
    (fewer : ∀ key, (idle.slot key).Sublist (w.idle.slot key)) :
    Guar t w ({ w with idle, closed }.pickUp t gain) := by
  have holds : ({ w with idle, closed }.pickUp t gain).hold =
      Function.update (Function.update w.hold none (ids idle.all)) (some t) (gain ++ w.hold (some t)) := by
    rw [← hold_idle w idle]
    exact hold_hands { w with idle, closed } t _
  have same : ∀ c, (∃ p, c ∈ ({ w with idle, closed }.pickUp t gain).hold p) ↔ ∃ p, c ∈ w.hold p := by
    intro c
    rw [holds]
    constructor
    · rintro ⟨p, held⟩
      by_cases mine : p = some t
      · subst mine
        rw [Function.update_self] at held
        rcases List.mem_append.mp held with gained | old
        · exact ⟨none, split.mem_iff.mpr (List.mem_append_left _ gained)⟩
        · exact ⟨some t, old⟩
      · rw [Function.update_of_ne mine] at held
        by_cases stays : p = none
        · subst stays
          rw [Function.update_self] at held
          exact ⟨none, split.mem_iff.mpr (List.mem_append_right _ held)⟩
        · rw [Function.update_of_ne stays] at held
          exact ⟨p, held⟩
    · rintro ⟨p, held⟩
      cases p with
      | none =>
        rcases List.mem_append.mp (split.mem_iff.mp held) with gained | stays
        · refine ⟨some t, ?_⟩
          rw [Function.update_self]
          exact List.mem_append_left _ gained
        · refine ⟨none, ?_⟩
          rw [Function.update_of_ne (by simp), Function.update_self]
          exact stays
      | some t' =>
        refine ⟨some t', ?_⟩
        by_cases mine : t' = t
        · subst mine
          rw [Function.update_self]
          exact List.mem_append_right _ held
        · rw [Function.update_of_ne (by simpa using mine), Function.update_of_ne (by simp)]
          exact held
  constructor
  · refine { sound with keys, sole := ?_, live := ?_, stored := ?_, perKey := ?_, total := ?_ }
    · rw [holds]
      exact sound.sole.move (by simp) split
    · intro c
      rw [same]
      exact sound.live c
    · intro key conn member
      exact sound.stored key conn ((fewer key).subset member)
    · intro key
      have shorter := (fewer key).length_le
      have bound := sound.perKey key
      show ((idle.slot key).length : Int) ≤ w.pool.perKey
      omega
    · intro limited
      have bound := sound.total limited
      have size := split.length_eq
      simp only [ids, List.length_map, List.length_append] at size
      rw [Idle.total_eq] at bound
      show (idle.total : Int) ≤ w.pool.maxTotal
      rw [Idle.total_eq]
      omega
  · rfl
  · exact fun t' other => Function.update_of_ne other _ _
  · exact fun _ _ => rfl
  · exact fun _ _ _ _ => rfl

theorem guar_store (sound : w.Sound) {key : Chars} {conn : Pooled} (mine : conn.socket.id ∈ w.hands t)
    (kept : (w.conns conn.socket.id).Kept key) (room : w.pool.refuses w.idle key = false) :
    Guar t w (w.store t key conn) := by
  simp only [Pool.refuses, Pool.isFull, decide_eq_true_eq, decide_eq_false_iff_not, not_or, not_and, Int.not_le] at room
  obtain ⟨roomy, free⟩ := room
  have holds : (w.store t key conn).hold =
      Function.update (Function.update w.hold (some t) ((w.hands t).erase conn.socket.id)) none
        (ids (w.idle.push key conn).all) := by
    funext p
    cases p with
    | none => simp [store, hold, amend, putDown]
    | some t' =>
      by_cases same : t' = t
      · subst same
        simp [store, hold, amend, putDown]
      · simp [store, hold, amend, putDown, same]
  have grown : (ids (w.idle.push key conn).all).Perm ([conn.socket.id] ++ w.hold none) := by
    have parts := (Idle.all_split sound.keys key).map fun c : Pooled => c.socket.id
    simp only [Idle.push, Idle.all_setIdle, ids, List.map_append, List.map_cons, List.map_nil]
    apply List.Perm.trans ?_ (parts.symm.append_left [conn.socket.id])
    simp only [List.map_append, ← List.append_assoc]
    exact List.perm_append_comm.append_right _
  have split : (w.hold (some t)).Perm ([conn.socket.id] ++ (w.hands t).erase conn.socket.id) :=
    List.perm_cons_erase mine
  have holds' : ∀ p, ((w.store t key conn).hold p).Perm (Function.update (Function.update w.hold (some t)
      ((w.hands t).erase conn.socket.id)) none ([conn.socket.id] ++ w.hold none) p) := by
    intro p
    rw [holds]
    cases p with
    | none =>
      rw [Function.update_self, Function.update_self]
      exact grown
    | some t' =>
      have outside : some t' ≠ none := by simp
      rw [Function.update_of_ne outside, Function.update_of_ne outside]
  have same : ∀ c, (∃ p, c ∈ (w.store t key conn).hold p) ↔ ∃ p, c ∈ w.hold p := by
    intro c
    have member : ∀ p, c ∈ (w.store t key conn).hold p ↔ _ := fun p => (holds' p).mem_iff
    simp only [member]
    constructor
    · rintro ⟨p, held⟩
      cases p with
      | none =>
        rw [Function.update_self] at held
        rcases List.mem_append.mp held with put | old
        · rw [List.mem_singleton.mp put]
          exact ⟨some t, mine⟩
        · exact ⟨none, old⟩
      | some t' =>
        rw [Function.update_of_ne (by simp)] at held
        by_cases here : t' = t
        · subst here
          rw [Function.update_self] at held
          exact ⟨some t', List.mem_of_mem_erase held⟩
        · rw [Function.update_of_ne (by simpa using here)] at held
          exact ⟨some t', held⟩
    · rintro ⟨p, held⟩
      cases p with
      | none =>
        refine ⟨none, ?_⟩
        rw [Function.update_self]
        exact List.mem_append_right _ held
      | some t' =>
        by_cases put : c = conn.socket.id
        · refine ⟨none, ?_⟩
          rw [Function.update_self, put]
          exact List.mem_append_left _ (List.mem_singleton_self _)
        · refine ⟨some t', ?_⟩
          rw [Function.update_of_ne (by simp)]
          by_cases here : t' = t
          · subst here
            rw [Function.update_self]
            exact (List.mem_erase_of_ne put).mpr held
          · rw [Function.update_of_ne (by simpa using here)]
            exact held
  have alive : ∀ c, ((w.store t key conn).conns c).live = (w.conns c).live := by
    intro c
    by_cases here : c = conn.socket.id
    · subst here
      simp [store, amend, putDown]
    · simp [store, amend, putDown, here]
  have size : (w.idle.push key conn).total = w.idle.total + 1 := by
    have length := grown.length_eq
    simp only [ids, hold, Option.elim_none, List.length_map, List.length_append, List.length_singleton] at length
    rw [Idle.total_eq, Idle.total_eq]
    omega
  constructor
  · refine { sound with keys := ?_, sole := ?_, live := ?_, fresh := ?_, stored := ?_, perKey := ?_, total := ?_ }
    · exact Idle.nodup_setIdle sound.keys
    · exact (sound.sole.move (show some t ≠ none by simp) split).congr holds'
    · intro c
      rw [same, alive]
      exact sound.live c
    · intro c unused
      rw [alive]
      exact sound.fresh c unused
    · intro key' conn' member
      have old : conn' ∈ w.idle.slot key' → ((w.store t key conn).conns conn'.socket.id).storedUnder = some key' ∧
          ((w.store t key conn).conns conn'.socket.id).Kept key' := by
        intro early
        have other := sound.apart early mine
        simp only [store, amend, putDown, Function.update_of_ne other]
        exact sound.stored key' conn' early
      simp only [store, amend, putDown, Idle.push, Idle.slot_setIdle] at member
      split at member
      · rename_i here
        subst here
        rcases List.mem_append.mp member with early | new
        · exact old early
        · rw [List.mem_singleton.mp new]
          simp only [store, amend, putDown, Function.update_self, true_and]
          obtain ⟨relay, localName, fits, same⟩ := kept
          exact ⟨relay, localName, { fits with }, same⟩
      · exact old member
    · intro key'
      show (((w.idle.push key conn).slot key').length : Int) ≤ w.pool.perKey
      simp only [Idle.push, Idle.slot_setIdle]
      split
      · simp only [List.length_append, List.length_singleton]
        omega
      · exact sound.perKey key'
    · intro limited
      have space := roomy limited
      show ((w.idle.push key conn).total : Int) ≤ w.pool.maxTotal
      omega
  · rfl
  · exact fun t' other => Function.update_of_ne other _ _
  · exact fun _ _ => rfl
  · intro t' other c held
    have differ : c ≠ conn.socket.id := by
      rintro rfl
      exact other (Option.some.inj (sound.sole.apart (some t') (some t) _ held mine))
    exact Function.update_of_ne differ _ _

end Moves

end World

end Mailgw.Deliver
