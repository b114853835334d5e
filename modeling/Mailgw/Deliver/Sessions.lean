import Mailgw.Deliver.Custody

namespace Mailgw.Deliver

open Calls

def Net.Plain : Net → Prop
  | .extension _ _ | .auth _ _ _ | .rcpt _ _ | .data _ | .write _ _ | .close _ | .closeWithResponse _
  | .reset _ | .clock => True
  | _ => False

theorem Net.Plain.respond {t : Nat} {op : Op} {reply : Reply} {w : World} {request : Net} (plain : request.Plain) :
    (respond t op reply w request).2 = w := by
  cases request with
  | closeWithResponse s => cases fault : reply.fault <;> simp [Deliver.respond, fault]
  | _ => first | rfl | cases plain

theorem mem_record {op : Op} {w : World} {request : Net} {answer : request.Answer} {e : Sent}
    (named : ∀ key, request ≠ .take key) (member : e ∈ record op w request answer) :
    ∃ s ∈ request.socket?, e = ⟨op, request, w.conns s.id⟩ := by
  cases request with
  | take key => exact (named key rfl).elim
  | _ => simp_all [record, Net.socket?]

namespace World

def contract (t : Nat) (op : Op) : Contract Net Net.Answer World where
  step request w answer w' := ∃ reply, exec t op reply w request = (answer, w')
  rely := Rely t
  guar := Guar t

structure Has (t : Nat) (items : List Nat) (known : Option Conn) (carrier : Option Conn) (w : World) : Prop where
  sound : w.Sound
  hands : w.hands t = items
  carrier : w.carrier t = carrier
  first : ∀ c ∈ items.head?, ∀ conn ∈ known, w.conns c = conn

section Rules
variable {t : Nat} {op : Op} {items : List Nat} {known carrier : Option Conn} {w : World} {α : Type}
  {request : Net} {next : request.Answer → Client α} {post : α → World → Prop}

theorem Has.stable : Stable (contract t op) (Has t items known carrier) := by
  intro w w' move has
  refine ⟨move.sound, move.hands.trans has.hands, move.carrier.trans has.carrier, fun c head conn knows => ?_⟩
  rw [move.conns c]
  · exact has.first c head conn knows
  · rw [has.hands]
    exact List.mem_of_mem_head? head

theorem Has.forget (has : Has t items known carrier w) : Has t items none carrier w :=
  ⟨has.sound, has.hands, has.carrier, fun _ _ _ knows => by cases knows⟩

theorem sat_call {before : World → Prop} (after : request.Answer → World → Prop) (stable : Stable (contract t op) before)
    (holds : before w)
    (effect : ∀ w₁ reply, before w₁ → w₁.Sound ∧ Guar t w₁ (respond t op reply w₁ request).2 ∧
      ∀ log, ((respond t op reply w₁ request).2.withLog log).Sound →
        after (respond t op reply w₁ request).1 ((respond t op reply w₁ request).2.withLog log))
    (proper : ∀ w₁ reply, before w₁ → ∀ e ∈ record op w₁ request (respond t op reply w₁ request).1, e.Proper)
    (rest : ∀ answer w', after answer w' → Sat (contract t op) post (next answer) w') :
    Sat (contract t op) post (ask request >>= next) w := by
  apply Sat.call before stable holds
  rintro w₁ holds₁ answer w₂ ⟨reply, same⟩
  have answered : (respond t op reply w₁ request).1 = answer := congrArg Prod.fst same
  have moved : (exec t op reply w₁ request).2 = w₂ := congrArg Prod.snd same
  subst answered moved
  obtain ⟨-, guar, ends⟩ := effect w₁ reply holds₁
  have logged : Guar t _ _ := guar_log guar.sound (proper w₁ reply holds₁)
  exact ⟨guar.trans logged, rest _ _ (ends _ logged.sound)⟩

theorem Has.proper (has : Has t items known carrier w) (named : ∀ key, request ≠ .take key)
    (about : ∀ s ∈ request.socket?, s.id ∈ items.head?)
    (fine : ∀ conn, (∀ k ∈ known, conn = k) → Sent.Proper ⟨op, request, conn⟩) {answer : request.Answer} :
    ∀ e ∈ record op w request answer, e.Proper := by
  intro e member
  obtain ⟨s, named, rfl⟩ := mem_record named member
  exact fine _ fun k knows => has.first s.id (about s named) k knows

theorem sat_plain (plain : request.Plain) (has : Has t items known carrier w)
    (about : ∀ s ∈ request.socket?, s.id ∈ items.head?)
    (fine : ∀ conn, (∀ k ∈ known, conn = k) → Sent.Proper ⟨op, request, conn⟩)
    (rest : ∀ answer w', Has t items known carrier w' → Sat (contract t op) post (next answer) w') :
    Sat (contract t op) post (ask request >>= next) w := by
  apply sat_call (fun _ => Has t items known carrier) Has.stable has
  · intro w₁ reply has₁
    rw [plain.respond]
    refine ⟨has₁.sound, ?_, fun log sound => ⟨sound, has₁.hands, has₁.carrier, has₁.first⟩⟩
    exact Guar.refl has₁.sound
  · intro w₁ reply has₁
    apply has₁.proper _ about fine
    rintro key rfl
    exact plain
  · exact rest

theorem sat_mail {s : Socket} {sender : Chars} {opts : MailOptions} {k : Conn}
    {next : Option Failure → Client α} (has : Has t [s.id] (some k) carrier w)
    (fine : Sent.Proper ⟨op, .mail s sender opts, k⟩)
    (rest : ∀ answer w', Has t [s.id] (some k) (some k) w' → Sat (contract t op) post (next answer) w') :
    Sat (contract t op) post (ask (.mail s sender opts) >>= next) w := by
  apply sat_call (fun _ => Has t [s.id] (some k) (some k)) Has.stable has
  · intro w₁ reply has₁
    refine ⟨has₁.sound, guar_carrier has₁.sound _, fun log sound => ⟨sound, has₁.hands, ?_, has₁.first⟩⟩
    have here := has₁.first s.id rfl k rfl
    simp [respond, withLog, here]
  · intro w₁ reply has₁
    apply has₁.proper (by simp) (by simp [Net.socket?])
    intro conn same
    rw [same k rfl]
    exact fine
  · exact rest

theorem Has.shut {s : Socket} (has : Has t (s.id :: items) known carrier w) (log : List Sent)
    (sound : ((w.shut t s).withLog log).Sound) : Has t items none carrier ((w.shut t s).withLog log) := by
  refine ⟨sound, ?_, has.carrier, fun _ _ _ knows => by cases knows⟩
  simp [withLog, World.shut, amend, putDown, has.hands]

theorem Has.mine {s : Socket} (has : Has t (s.id :: items) known carrier w) : s.id ∈ w.hands t := by
  rw [has.hands]
  exact List.mem_cons_self

theorem sat_hangUp {s : Socket} {next : Unit → Client α} (has : Has t (s.id :: items) known carrier w)
    (rest : ∀ w', Has t items none carrier w' → Sat (contract t op) post (next ()) w') :
    Sat (contract t op) post (ask (.hangUp s) >>= next) w := by
  apply sat_call (fun _ => Has t items none carrier) Has.stable has
  · intro w₁ reply has₁
    exact ⟨has₁.sound, guar_shut has₁.sound has₁.mine, has₁.shut⟩
  · intro w₁ reply has₁
    apply has₁.proper (by simp) (by simp [Net.socket?])
    intro conn _
    cases op <;> trivial
  · exact fun _ => rest

theorem sat_quit {s : Socket} {next : Option Chars → Client α} (has : Has t (s.id :: items) known carrier w)
    (done : ∀ w', Has t items none carrier w' → Sat (contract t op) post (next none) w')
    (failed : ∀ err w', Has t (s.id :: items) known carrier w' → Sat (contract t op) post (next (some err)) w') :
    Sat (contract t op) post (ask (.quit s) >>= next) w := by
  apply sat_call (fun answer : Option Chars =>
    answer.elim (Has t items none carrier) fun _ => Has t (s.id :: items) known carrier) Has.stable has
  · intro w₁ reply has₁
    cases fault : reply.fault with
    | none =>
      simp only [respond, fault]
      exact ⟨has₁.sound, guar_shut has₁.sound has₁.mine, has₁.shut⟩
    | some err =>
      simp only [respond, fault]
      exact ⟨has₁.sound, Guar.refl has₁.sound,
        fun log sound => ⟨sound, has₁.hands, has₁.carrier, has₁.first⟩⟩
  · intro w₁ reply has₁
    apply has₁.proper (by simp) (by simp [Net.socket?])
    intro conn _
    cases op <;> trivial
  · intro answer w' has'
    cases answer with
    | none => exact done w' has'
    | some err => exact failed err w' has'

theorem sat_take {key : Chars} {next : Option Pooled → Client α} (has : Has t [] known carrier w)
    (asks : ∀ relay msg localName reuse, op = .deliver relay msg localName reuse → key = (Identity.of relay localName).key)
    (nothing : ∀ w', Has t [] none carrier w' → Sat (contract t op) post (next none) w')
    (found : ∀ conn k w', Has t [conn.socket.id] (some k) carrier w' → k.Kept key → k.storedUnder = some key →
      Sat (contract t op) post (next (some conn)) w') :
    Sat (contract t op) post (ask (.take key) >>= next) w := by
  apply sat_call (fun answer : Option Pooled => match answer with
    | none => Has t [] none carrier
    | some conn => fun w' => ∃ k, Has t [conn.socket.id] (some k) carrier w' ∧ k.Kept key ∧ k.storedUnder = some key)
    Has.stable has
  · intro w₁ reply has₁
    refine ⟨has₁.sound, ?_⟩
    cases taken : w₁.idle.take key with
    | none =>
      simp only [respond, taken]
      exact ⟨Guar.refl has₁.sound, fun log sound => ⟨sound, has₁.hands, has₁.carrier, fun _ _ _ knows => by cases knows⟩⟩
    | some pair =>
      obtain ⟨conn, idle⟩ := pair
      obtain ⟨slot, rest⟩ := Idle.take_eq taken
      have member : conn ∈ w₁.idle.slot key := by
        rw [slot]
        exact List.mem_append_right _ (List.mem_singleton_self conn)
      obtain ⟨under, kept⟩ := has₁.sound.stored key conn member
      have split : (ids w₁.idle.all).Perm ([conn.socket.id] ++ ids idle.all) := by
        rw [rest, Idle.all_setIdle]
        apply ((Idle.all_split has₁.sound.keys key).map fun c : Pooled => c.socket.id).trans
        rw [slot]
        simp only [ids, List.map_append, List.map_cons, List.map_nil]
        exact List.perm_append_comm.append_right _
      simp only [respond, taken]
      constructor
      · apply guar_collect has₁.sound ?_ split
        · intro key'
          rw [rest, Idle.slot_setIdle]
          split
          · rename_i same
            rw [same, slot]
            exact List.sublist_append_left _ _
          · exact List.Sublist.refl _
        · rw [rest]
          exact Idle.nodup_setIdle has₁.sound.keys
      · refine fun log sound => ⟨w₁.conns conn.socket.id, ⟨sound, ?_, has₁.carrier, ?_⟩, kept, under⟩
        · simp [withLog, pickUp, has₁.hands]
        · rintro c ⟨⟩ k ⟨⟩
          rfl
  · intro w₁ reply has₁ e member
    cases taken : w₁.idle.take key with
    | none => simp [respond, record, taken, Net.socket?] at member
    | some pair =>
      obtain ⟨conn, idle⟩ := pair
      have inside : conn ∈ w₁.idle.slot key := by
        rw [(Idle.take_eq taken).1]
        exact List.mem_append_right _ (List.mem_singleton_self conn)
      obtain ⟨under, kept⟩ := has₁.sound.stored key conn inside
      simp only [respond, record, taken, List.mem_singleton] at member
      subst member
      cases op <;> exact ⟨under, kept, asks⟩
  · intro answer w' has'
    cases answer with
    | none => exact nothing w' has'
    | some conn =>
      obtain ⟨k, has', kept, under⟩ := has'
      exact found conn k w' has' kept under

theorem sat_admit {key : Chars} {s : Socket} {messages : Int} {k : Conn} {next : Admission → Client α}
    (has : Has t [s.id] (some k) carrier w) (kept : k.Kept key)
    (pooled : ∀ full w', Has t [] none carrier w' → Sat (contract t op) post (next ⟨false, full⟩) w')
    (refused : ∀ full w', Has t [s.id] (some k) carrier w' → Sat (contract t op) post (next ⟨true, full⟩) w') :
    Sat (contract t op) post (ask (.shelve key s messages) >>= next) w := by
  apply sat_call (fun answer : Admission => match answer.beyond with
    | false => Has t [] none carrier
    | true => Has t [s.id] (some k) carrier) Has.stable has
  · intro w₁ reply has₁
    refine ⟨has₁.sound, ?_⟩
    have here := has₁.first s.id rfl k rfl
    cases room : w₁.pool.refuses w₁.idle key with
    | true =>
      simp only [respond, room, if_true]
      exact ⟨Guar.refl has₁.sound, fun log sound => ⟨sound, has₁.hands, has₁.carrier, has₁.first⟩⟩
    | false =>
      simp only [respond, room, Bool.false_eq_true, if_false]
      refine ⟨guar_store has₁.sound has₁.mine (here ▸ kept) room, fun log sound => ⟨sound, ?_, has₁.carrier, ?_⟩⟩
      · simp [withLog, store, amend, putDown, has₁.hands]
      · exact fun _ _ _ knows => by cases knows
  · intro w₁ reply has₁
    exact has₁.proper (by simp) (by simp [Net.socket?]) fun conn _ => by cases op <;> trivial
  · rintro ⟨beyond, full⟩ w' has'
    cases beyond with
    | false => exact pooled full w' has'
    | true => exact refused full w' has'

theorem sat_dial {addr : Chars} {next : Except Chars Socket → Client α} (has : Has t [] known carrier w)
    (failed : ∀ err w', Has t [] none carrier w' → Sat (contract t op) post (next (.error err)) w')
    (connected : ∀ s w', Has t [s.id] (some { addr, opened := op.opener, live := true }) carrier w' →
      Sat (contract t op) post (next (.ok s)) w') :
    Sat (contract t op) post (ask (.dial addr) >>= next) w := by
  apply sat_call (fun answer : Except Chars Socket => match answer with
    | .error _ => Has t [] none carrier
    | .ok s => Has t [s.id] (some { addr, opened := op.opener, live := true }) carrier) Has.stable has
  · intro w₁ reply has₁
    refine ⟨has₁.sound, ?_⟩
    cases fault : reply.fault with
    | some err =>
      simp only [respond, fault]
      exact ⟨Guar.refl has₁.sound, fun log sound => ⟨sound, has₁.hands, has₁.carrier, fun _ _ _ knows => by cases knows⟩⟩
    | none =>
      simp only [respond, fault]
      refine ⟨guar_enroll has₁.sound rfl, fun log sound => ⟨sound, ?_, has₁.carrier, ?_⟩⟩
      · simp [withLog, World.enroll, has₁.hands]
      · rintro c ⟨⟩ k ⟨⟩
        simp [withLog, World.enroll]
  · intro w₁ reply has₁
    exact has₁.proper (by simp) (by simp [Net.socket?]) fun conn _ => by cases op <;> trivial
  · intro answer w' has'
    cases answer with
    | error err => exact failed err w' has'
    | ok s => exact connected s w' has'

theorem Has.amend {s : Socket} {k : Conn} (has : Has t [s.id] (some k) carrier w) (change : Conn → Conn)
    (log : List Sent) (sound : ((w.amend s change).withLog log).Sound) :
    Has t [s.id] (some (change k)) carrier ((w.amend s change).withLog log) := by
  refine ⟨sound, has.hands, has.carrier, ?_⟩
  rintro c ⟨⟩ k' ⟨⟩
  simp [withLog, World.amend, has.first s.id rfl k rfl]

theorem sat_startTLS {s : Socket} {config : TLSConfig} {k : Conn} {next : Option Chars → Client α}
    (has : Has t [s.id] (some k) carrier w)
    (wrapped : ∀ w', Has t [s.id] (some { k with wrapped := some config }) carrier w' →
      Sat (contract t op) post (next none) w')
    (failed : ∀ err w', Has t [] none carrier w' → Sat (contract t op) post (next (some err)) w') :
    Sat (contract t op) post (ask (.startTLS s config) >>= next) w := by
  apply sat_call (fun answer : Option Chars =>
    answer.elim (Has t [s.id] (some { k with wrapped := some config }) carrier) fun _ => Has t [] none carrier)
    Has.stable has
  · intro w₁ reply has₁
    refine ⟨has₁.sound, ?_⟩
    cases fault : reply.fault with
    | some err =>
      simp only [respond, fault]
      exact ⟨guar_shut has₁.sound has₁.mine, has₁.shut⟩
    | none =>
      simp only [respond, fault]
      exact ⟨guar_amend has₁.sound has₁.mine rfl, has₁.amend _⟩
  · intro w₁ reply has₁
    exact has₁.proper (by simp) (by simp [Net.socket?]) fun conn _ => by cases op <;> trivial
  · intro answer w' has'
    cases answer with
    | none => exact wrapped w' has'
    | some err => exact failed err w' has'

theorem sat_hello {s : Socket} {name : Chars} {k : Conn} {next : Option Chars → Client α}
    (has : Has t [s.id] (some k) carrier w)
    (greeted : ∀ w', Has t [s.id] (some { k with secured := k.wrapped }) carrier w' →
      Sat (contract t op) post (next none) w')
    (failed : ∀ err w', Has t [s.id] (some k) carrier w' → Sat (contract t op) post (next (some err)) w') :
    Sat (contract t op) post (ask (.hello s name) >>= next) w := by
  apply sat_call (fun answer : Option Chars =>
    answer.elim (Has t [s.id] (some { k with secured := k.wrapped }) carrier) fun _ => Has t [s.id] (some k) carrier)
    Has.stable has
  · intro w₁ reply has₁
    refine ⟨has₁.sound, ?_⟩
    cases fault : reply.fault with
    | some err =>
      simp only [respond, fault]
      exact ⟨Guar.refl has₁.sound, fun log sound => ⟨sound, has₁.hands, has₁.carrier, has₁.first⟩⟩
    | none =>
      simp only [respond, fault]
      exact ⟨guar_amend has₁.sound has₁.mine rfl, has₁.amend _⟩
  · intro w₁ reply has₁
    exact has₁.proper (by simp) (by simp [Net.socket?]) fun conn _ => by cases op <;> trivial
  · intro answer w' has'
    cases answer with
    | none => exact greeted w' has'
    | some err => exact failed err w' has'

theorem sat_expired {next : List Pooled → Client α} (has : Has t [] known carrier w)
    (swept : ∀ out w', Has t (ids out) none carrier w' → Sat (contract t op) post (next out) w') :
    Sat (contract t op) post (ask .expired >>= next) w := by
  apply sat_call (fun out : List Pooled => Has t (ids out) none carrier) Has.stable has
  · intro w₁ reply has₁
    refine ⟨has₁.sound, ?_⟩
    by_cases off : w₁.pool.idleTimeout ≤ 0
    · simp only [respond, off, if_true]
      exact ⟨Guar.refl has₁.sound, fun log sound => ⟨sound, has₁.hands, has₁.carrier, fun _ _ _ knows => by cases knows⟩⟩
    · simp only [respond, off, if_false]
      constructor
      · apply guar_collect has₁.sound (Idle.keys_expire has₁.sound.keys _)
        · have split := (Idle.all_expire w₁.idle (reply.now - w₁.pool.idleTimeout)).map fun c : Pooled => c.socket.id
          simpa only [ids, List.map_append] using split
        · intro key
          rw [Idle.slot_expire has₁.sound.keys]
          exact List.filter_sublist
      · refine fun log sound => ⟨sound, ?_, has₁.carrier, fun _ _ _ knows => by cases knows⟩
        simp [withLog, pickUp, has₁.hands]
  · intro w₁ reply has₁
    exact has₁.proper (by simp) (by simp [Net.socket?]) fun conn _ => by cases op <;> trivial
  · exact fun out w' => swept out w'

theorem sat_drain {next : List Pooled → Client α} (has : Has t [] known carrier w)
    (drained : ∀ out w', Has t (ids out) none carrier w' → Sat (contract t op) post (next out) w') :
    Sat (contract t op) post (ask .drain >>= next) w := by
  apply sat_call (fun out : List Pooled => Has t (ids out) none carrier) Has.stable has
  · intro w₁ reply has₁
    refine ⟨has₁.sound, ?_, fun log sound => ⟨sound, ?_, has₁.carrier, fun _ _ _ knows => by cases knows⟩⟩
    · have none : (Idle.keys []).Nodup := List.nodup_nil
      apply guar_collect has₁.sound none
      · simp [ids]
      · exact fun key => List.nil_sublist _
    · simp [respond, withLog, pickUp, has₁.hands]
  · intro w₁ reply has₁
    exact has₁.proper (by simp) (by simp [Net.socket?]) fun conn _ => by cases op <;> trivial
  · exact fun out w' => drained out w'

end Rules

end World

end Mailgw.Deliver
