import Mailgw.Deliver.Sessions

namespace Mailgw.Deliver

open Calls

namespace World

section Steps
variable {t : Nat} {op : Op} {items : List Nat} {known carrier : Option Conn} {w : World}

theorem sat_quietQuit {s : Socket} (has : Has t (s.id :: items) known carrier w) :
    Sat (contract t op) (fun _ => Has t items none carrier) (quietQuit s) w := by
  apply sat_quit has
  · exact fun w' has' => has'
  · intro err w' has'
    exact sat_hangUp has' fun w'' has'' => has''

theorem sat_closeAll {conns : List Pooled} (has : Has t (ids conns) known carrier w) :
    Sat (contract t op) (fun _ => Has t [] none carrier) (Pool.closeAll conns) w := by
  induction conns generalizing w known with
  | nil => exact has.forget
  | cons conn rest ih =>
    apply Sat.bind
    apply (sat_quietQuit has).mono
    exact fun _ w' has' => ih has'

theorem sat_reap (has : Has t [] known carrier w) :
    Sat (contract t op) (fun _ => Has t [] none carrier) Pool.reap w := by
  apply sat_expired has
  exact fun out w' has' => sat_closeAll has'

theorem sat_close (has : Has t [] known carrier w) :
    Sat (contract t op) (fun _ => Has t [] none carrier) Pool.close w := by
  apply sat_drain has
  exact fun out w' has' => sat_closeAll has'

end Steps

section Attempts
variable {t : Nat} {pool : Pool} {relay : Relay} {msg : Message} {localName : Chars} {reuse : Bool} {s : Socket}
  {k : Conn} {known carrier : Option Conn} {w : World}

def Found (t : Nat) (relay : Relay) (localName : Chars) (carrier : Option Conn) (got : Pool.Got) (w : World) : Prop :=
  match got with
  | .nothing | .again => Has t [] none carrier w
  | .found conn => ∃ k, Has t [conn.socket.id] (some k) carrier w ∧
      k.Kept (Identity.of relay localName).key ∧ k.storedUnder ≠ none

theorem sat_get {pool' : Pool} (has : Has t [] known carrier w) :
    Sat (contract t (.deliver relay msg localName reuse)) (Found t relay localName carrier)
      (pool'.get relay (Op.options pool localName reuse).withDefaults) w := by
  unfold Pool.get
  rw [poolKey_eq]
  apply sat_take has
  · rintro relay' msg' localName' reuse' ⟨⟩
    rfl
  · exact fun w' has' => has'
  · intro conn k w' has' kept under
    refine sat_plain (by trivial) has' (by simp [Net.socket?]) (fun _ _ => by trivial) ?_
    intro now w₁ has₁
    show Sat _ _ (ite _ _ _) w₁
    split
    · apply Sat.bind
      apply (sat_quietQuit has₁).mono
      exact fun _ w₂ has₂ => has₂
    · refine sat_plain (by trivial) has₁ (by simp [Net.socket?]) (fun _ _ => by trivial) ?_
      intro alive w₂ has₂
      cases alive with
      | none => exact ⟨k, has₂, kept, by simp [under]⟩
      | some err => exact sat_hangUp has₂ fun w₃ has₃ => has₃

theorem sat_put {opts : Options} {messages : Int} {op : Op} (has : Has t [s.id] (some k) carrier w)
    (kept : k.Kept (poolKey relay opts)) :
    Sat (contract t op) (fun _ => Has t [] none carrier) (pool.put relay opts s messages) w := by
  have quit : ∀ {β : Type} {f : Unit → Client β} {post : β → World → Prop} {w₁ : World},
      Has t [s.id] (some k) carrier w₁ → (∀ w₂, Has t [] none carrier w₂ → Sat (contract t op) post (f ()) w₂) →
        Sat (contract t op) post (quietQuit s >>= f) w₁ := by
    intro β f post w₁ has₁ rest
    apply Sat.bind
    exact (sat_quietQuit has₁).mono fun _ => rest
  unfold Pool.put
  split
  · exact quit has fun w₁ has₁ => has₁
  · apply sat_admit has kept
    · exact fun full w₁ has₁ => has₁
    · exact fun full w₁ has₁ => quit has₁ fun w₂ has₂ => has₂

def Connected (t : Nat) (relay : Relay) (localName : Chars) (carrier : Option Conn)
    (outcome : Result × Except Chars Socket) (w : World) : Prop :=
  match outcome.2 with
  | .error _ => Has t [] none carrier w
  | .ok s => ∃ k, Has t [s.id] (some k) carrier w ∧ k.Fits relay localName ∧ k.storedUnder = none ∧
      outcome.1.tls = k.secured.isSome

@[simp] theorem recordPeer_tls (s : Socket) (res : Result) : (recordPeer s res).tls = res.tls := by
  unfold recordPeer
  split <;> rfl

theorem sat_connectPlain {opts : Options} {res : Result} (has : Has t [] known carrier w)
    (lax : relay.tlsPolicy ≠ .required) (plain : res.tls = false) :
    Sat (contract t (.deliver relay msg localName reuse)) (Connected t relay localName carrier)
      (connectPlain relay opts res) w := by
  apply sat_dial has
  · exact fun err w' has' => has'
  · intro s w' has'
    apply sat_hello has'
    · intro w₁ has₁
      refine ⟨_, has₁, ⟨rfl, rfl, fun required => (lax required).elim, fun _ => rfl⟩, rfl, ?_⟩
      simp [plain]
    · exact fun err w₁ has₁ => sat_hangUp has₁ fun w₂ has₂ => has₂

theorem sat_connect {res : Result} (has : Has t [] known carrier w) (plain : res.tls = false) :
    Sat (contract t (.deliver relay msg localName reuse)) (Connected t relay localName carrier)
      (connect relay (Op.options pool localName reuse).withDefaults res) w := by
  unfold connect
  split
  · rename_i policy
    exact sat_connectPlain has (by simp [policy]) plain
  · rename_i policy
    apply sat_dial has
    · exact fun err w' has' => has'
    · intro s w' has'
      apply sat_startTLS has'
      · intro w₁ has₁
        apply sat_hello has₁
        · intro w₂ has₂
          refine ⟨_, has₂, ⟨rfl, rfl, fun required => ?_, fun none => (policy none).elim⟩, rfl, rfl⟩
          simp [tlsConfigFor_required required]
        · exact fun err w₂ has₂ => sat_hangUp has₂ fun w₃ has₃ => has₃
      · intro err w₁ has₁
        show Sat _ _ (ite _ _ _) w₁
        split
        · exact has₁
        · rename_i lax
          exact sat_connectPlain has₁ lax rfl

theorem sat_authenticate {res : Result} (has : Has t [s.id] (some k) carrier w) (fits : k.Fits relay localName)
    (truthful : res.tls = k.secured.isSome) :
    Sat (contract t (.deliver relay msg localName reuse))
      (fun outcome w' => Has t [s.id] (some k) carrier w' ∧ outcome.1.tls = res.tls) (authenticate relay s res) w := by
  unfold authenticate
  split
  · exact ⟨has, rfl⟩
  split
  · exact ⟨has, rfl⟩
  · rename_i allowed
    refine sat_plain (by trivial) has (by simp [Net.socket?]) (fun _ _ => by trivial) ?_
    intro offered w₁ has₁
    show Sat _ _ (ite _ _ _) w₁
    split
    · exact ⟨has₁, rfl⟩
    · refine sat_plain (by trivial) has₁ (by simp [Net.socket?]) ?_ ?_
      · intro conn same
        rw [same k rfl]
        refine ⟨rfl, rfl, fits.addr, ?_⟩
        rw [← truthful]
        cases secure : res.tls <;> simp_all
      · intro answer w₂ has₂
        cases answer <;> exact ⟨has₂, rfl⟩

section Transaction
variable (kept : k.Kept (Identity.of relay localName).key)
include kept

theorem proper_rcpt {addr : Chars} (conn : Conn) (same : ∀ k' ∈ some k, conn = k') :
    Sent.Proper ⟨.deliver relay msg localName reuse, .rcpt s addr, conn⟩ := by
  rw [same k rfl]
  exact kept

theorem sat_offer {rcpts : List Chars} {res : Result} {secure : Bool} (has : Has t [s.id] (some k) carrier w)
    (same : res.tls = secure) :
    Sat (contract t (.deliver relay msg localName reuse))
      (fun out w' => Has t [s.id] (some k) carrier w' ∧ out.2.tls = secure) (offer s rcpts res) w := by
  induction rcpts generalizing res w with
  | nil => exact ⟨has, same⟩
  | cons addr rest ih =>
    refine sat_plain (by trivial) has (by simp [Net.socket?]) (proper_rcpt kept) ?_
    intro answer w₁ has₁
    cases answer with
    | some err => exact ih has₁ same
    | none =>
      apply Sat.bind
      exact (ih has₁ same).mono fun _ _ kept' => kept'

theorem sat_copy {broken : Option Break} {chunks : List Bytes} (has : Has t [s.id] (some k) carrier w) :
    Sat (contract t (.deliver relay msg localName reuse)) (fun _ => Has t [s.id] (some k) carrier)
      (copy s broken chunks) w := by
  induction chunks generalizing w with
  | nil => exact has
  | cons chunk rest ih =>
    unfold copy
    split
    · exact ih has
    · refine sat_plain (by trivial) has (by simp [Net.socket?]) ?_ ?_
      · intro conn same
        rw [same k rfl]
        exact kept
      · intro answer w₁ has₁
        cases Written.failure answer chunk with
        | some err => exact has₁
        | none => exact ih has₁

theorem sat_sendBody {body : Reader} {accepted : List Chars} {res : Result} (has : Has t [s.id] (some k) carrier w) :
    Sat (contract t (.deliver relay msg localName reuse))
      (fun res' w' => Has t [s.id] (some k) carrier w' ∧ res'.tls = res.tls) (sendBody s body accepted res) w := by
  refine sat_plain (by trivial) has (by simp [Net.socket?]) (fun _ _ => by trivial) ?_
  intro answer w₁ has₁
  cases answer with
  | some err => exact ⟨has₁, rfl⟩
  | none =>
    apply Sat.bind
    apply (sat_copy kept has₁).mono
    intro failed w₂ has₂
    cases failed with
    | some err =>
      refine sat_plain (by trivial) has₂ (by simp [Net.socket?]) (fun _ _ => by trivial) ?_
      exact fun _ w₃ has₃ => ⟨has₃, rfl⟩
    | none =>
      refine sat_plain (by trivial) has₂ (by simp [Net.socket?]) (fun _ _ => by trivial) ?_
      intro answer w₃ has₃
      cases answer <;> exact ⟨has₃, rfl⟩

theorem sat_transaction {res : Result} (has : Has t [s.id] (some k) carrier w) :
    Sat (contract t (.deliver relay msg localName reuse))
      (fun res' w' => Has t [s.id] (some k) (some k) w' ∧ res'.tls = res.tls) (transaction s msg res) w := by
  have probing : ∀ {needed : Bool} {name : Chars} {w₁ : World}, Has t [s.id] (some k) carrier w₁ →
      Sat (contract t (.deliver relay msg localName reuse)) (fun _ => Has t [s.id] (some k) carrier)
        (probe needed s name) w₁ := by
    intro needed name w₁ has₁
    cases needed with
    | true =>
      refine sat_plain (by trivial) has₁ (by simp [Net.socket?]) (fun _ _ => by trivial) ?_
      exact fun _ w₂ has₂ => has₂
    | false => exact has₁
  apply Sat.bind
  apply (probing has).mono
  intro utf8 w₁ has₁
  apply Sat.bind
  apply (probing has₁).mono
  intro body8Bit w₂ has₂
  refine sat_mail has₂ (by exact kept) ?_
  intro answer w₃ has₃
  cases answer with
  | some err => exact ⟨has₃, rfl⟩
  | none =>
    apply Sat.bind
    apply (sat_offer kept has₃ rfl).mono
    rintro ⟨accepted, res'⟩ w₄ ⟨has₄, same⟩
    show Sat _ _ (ite _ _ _) w₄
    split
    · exact ⟨has₄, same⟩
    · apply (sat_sendBody kept has₄).mono
      intro res'' w₅ after
      exact ⟨after.1, after.2.trans same⟩

theorem sat_release {res : Result} (has : Has t [s.id] (some k) carrier w) :
    Sat (contract t (.deliver relay msg localName reuse))
      (fun res' w' => Has t [] none carrier w' ∧ res'.tls = res.tls)
      (release relay (Op.options pool localName reuse).withDefaults s res) w := by
  unfold release
  split
  · apply Sat.bind
    exact (sat_quietQuit has).mono fun _ w' has' => ⟨has', rfl⟩
  · split
    · apply Sat.bind
      apply (sat_put has (by rwa [poolKey_eq])).mono
      exact fun _ w' has' => ⟨has', rfl⟩
    · apply Sat.bind
      exact (sat_quietQuit has).mono fun _ w' has' => ⟨has', rfl⟩

end Transaction

/-- The result tells the truth about the connection that carried the message, provided that a
    connection from the pool is encrypted exactly when the relay's policy is not to do without. -/
def Truthful (relay : Relay) (res : Result) (k : Conn) : Prop :=
  res.tls = k.secured.isSome ↔ (k.storedUnder ≠ none → k.secured.isSome = decide (relay.tlsPolicy ≠ .none))

def Delivered (t : Nat) (relay : Relay) (out : Option Result) (w : World) : Prop :=
  ∃ carrier, Has t [] none carrier w ∧
    ∀ res, out = some res → res.err = none → ∃ k, carrier = some k ∧ Truthful relay res k

def Borrowed (t : Nat) (relay : Relay) (localName : Chars) (carrier : Option Conn) (acquired : Acquired)
    (w : World) : Prop :=
  match acquired with
  | .nothing | .again => Has t [] none carrier w
  | .borrowed s res => ∃ k, Has t [s.id] (some k) carrier w ∧ k.Kept (Identity.of relay localName).key ∧
      k.storedUnder ≠ none ∧ res.tls = decide (relay.tlsPolicy ≠ .none)

theorem sat_acquire {res : Result} (has : Has t [] known carrier w) :
    Sat (contract t (.deliver relay msg localName reuse)) (Borrowed t relay localName carrier)
      (acquire relay (Op.options pool localName reuse).withDefaults res) w := by
  unfold acquire
  split
  · exact has.forget
  · apply Sat.bind
    apply (sat_get has).mono
    intro got w₁ found
    cases got with
    | nothing => exact found
    | again => exact found
    | found conn =>
      obtain ⟨k, has₁, kept, pooled⟩ := found
      exact ⟨k, has₁, kept, pooled, recordPeer_tls _ _⟩

theorem sat_session {res : Result} (has : Has t [s.id] (some k) carrier w)
    (kept : k.Kept (Identity.of relay localName).key) (truthful : ∀ res' : Result, res'.tls = res.tls → Truthful relay res' k) :
    Sat (contract t (.deliver relay msg localName reuse)) (Delivered t relay)
      (transaction s msg res >>= fun res => some <$> release relay (Op.options pool localName reuse).withDefaults s res)
      w := by
  apply Sat.bind
  apply (sat_transaction kept has).mono
  rintro res₁ w₁ ⟨has₁, same⟩
  apply Sat.map
  apply (sat_release kept has₁).mono
  rintro res₂ w₂ ⟨has₂, same'⟩
  refine ⟨some k, has₂, ?_⟩
  rintro _ ⟨⟩ _
  exact ⟨k, rfl, truthful res₂ (same'.trans same)⟩

theorem Delivered.failed {res : Result} (has : Has t [] none carrier w) (err : Chars) :
    Delivered t relay (some { res with err := some err }) w := by
  refine ⟨carrier, has, ?_⟩
  rintro _ ⟨⟩ fine
  cases fine

theorem sat_deliver (has : Has t [] known carrier w) :
    Sat (contract t (.deliver relay msg localName reuse)) (Delivered t relay)
      (deliver relay msg (Op.options pool localName reuse)) w := by
  apply Sat.bind
  apply (sat_acquire has).mono
  intro acquired w₁ got
  cases acquired with
  | nothing =>
    have plain : (Result.start relay).tls = false := rfl
    apply Sat.bind
    apply (sat_connect got plain).mono
    rintro ⟨res₂, outcome⟩ w₂ connected
    cases outcome with
    | error err => exact Delivered.failed connected err
    | ok socket =>
      obtain ⟨k, has₂, fits, new, secure⟩ := connected
      apply Sat.bind
      apply (sat_authenticate has₂ fits secure).mono
      rintro ⟨res₃, refusal⟩ w₃ ⟨has₃, same⟩
      cases refusal with
      | some err => exact sat_hangUp has₃ fun w₄ has₄ => Delivered.failed has₄ err
      | none =>
        apply sat_session has₃ ⟨relay, localName, fits, rfl⟩
        intro res₄ same'
        have exactly : res₄.tls = k.secured.isSome := (same'.trans same).trans secure
        simp [Truthful, exactly, new]
  | again => exact ⟨carrier, got, fun res again => by cases again⟩
  | borrowed socket res =>
    obtain ⟨k, has₁, kept, pooled, claimed⟩ := got
    apply sat_session has₁ kept
    intro res' same
    have stated : res'.tls = decide (relay.tlsPolicy ≠ .none) := same.trans claimed
    simp only [Truthful, stated, pooled, ne_eq, not_false_eq_true, forall_const]
    exact eq_comm

end Attempts

end World

end Mailgw.Deliver
