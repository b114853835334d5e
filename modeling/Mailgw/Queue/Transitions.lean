import Mailgw.Queue.Tracked

namespace Mailgw.Queue

open Calls Spool Disk

namespace FsCall

def quiet : FsCall → Bool
  | now | readDir _ | readFile _ _ | temp _ => true
  | _ => false

def aside : FsCall → Bool
  | remove .data _ => true
  | c => c.quiet

end FsCall

namespace Ledger

variable {t : Nat} {op : Op} {w w₀ : Ledger} {dir : Dir} {name : Name} {e : Envelope}

section Rules
variable {post : Except Failure Unit → Ledger → Prop}

theorem exec_quiet {c : FsCall} (calm : c.quiet = true) (choice : Choice) (d : Disk) : (exec choice d c).2 = d := by
  cases c with
  | now => rfl
  | readFile dir name =>
    simp only [exec]
    split
    · rfl
    · split <;> rfl
  | readDir _ | temp _ =>
    simp only [exec]
    split <;> rfl
  | _ => cases calm

theorem Step.quiet {c : FsCall} {answer : c.Answer} {w' : Ledger} (calm : c.quiet = true) (step : Step t op c w answer w') :
    w' = w := by
  obtain ⟨choice, -, ran, owner, log⟩ := step
  have disk : w'.disk = w.disk := by
    rw [← exec_quiet calm choice w.disk, ran]
  cases w'
  cases w
  cases c with
  | now | readDir _ | readFile _ _ | temp _ => simp_all [Cfg.ownAfter, Cfg.record]
  | _ => cases calm

theorem sat_sys {c : FsCall} {final : c.Answer → Ledger → Prop} (sound : w.Sound)
    (body : ∀ w₁, Rely t op w w₁ → w₁.Sound → ∀ answer w₂, Step t op c w₁ answer w₂ →
      Guar t op w₁ w₂ ∧ final answer w₂) : Sat (tracked t op) final (sys c) w :=
  fun w₁ moves answer w₂ step => body w₁ (Rely.star moves) ((Rely.star moves).sound sound) answer w₂ step

theorem sat_quiet {c : FsCall} {final : c.Answer → Ledger → Prop} (calm : c.quiet = true) (sound : w.Sound)
    (body : ∀ w₁, Rely t op w w₁ → w₁.Sound → ∀ choice, (choice.fails = true → op.brittle c = false) →
      final (exec choice w₁.disk c).1 w₁) : Sat (tracked t op) final (sys c) w := by
  apply sat_sys sound
  intro w₁ rely sound₁ answer w₂ step
  have same := Step.quiet calm step
  subst same
  obtain ⟨choice, allowed, ran, -⟩ := step
  refine ⟨Guar.refl sound₁, ?_⟩
  have answered := body w₂ rely sound₁ choice allowed
  rwa [ran] at answered

theorem sat_now {final : Except Failure Instant → Ledger → Prop} (sound : w.Sound)
    (body : ∀ w₁, Rely t op w w₁ → w₁.Sound → ∀ clock, final (.ok clock) w₁) :
    Sat (tracked t op) final now.run w := by
  apply Sat.except_lift
  apply sat_quiet rfl sound
  intro w₁ rely sound₁ choice _
  exact body w₁ rely sound₁ choice.clock

theorem sat_temp {step : TempStep} (sound : w.Sound)
    (fails : op.fragile = false → ∀ w₁, Rely t op w w₁ → w₁.Sound → post (.error .io) w₁)
    (body : ∀ w₁, Rely t op w w₁ → w₁.Sound → post (.ok ()) w₁) :
    Sat (tracked t op) post (temp step).run w := by
  apply sat_quiet rfl sound
  intro w₁ rely sound₁ choice allowed
  unfold exec
  cases failed : choice.fails with
  | true =>
    have robust := allowed failed
    have sturdy : op.fragile = false := by
      rw [← robust]
      cases op <;> rfl
    exact fails sturdy w₁ rely sound₁
  | false => exact body w₁ rely sound₁

theorem sat_readEnvelope {final : Except Failure Envelope → Ledger → Prop} (sound : w.Sound)
    (brittle : op.brittle (.readFile dir name) = true) (outside : dir ≠ .data)
    (there : ∀ w₁, Rely t op w w₁ → w₁.disk.Holds dir name e)
    (body : ∀ w₁, Rely t op w w₁ → w₁.Sound → final (.ok e) w₁) :
    Sat (tracked t op) final (readEnvelope dir name).run w := by
  apply Sat.except_bind
  apply sat_quiet rfl sound
  intro w₁ rely sound₁ choice allowed
  have calm : choice.fails = false := by
    cases failed : choice.fails with
    | true =>
      rw [allowed failed] at brittle
      cases brittle
    | false => rfl
  have holds := there w₁ rely
  obtain ⟨valid, -⟩ := sound₁.file outside holds
  unfold Holds at holds
  simp only [exec, calm, holds, Bool.false_eq_true, if_false, show e.validate = .ok () from valid]
  exact body w₁ rely sound₁

theorem sat_publish (sound : w.Sound)
    (fails : op.fragile = false → ∀ w₁, Rely t op w w₁ → w₁.Sound → post (.error .io) w₁)
    (body : ∀ w₁, Rely t op w w₁ → w₁.Sound →
      Guar t op w₁ (w₁.published op dir name e) ∧ post (.ok ()) (w₁.published op dir name e)) :
    Sat (tracked t op) post (publish dir name (.json e)).run w := by
  apply sat_sys sound
  rintro w₁ rely sound₁ answer w₂ ⟨choice, allowed, ran, owner, log⟩
  cases failed : choice.fails with
  | true =>
    have sturdy : op.fragile = false := by
      rw [← allowed failed]
      cases op <;> rfl
    simp only [exec, failed] at ran
    obtain ⟨rfl, disk⟩ := Prod.mk.inj ran
    obtain rfl : w₂ = w₁ := by
      cases w₂
      cases w₁
      simp_all [Cfg.ownAfter, Cfg.record]
    exact ⟨Guar.refl sound₁, fails sturdy _ rely sound₁⟩
  | false =>
    simp only [exec, failed] at ran
    obtain ⟨rfl, disk⟩ := Prod.mk.inj ran
    obtain rfl : w₂ = w₁.published op dir name e := by
      cases w₂
      simp_all [published, Cfg.ownAfter, Cfg.record]
    exact body w₁ rely sound₁

theorem ownAfter_remove (t : Nat) (owner : Name → Option Nat) (dir : Dir) (name : Name) :
    Cfg.ownAfter t owner (.remove dir name) (.ok ()) = handOver owner dir name none := by
  cases dir <;> rfl

theorem ownAfter_rename (t : Nat) (owner : Name → Option Nat) {dir : Dir} (target : dir = .ready ∨ dir = .inflight)
    (name name' : Name) :
    Cfg.ownAfter t owner (.rename .ready name dir name') (.ok ()) = handOver owner dir name' (some t) := by
  rcases target with rfl | rfl <;> rfl

theorem sat_remove (sound : w.Sound)
    (fails : ∀ w₁, Rely t op w w₁ → w₁.Sound → ∀ err, (op.fragile = false ∨ w₁.disk.get dir name = none) →
      post (.error err) w₁)
    (body : ∀ w₁, Rely t op w w₁ → w₁.Sound → ∀ file, w₁.disk.get dir name = some file →
      Guar t op w₁ (w₁.removed op dir name) ∧ post (.ok ()) (w₁.removed op dir name)) :
    Sat (tracked t op) post (Spool.remove dir name).run w := by
  apply sat_sys sound
  rintro w₁ rely sound₁ answer w₂ ⟨choice, allowed, ran, owner, log⟩
  have unchanged : ∀ {err}, w₂.owner = Cfg.ownAfter t w₁.owner (.remove dir name) (.error err) →
      w₂.log = Cfg.record op (.remove dir name) (.error err) ++ w₁.log → w₁.disk = w₂.disk → w₂ = w₁ := by
    intro err owner log disk
    have kept : Cfg.ownAfter t w₁.owner (.remove dir name) (.error err) = w₁.owner := by
      cases dir <;> rfl
    cases w₂
    cases w₁
    simp_all [Cfg.record]
  cases failed : choice.fails with
  | true =>
    have sturdy : op.fragile = false := by
      rw [← allowed failed]
      cases op <;> rfl
    simp only [exec, failed] at ran
    obtain ⟨rfl, disk⟩ := Prod.mk.inj ran
    obtain rfl := unchanged owner log disk
    exact ⟨Guar.refl sound₁, fails _ rely sound₁ _ (.inl sturdy)⟩
  | false =>
    simp only [exec, failed] at ran
    cases got : w₁.disk.get dir name with
    | none =>
      simp only [got] at ran
      obtain ⟨rfl, disk⟩ := Prod.mk.inj ran
      obtain rfl := unchanged owner log disk
      exact ⟨Guar.refl sound₁, fails _ rely sound₁ _ (.inr got)⟩
    | some file =>
      simp only [got] at ran
      obtain ⟨rfl, disk⟩ := Prod.mk.inj ran
      rw [ownAfter_remove] at owner
      obtain rfl : w₂ = w₁.removed op dir name := by
        cases w₂
        simp_all [removed, Cfg.record]
      exact body w₁ rely sound₁ file got

theorem sat_rename {name' : Name} (target : dir = .ready ∨ dir = .inflight) (sound : w.Sound)
    (fails : ∀ w₁, Rely t op w w₁ → w₁.Sound → ∀ err, post (.error err) w₁)
    (body : ∀ w₁, Rely t op w w₁ → w₁.Sound → ∀ file, w₁.disk.get .ready name = some file →
      Guar t op w₁ (w₁.renamed t op name dir name' file) ∧ post (.ok ()) (w₁.renamed t op name dir name' file)) :
    Sat (tracked t op) post (rename .ready name dir name').run w := by
  apply sat_sys sound
  rintro w₁ rely sound₁ answer w₂ ⟨choice, allowed, ran, owner, log⟩
  have unchanged : ∀ {err}, w₂.owner = Cfg.ownAfter t w₁.owner (.rename .ready name dir name') (.error err) →
      w₂.log = Cfg.record op (.rename .ready name dir name') (.error err) ++ w₁.log → w₁.disk = w₂.disk → w₂ = w₁ := by
    intro err owner log disk
    have kept : Cfg.ownAfter t w₁.owner (.rename .ready name dir name') (.error err) = w₁.owner := by
      cases dir <;> rfl
    cases w₂
    cases w₁
    simp_all [Cfg.record]
  cases failed : choice.fails with
  | true =>
    simp only [exec, failed] at ran
    obtain ⟨rfl, disk⟩ := Prod.mk.inj ran
    obtain rfl := unchanged owner log disk
    exact ⟨Guar.refl sound₁, fails _ rely sound₁ _⟩
  | false =>
    simp only [exec, failed] at ran
    cases got : w₁.disk.get .ready name with
    | none =>
      simp only [got] at ran
      obtain ⟨rfl, disk⟩ := Prod.mk.inj ran
      obtain rfl := unchanged owner log disk
      exact ⟨Guar.refl sound₁, fails _ rely sound₁ _⟩
    | some file =>
      simp only [got] at ran
      obtain ⟨rfl, disk⟩ := Prod.mk.inj ran
      rw [ownAfter_rename t _ target] at owner
      obtain rfl : w₂ = w₁.renamed t op name dir name' file := by
        cases w₂
        simp_all [renamed, Cfg.record]
      exact body w₁ rely sound₁ file got

theorem sat_tempStep {step : TempStep} (sound : w.Sound)
    (fails : op.fragile = false → ∀ w₁, Rely t op w w₁ → w₁.Sound → post (.error .io) w₁)
    (body : ∀ w₁, Rely t op w w₁ → w₁.Sound → post (.ok ()) w₁) :
    Sat (tracked t op) post (onError (temp step) (temp .discard)).run w := by
  apply sat_onError
  apply sat_temp sound
  · intro sturdy w₁ rely sound₁
    apply sat_temp sound₁
    · exact fun _ w₂ rely₂ sound₂ => fails sturdy w₂ (rely.trans rely₂) sound₂
    · exact fun w₂ rely₂ sound₂ => fails sturdy w₂ (rely.trans rely₂) sound₂
  · exact body

theorem sat_writeEnvelope (sound : w.Sound)
    (fails : op.fragile = false → ∀ w₁, Rely t op w w₁ → w₁.Sound → post (.error .io) w₁)
    (body : ∀ w₁, Rely t op w w₁ → w₁.Sound →
      Guar t op w₁ (w₁.published op dir name e) ∧ post (.ok ()) (w₁.published op dir name e)) :
    Sat (tracked t op) post (writeEnvelope dir name e).run w := by
  refine Sat.except_bind (sat_temp sound fails fun w₁ rely₁ sound₁ => ?_)
  have fails₁ := fun sturdy w' (rely : Rely t op w₁ w') => fails sturdy w' (rely₁.trans rely)
  refine Sat.except_bind (sat_tempStep sound₁ fails₁ fun w₂ rely₂ sound₂ => ?_)
  have fails₂ := fun sturdy w' (rely : Rely t op w₂ w') => fails₁ sturdy w' (rely₂.trans rely)
  refine Sat.except_bind (sat_tempStep sound₂ fails₂ fun w₃ rely₃ sound₃ => ?_)
  have fails₃ := fun sturdy w' (rely : Rely t op w₃ w') => fails₂ sturdy w' (rely₃.trans rely)
  refine Sat.except_bind (sat_tempStep sound₃ fails₃ fun w₄ rely₄ sound₄ => ?_)
  apply sat_onError
  apply sat_publish sound₄
  · intro sturdy w₅ rely₅ sound₅
    have failed := fun w' (rely : Rely t op w₅ w') => fails₃ sturdy w' (rely₄.trans (rely₅.trans rely))
    exact sat_temp sound₅ (fun _ => failed) failed
  · intro w₅ rely₅ sound₅
    exact body w₅ (rely₁.trans (rely₂.trans (rely₃.trans (rely₄.trans rely₅)))) sound₅

end Rules

section Collect

theorem Step.aside {c : FsCall} {answer : c.Answer} {w' : Ledger} (kind : c.aside = true) (sound : w.Sound)
    (step : Step t op c w answer w') : Guar t op w w' ∧ ∀ uuid, w'.trail uuid = w.trail uuid := by
  by_cases calm : c.quiet = true
  · have same := Step.quiet calm step
    subst same
    exact ⟨Guar.refl sound, fun _ => rfl⟩
  · cases c with
    | remove dir name =>
      cases dir with
      | data =>
        obtain ⟨choice, -, ran, owner, log⟩ := step
        have kept : w'.owner = w.owner := by
          rw [owner]
          cases answer <;> rfl
        have silent : ∀ event ∈ Cfg.record op (.remove .data name) answer, event.about = none := by
          intro event member
          cases answer with
          | ok _ =>
            cases List.mem_singleton.mp member
            cases op <;> rfl
          | error _ => cases member
        have same : w' = ⟨w'.disk, w.owner, Cfg.record op (.remove .data name) answer ++ w.log⟩ := by
          cases w'
          simp_all
        have only : OnlyBody w.disk w'.disk name := by
          have disk := congrArg Prod.snd ran
          simp only [exec] at disk
          rw [← disk]
          split
          · exact ⟨fun _ _ _ => rfl, fun _ _ => rfl⟩
          · split
            · exact ⟨fun _ _ _ => rfl, fun _ _ => rfl⟩
            · exact OnlyBody.del w.disk name
        rw [same]
        exact ⟨Guar.aside sound only silent, fun uuid => trail_aside only silent⟩
      | _ => cases kind
    | _ => first | exact absurd rfl calm | cases kind

theorem all_readEnvelope (dir : Dir) (name : Name) : (readEnvelope dir name).run.All fun c => c.aside = true := by
  apply Prog.All.except_bind
  · exact ⟨rfl, fun _ => trivial⟩
  · intro file
    cases file with
    | raw bytes => trivial
    | json e =>
      dsimp only
      split <;> trivial

theorem all_referencedIn (body keep : Name) (dir : Dir) (names : List Name) :
    (referencedIn body keep dir names).run.All fun c => c.aside = true := by
  induction names with
  | nil => trivial
  | cons name rest ih =>
    unfold referencedIn
    split
    · exact ih
    · apply Prog.All.except_bind
      · apply Prog.All.except_bind
        · exact (all_readEnvelope dir name).bind fun _ => trivial
        · intro read
          cases read <;> trivial
      · intro found
        cases found with
        | true => trivial
        | false => exact ih

theorem all_bodyReferenced (body keep : Name) (dirs : List Dir) :
    (bodyReferenced body keep dirs).run.All fun c => c.aside = true := by
  induction dirs with
  | nil => trivial
  | cons dir dirs ih =>
    apply Prog.All.except_bind
    · exact ⟨rfl, fun _ => trivial⟩
    · intro names
      apply Prog.All.except_bind (all_referencedIn body keep dir names)
      intro found
      cases found with
      | true => trivial
      | false => exact ih

theorem all_gcBody (e : Envelope) : (gcBody e).run.All fun c => c.aside = true := by
  unfold gcBody
  split
  · trivial
  · apply Prog.All.except_bind (all_bodyReferenced e.body e.uuid bodyDirs)
    intro found
    cases found with
    | true => trivial
    | false =>
      apply Prog.All.except_bind
      · exact ⟨rfl, fun _ => trivial⟩
      · intro removed
        match removed with
        | .ok () => trivial
        | .error .notExist => trivial
        | .error .io | .error .torn | .error (.invalid _) | .error .inFlight | .error .notQueued
        | .error (.misplaced _) => trivial

end Collect

end Ledger

end Mailgw.Queue
