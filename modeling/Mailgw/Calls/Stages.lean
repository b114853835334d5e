import Mailgw.Calls.Contract
import Mailgw.Calls.Program

namespace Calls

/-- Which calls a program may make at a stage of its own, which answers it may get, and the stage
    an answer brings it to. -/
structure Stages (C : Type) (R : C → Type) (σ : Type) where
  may : (c : C) → σ → Prop
  can : (c : C) → R c → Prop
  after : (c : C) → R c → σ → σ

variable {C : Type} {R : C → Type} {σ α β : Type} {stages : Stages C R σ}

/-- Every call the program makes, whatever it is answered, is one it may make at its stage, and
    `post` holds of the stage it ends in. -/
def Follows (stages : Stages C R σ) (post : α → σ → Prop) : Prog C R α → σ → Prop
  | .done value, stage => post value stage
  | .call c next, stage =>
    stages.may c stage ∧
      ∀ answer, stages.can c answer → Follows stages post (next answer) (stages.after c answer stage)

namespace Follows

variable {post post' : α → σ → Prop} {final : β → σ → Prop} {stage : σ}

theorem bind {p : Prog C R α} {f : α → Prog C R β}
    (follows : Follows stages (fun value stage => Follows stages final (f value) stage) p stage) :
    Follows stages final (p >>= f) stage := by
  induction p generalizing stage with
  | done value => exact follows
  | call c next ih => exact ⟨follows.1, fun answer can => ih answer (follows.2 answer can)⟩

theorem mono {p : Prog C R α} (follows : Follows stages post p stage)
    (implies : ∀ value stage, post value stage → post' value stage) : Follows stages post' p stage := by
  induction p generalizing stage with
  | done value => exact implies value stage follows
  | call c next ih => exact ⟨follows.1, fun answer can => ih answer (follows.2 answer can)⟩

theorem ask {c : C} {f : R c → Prog C R α} (may : stages.may c stage)
    (rest : ∀ answer, stages.can c answer → Follows stages post (f answer) (stages.after c answer stage)) :
    Follows stages post (Prog.ask c >>= f) stage := ⟨may, rest⟩

end Follows

end Calls

namespace Calls

variable {C D : Type} {R : C → Type} {Q : D → Type} {σ α β : Type}

def Prog.inl : Prog C R α → Prog (C ⊕ D) (Sum.elim R Q) α
  | .done value => .done value
  | .call c next => .call (.inl c) fun answer => (next answer).inl

def left (event : Σ c, R c) : Σ call : C ⊕ D, Sum.elim R Q call := ⟨.inl event.1, event.2⟩

theorem Prog.All.inl {kind : C ⊕ D → Prop} {p : Prog C R α} (all : p.All fun c => kind (.inl c)) :
    (p.inl : Prog (C ⊕ D) (Sum.elim R Q) α).All kind := by
  induction p with
  | done value => exact trivial
  | call c next ih => exact ⟨all.1, fun answer => ih answer (all.2 answer)⟩

def Stages.left (stages : Stages (C ⊕ D) (Sum.elim R Q) σ) : Stages C R σ where
  may c := stages.may (.inl c)
  can c := stages.can (.inl c)
  after c := stages.after (.inl c)

theorem Follows.inl {stages : Stages (C ⊕ D) (Sum.elim R Q) σ} {post : α → σ → Prop} {p : Prog C R α} {stage : σ}
    (follows : Follows stages.left post p stage) : Follows stages post p.inl stage := by
  induction p generalizing stage with
  | done value => exact follows
  | call c next ih => exact ⟨follows.1, fun answer can => ih answer (follows.2 answer can)⟩

end Calls

namespace Calls

variable {C : Type} {R : C → Type} {σ α : Type} {p q : Prog C R α} {event : Σ c, R c}

def Prog.step [DecidableEq C] (p : Prog C R α) (event : Σ c, R c) : Option (Prog C R α) :=
  match p with
  | .done _ => none
  | .call c next => if same : event.1 = c then some (next (same ▸ event.2)) else none

theorem Prog.step_inv [DecidableEq C] (step : p.step event = some q) :
    ∃ next, p = .call event.1 next ∧ q = next event.2 := by
  cases p with
  | done value => cases step
  | call c next =>
    simp only [Prog.step] at step
    split at step
    · rename_i same
      subst same
      exact ⟨next, rfl, (Option.some.inj step).symm⟩
    · cases step

theorem Sat.step [DecidableEq C] {W : Type} {k : Contract C R W} {post : α → W → Prop} {w w' : W} (sat : Sat k post p w)
    (step : p.step event = some q) (served : k.step event.1 w event.2 w') : k.guar w w' ∧ Sat k post q w' := by
  obtain ⟨next, rfl, rfl⟩ := Prog.step_inv step
  exact sat.answer served

theorem Follows.step [DecidableEq C] {stages : Stages C R σ} {post : α → σ → Prop} {stage : σ}
    (follows : Follows stages post p stage) (can : stages.can event.1 event.2) (step : p.step event = some q) :
    stages.may event.1 stage ∧ Follows stages post q (stages.after event.1 event.2 stage) := by
  obtain ⟨next, rfl, rfl⟩ := Prog.step_inv step
  exact ⟨follows.1, follows.2 event.2 can⟩

def Stages.Neutral (stages : Stages C R σ) (c : C) : Prop :=
  ∀ stage, stages.may c stage ∧ ∀ answer, stages.after c answer stage = stage

theorem Follows.neutral {stages : Stages C R σ} {post : α → Prop} {stage : σ} (neutral : p.All stages.Neutral)
    (returns : ∀ events value, Trace p events value → post value) :
    Follows stages (fun value stage' => post value ∧ stage' = stage) p stage := by
  induction p with
  | done value => exact ⟨returns [] value (.done value), rfl⟩
  | call c next ih =>
    refine ⟨(neutral.1 stage).1, fun answer _ => ?_⟩
    rw [(neutral.1 stage).2 answer]
    apply ih answer (neutral.2 answer)
    intro events value trace
    exact returns _ value (.call answer trace)

end Calls
