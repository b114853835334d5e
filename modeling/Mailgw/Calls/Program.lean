import Mathlib.Logic.Relation

namespace Calls

/-- A sequential program whose only effects are calls from a signature `C`, each answered by the
    outside before the program goes on. -/
inductive Prog (C : Type) (R : C → Type) (α : Type) where
  | done (value : α)
  | call (request : C) (next : R request → Prog C R α)

variable {C : Type} {R : C → Type} {α β γ : Type}

namespace Prog

def bind : Prog C R α → (α → Prog C R β) → Prog C R β
  | .done value, f => f value
  | .call request next, f => .call request fun answer => (next answer).bind f

instance : Monad (Prog C R) where
  pure := .done
  bind := bind

def ask (request : C) : Prog C R (R request) := .call request .done

@[simp] theorem pure_eq (value : α) : (pure value : Prog C R α) = .done value := rfl

@[simp] theorem done_bind (value : α) (f : α → Prog C R β) : (Prog.done value >>= f) = f value := rfl

@[simp] theorem call_bind (request : C) (next : R request → Prog C R α) (f : α → Prog C R β) :
    (Prog.call request next >>= f) = .call request fun answer => next answer >>= f := rfl

@[simp] theorem ask_bind (request : C) (f : R request → Prog C R β) :
    (ask request >>= f) = .call request f := rfl

@[simp] theorem bind_done (p : Prog C R α) : (p >>= Prog.done) = p := by
  induction p with
  | done value => rfl
  | call request next ih => exact congrArg _ (funext ih)

@[simp] theorem bind_bind (p : Prog C R α) (f : α → Prog C R β) (g : β → Prog C R γ) :
    (p >>= f >>= g) = p >>= fun value => f value >>= g := by
  induction p with
  | done value => rfl
  | call request next ih => exact congrArg _ (funext ih)

@[simp] theorem map_done (f : α → β) (value : α) : (f <$> (Prog.done value : Prog C R α)) = .done (f value) := rfl

theorem map_eq_bind (f : α → β) (p : Prog C R α) : f <$> p = p >>= fun value => .done (f value) := rfl

def All (kind : C → Prop) : Prog C R α → Prop
  | .done _ => True
  | .call request next => kind request ∧ ∀ answer, (next answer).All kind

theorem All.bind {kind : C → Prop} {p : Prog C R α} {f : α → Prog C R β} (first : p.All kind)
    (rest : ∀ value, (f value).All kind) : (p >>= f).All kind := by
  induction p with
  | done value => exact rest value
  | call request next ih => exact ⟨first.1, fun answer => ih answer (first.2 answer)⟩

theorem All.mono {kind wider : C → Prop} {p : Prog C R α} (all : p.All kind)
    (implies : ∀ request, kind request → wider request) : p.All wider := by
  induction p with
  | done value => exact trivial
  | call request next ih => exact ⟨implies request all.1, fun answer => ih answer (all.2 answer)⟩

theorem All.ask {kind : C → Prop} {request : C} {f : R request → Prog C R β} (own : kind request)
    (rest : ∀ answer, (f answer).All kind) : (ask request >>= f).All kind := ⟨own, rest⟩

theorem All.except_bind {ε : Type} {kind : C → Prop} {p : ExceptT ε (Prog C R) α}
    {f : α → ExceptT ε (Prog C R) β} (first : p.run.All kind) (rest : ∀ value, (f value).run.All kind) :
    (p >>= f).run.All kind := by
  apply All.bind first
  intro result
  cases result with
  | ok value => exact rest value
  | error err => exact trivial

def run {σ : Type} (handler : (request : C) → σ → R request × σ) : Prog C R α → σ → α × σ
  | .done value, s => (value, s)
  | .call request next, s =>
    let (answer, s') := handler request s
    (next answer).run handler s'

theorem run_bind {σ : Type} (handler : (request : C) → σ → R request × σ) (p : Prog C R α) (f : α → Prog C R β) (s : σ) :
    (p >>= f).run handler s = (f (p.run handler s).1).run handler (p.run handler s).2 := by
  induction p generalizing s with
  | done value => rfl
  | call request next ih => exact ih _ _

end Prog

/-- `Trace p events a`: some outside answers the calls of `p` as recorded in `events`, and `p`
    then returns `a`. -/
inductive Trace : Prog C R α → List (Σ request, R request) → α → Prop where
  | done (value : α) : Trace (.done value) [] value
  | call {request : C} {next : R request → Prog C R α} {events : List (Σ request, R request)} {value : α}
      (answer : R request) (rest : Trace (next answer) events value) :
      Trace (.call request next) (⟨request, answer⟩ :: events) value

namespace Trace

theorem bind {p : Prog C R α} {f : α → Prog C R β} {first rest : List (Σ request, R request)} {a : α} {b : β}
    (left : Trace p first a) (right : Trace (f a) rest b) : Trace (p >>= f) (first ++ rest) b := by
  induction left with
  | done value => exact right
  | call answer _ ih => exact .call answer (ih right)

theorem done_inv {value result : α} {events : List (Σ request, R request)}
    (trace : Trace (.done value : Prog C R α) events result) : events = [] ∧ result = value := by
  cases trace
  exact ⟨rfl, rfl⟩

theorem call_inv {request : C} {next : R request → Prog C R α} {events : List (Σ request, R request)} {value : α}
    (trace : Trace (.call request next) events value) :
    ∃ answer rest, events = ⟨request, answer⟩ :: rest ∧ Trace (next answer) rest value := by
  cases trace with
  | call answer rest => exact ⟨answer, _, rfl, rest⟩

theorem ask_inv {request : C} {f : R request → Prog C R α} {events : List (Σ request, R request)} {value : α}
    (trace : Trace (Prog.ask request >>= f) events value) :
    ∃ answer rest, events = ⟨request, answer⟩ :: rest ∧ Trace (f answer) rest value := call_inv trace

theorem bind_inv {p : Prog C R α} {f : α → Prog C R β} {events : List (Σ request, R request)} {b : β}
    (trace : Trace (p >>= f) events b) :
    ∃ first rest a, events = first ++ rest ∧ Trace p first a ∧ Trace (f a) rest b := by
  induction p generalizing events with
  | done value => exact ⟨[], events, value, rfl, .done value, trace⟩
  | call request next ih =>
    obtain ⟨answer, tail, rfl, continued⟩ := call_inv trace
    obtain ⟨first, rest, a, rfl, left, right⟩ := ih answer continued
    exact ⟨⟨request, answer⟩ :: first, rest, a, rfl, .call answer left, right⟩

theorem all {kind : C → Prop} {p : Prog C R α} {events : List (Σ request, R request)} {value : α}
    (trace : Trace p events value) (calls : p.All kind) : ∀ event ∈ events, kind event.1 := by
  induction trace with
  | done value => simp
  | call answer _ ih =>
    intro event member
    rcases List.mem_cons.mp member with rfl | later
    · exact calls.1
    · exact ih (calls.2 _) event later

end Trace

def Prog.replay [DecidableEq C] : Prog C R α → List (Σ request, R request) → Option α
  | .done value, [] => some value
  | .done _, _ :: _ => none
  | .call _ _, [] => none
  | .call request next, ⟨made, answer⟩ :: rest =>
    if same : made = request then (next (same ▸ answer)).replay rest else none

theorem Trace.of_replay [DecidableEq C] {p : Prog C R α} {events : List (Σ request, R request)} {value : α}
    (replayed : p.replay events = some value) : Trace p events value := by
  induction p generalizing events with
  | done result =>
    cases events with
    | nil =>
      cases replayed
      exact .done _
    | cons event rest => cases replayed
  | call request next ih =>
    cases events with
    | nil => cases replayed
    | cons event rest =>
      obtain ⟨made, answer⟩ := event
      simp only [Prog.replay] at replayed
      split at replayed
      · rename_i same
        subst same
        exact .call answer (ih answer replayed)
      · cases replayed

inductive Rounds (body : Prog C R (Option α)) : List (Σ request, R request) → α → Prop where
  | last {events : List (Σ request, R request)} {value : α} (trace : Trace body events (some value)) :
      Rounds body events value
  | again {first rest : List (Σ request, R request)} {value : α} (trace : Trace body first none)
      (later : Rounds body rest value) : Rounds body (first ++ rest) value

end Calls
