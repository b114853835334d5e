import Mailgw.Calls.Program

namespace Calls

variable {C : Type} {R : C → Type} {W α β : Type}

/-- What a program may assume of the world it shares and what it promises in return: `step` is
    the effect of its own calls, `rely` covers the steps of everybody else between two of them,
    and `guar` is promised of each of its own. -/
structure Contract (C : Type) (R : C → Type) (W : Type) where
  step : (request : C) → W → R request → W → Prop
  rely : W → W → Prop
  guar : W → W → Prop

/-- Every call of the program keeps the guarantee, and its result satisfies `post`, whatever
    the others do in between. The last call and the return are one step. -/
def Sat (k : Contract C R W) (post : α → W → Prop) : Prog C R α → W → Prop
  | .done value, w => post value w
  | .call request next, w =>
    ∀ w₁, Relation.ReflTransGen k.rely w w₁ → ∀ answer w₂, k.step request w₁ answer w₂ →
      k.guar w₁ w₂ ∧ Sat k post (next answer) w₂

def Stable (k : Contract C R W) (assertion : W → Prop) : Prop :=
  ∀ w w', k.rely w w' → assertion w → assertion w'

theorem Stable.star {k : Contract C R W} {assertion : W → Prop} (stable : Stable k assertion) {w w' : W}
    (moves : Relation.ReflTransGen k.rely w w') (holds : assertion w) : assertion w' := by
  induction moves with
  | refl => exact holds
  | tail _ move ih => exact stable _ _ move ih

theorem Stable.and {k : Contract C R W} {first second : W → Prop} (left : Stable k first)
    (right : Stable k second) : Stable k fun w => first w ∧ second w :=
  fun w w' move holds => ⟨left w w' move holds.1, right w w' move holds.2⟩

theorem Stable.const {k : Contract C R W} (fact : Prop) : Stable k fun _ => fact :=
  fun _ _ _ holds => holds

namespace Sat

variable {k : Contract C R W} {post : α → W → Prop}

theorem interfere {request : C} {next : R request → Prog C R α} {w w' : W} (move : k.rely w w')
    (sat : Sat k post (.call request next) w) : Sat k post (.call request next) w' :=
  fun w₁ moves => sat w₁ (.head move moves)

theorem stable {p : Prog C R α} {w w' : W} (sat : Sat k post p w) (lasting : ∀ value, Stable k (post value))
    (move : k.rely w w') : Sat k post p w' := by
  cases p with
  | done value => exact lasting value w w' move sat
  | call request next => exact sat.interfere move

theorem answer {request : C} {next : R request → Prog C R α} {w w' : W} {answer : R request}
    (sat : Sat k post (.call request next) w) (step : k.step request w answer w') :
    k.guar w w' ∧ Sat k post (next answer) w' :=
  sat w .refl answer w' step

/-- The proof-outline rule: name what holds while the call is pending. -/
theorem call {request : C} {next : R request → Prog C R α} {w : W} (assertion : W → Prop)
    (stable : Stable k assertion) (holds : assertion w)
    (body : ∀ w₁, assertion w₁ → ∀ answer w₂, k.step request w₁ answer w₂ →
      k.guar w₁ w₂ ∧ Sat k post (next answer) w₂) :
    Sat k post (.call request next) w :=
  fun w₁ moves => body w₁ (stable.star moves holds)

theorem bind {p : Prog C R α} {f : α → Prog C R β} {final : β → W → Prop} {w : W}
    (sat : Sat k (fun value w => Sat k final (f value) w) p w) : Sat k final (p >>= f) w := by
  induction p generalizing w with
  | done value => exact sat
  | call request next ih =>
    intro w₁ moves answer w₂ step
    obtain ⟨kept, rest⟩ := sat w₁ moves answer w₂ step
    exact ⟨kept, ih answer rest⟩

theorem mono {weaker : α → W → Prop} {p : Prog C R α} {w : W} (sat : Sat k post p w)
    (implies : ∀ value w, post value w → weaker value w) : Sat k weaker p w := by
  induction p generalizing w with
  | done value => exact implies value w sat
  | call request next ih =>
    intro w₁ moves answer w₂ step
    obtain ⟨kept, rest⟩ := sat w₁ moves answer w₂ step
    exact ⟨kept, ih answer rest⟩

theorem map {f : α → β} {final : β → W → Prop} {p : Prog C R α} {w : W}
    (sat : Sat k (fun value w => final (f value) w) p w) : Sat k final (f <$> p) w :=
  bind sat

theorem frame {kept : W → Prop} {p : Prog C R α} {w : W} (sat : Sat k post p w) (stable : Stable k kept)
    (own : ∀ w w', k.guar w w' → kept w → kept w') (holds : kept w) : Sat k (fun value w => post value w ∧ kept w) p w := by
  induction p generalizing w with
  | done value => exact ⟨sat, holds⟩
  | call request next ih =>
    intro w₁ moves answer w₂ step
    obtain ⟨guarantee, rest⟩ := sat w₁ moves answer w₂ step
    exact ⟨guarantee, ih answer rest (own w₁ w₂ guarantee (stable.star moves holds))⟩

theorem except_bind {ε : Type} {p : ExceptT ε (Prog C R) α} {f : α → ExceptT ε (Prog C R) β}
    {final : Except ε β → W → Prop} {w : W}
    (sat : Sat k (fun result w => match result with
      | .ok value => Sat k final (f value).run w
      | .error err => final (.error err) w) p.run w) : Sat k final (p >>= f).run w := by
  refine bind (sat.mono ?_)
  intro result w holds
  cases result with
  | ok value => exact holds
  | error err => exact holds

theorem except_pure {ε : Type} {final : Except ε α → W → Prop} {value : α} {w : W} (holds : final (.ok value) w) :
    Sat k final (pure value : ExceptT ε (Prog C R) α).run w := holds

theorem of_all {kind : C → Prop} {p : Prog C R α} (assertion : W → Prop) (stable : Stable k assertion)
    (calls : ∀ request w answer w', kind request → assertion w → k.step request w answer w' →
      k.guar w w' ∧ assertion w') (all : p.All kind) {w : W} (holds : assertion w) :
    Sat k (fun _ w' => assertion w') p w := by
  induction p generalizing w with
  | done value => exact holds
  | call request next ih =>
    intro w₁ moves answer w₂ step
    obtain ⟨kept, holds'⟩ := calls _ _ _ _ all.1 (stable.star moves holds) step
    exact ⟨kept, ih answer (all.2 answer) holds'⟩

theorem except_lift {ε : Type} {p : Prog C R α} {final : Except ε α → W → Prop} {w : W}
    (sat : Sat k (fun value w => final (.ok value) w) p w) : Sat k final (ExceptT.lift p).run w :=
  map sat

end Sat

end Calls
