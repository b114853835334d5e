import Mathlib.Logic.Relation

namespace Calls

variable {S D : Type} {next : S → D → Option S} {ok ok' : S → D → Prop} {start : S}

/-- The states of a system that moves by decisions, along runs whose every step is allowed. -/
inductive Reachable (next : S → D → Option S) (ok : S → D → Prop) (start : S) : S → Prop where
  | start : Reachable next ok start start
  | step {s s' : S} {d : D} (earlier : Reachable next ok start s) (allowed : ok s d)
      (move : next s d = some s') : Reachable next ok start s'

namespace Reachable

theorem invariant (inv : S → Prop) (initial : inv start)
    (preserved : ∀ s d s', inv s → ok s d → next s d = some s' → inv s')
    {s : S} (reachable : Reachable next ok start s) : inv s := by
  induction reachable with
  | start => exact initial
  | step _ allowed move ih => exact preserved _ _ _ ih allowed move

theorem mono (weaker : ∀ s d, ok s d → ok' s d) {s : S} (reachable : Reachable next ok start s) :
    Reachable next ok' start s := by
  induction reachable with
  | start => exact .start
  | step _ allowed move ih => exact .step ih (weaker _ _ allowed) move

theorem trans {s s' : S} (first : Reachable next ok start s) (second : Reachable next ok s s') :
    Reachable next ok start s' := by
  induction second with
  | start => exact first
  | step _ allowed move ih => exact .step ih allowed move

end Reachable

def play (next : S → D → Option S) (ok : S → D → Bool) (s : S) : List D → Option S
  | [] => some s
  | d :: rest => if ok s d then (next s d).bind fun s' => play next ok s' rest else none

theorem reachable_of_play {allowed : S → D → Bool} (sound : ∀ s d, allowed s d → ok s d) (decisions : List D)
    {s s' : S} (played : play next allowed s decisions = some s') : Reachable next ok s s' := by
  induction decisions generalizing s with
  | nil =>
    simp only [play, Option.some.injEq] at played
    exact played ▸ .start
  | cons d rest ih =>
    simp only [play] at played
    split at played
    · rename_i permitted
      obtain ⟨between, move, remaining⟩ := Option.bind_eq_some_iff.mp played
      have first : Reachable next ok s between := .step .start (sound _ _ permitted) move
      exact first.trans (ih remaining)
    · cases played

end Calls
