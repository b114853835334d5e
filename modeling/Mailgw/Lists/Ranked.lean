import Mailgw.Calls.Contract
import Mathlib.Data.List.FinRange
import Mathlib.Data.List.Sort
import Mathlib.Data.List.SplitBy

namespace Lists

variable {α β κ : Type} [LinearOrder κ] {f : α → κ} {items items' : List α}

/-- The items by rising rank. Those of one rank stay in their order. -/
def ranked (f : α → κ) (items : List α) : List α := items.insertionSort fun x y => f x ≤ f y

theorem ranked_perm (f : α → κ) (items : List α) : (ranked f items).Perm items := List.perm_insertionSort _ items

theorem mem_ranked {x : α} : x ∈ ranked f items ↔ x ∈ items := List.mem_insertionSort _

theorem ranked_pairwise (f : α → κ) (items : List α) : (ranked f items).Pairwise fun x y => f x ≤ f y := by
  have total : Std.Total fun x y => f x ≤ f y := ⟨fun x y => le_total (f x) (f y)⟩
  have transitive : IsTrans α fun x y => f x ≤ f y := ⟨fun _ _ _ first second => first.trans second⟩
  exact List.pairwise_insertionSort _ items

theorem ranked_of_pairwise (rising : items.Pairwise fun x y => f x ≤ f y) : ranked f items = items :=
  List.Pairwise.insertionSort_eq rising

/-- Where items of one rank look alike, what is seen in turn does not depend on how they came. -/
theorem map_ranked_perm (perm : items.Perm items') (view : α → β)
    (alike : ∀ x ∈ items, ∀ y ∈ items, f x = f y → view x = view y) :
    (ranked f items).map view = (ranked f items').map view := by
  have seen : ((ranked f items).map fun x => (f x, view x)) = (ranked f items').map fun x => (f x, view x) := by
    have rising (items : List α) : ((ranked f items).map fun x => (f x, view x)).Pairwise fun a b => a.1 ≤ b.1 :=
      List.pairwise_map.mpr (ranked_pairwise f items)
    refine List.Perm.eq_of_pairwise ?_ (rising items) (rising items')
      ((((ranked_perm f items).trans perm).trans (ranked_perm f items').symm).map _)
    intro a b here there below above
    obtain ⟨x, member, rfl⟩ := List.mem_map.mp here
    obtain ⟨y, member', rfl⟩ := List.mem_map.mp there
    have same : f x = f y := le_antisymm below above
    have other : y ∈ items := perm.mem_iff.mpr (mem_ranked.mp member')
    exact Prod.ext same (alike x (mem_ranked.mp member) y other same)
  have second := congrArg (List.map Prod.snd) seen
  rw [List.map_map, List.map_map] at second
  exact second

theorem map_find_perm (perm : items.Perm items') (wanted : α → Bool) (view : α → β)
    (alike : ∀ x ∈ items, ∀ y ∈ items, wanted x = true → wanted y = true → view x = view y) :
    (items.find? wanted).map view = (items'.find? wanted).map view := by
  cases found : items.find? wanted with
  | none =>
    have nobody : items'.find? wanted = none := by
      apply List.find?_eq_none.mpr
      intro x member
      exact List.find?_eq_none.mp found x (perm.mem_iff.mpr member)
    rw [nobody]
  | some x =>
    cases found' : items'.find? wanted with
    | none =>
      have there := perm.subset (List.mem_of_find?_eq_some found)
      exact absurd (List.find?_some found) (List.find?_eq_none.mp found' x there)
    | some y =>
      have member := perm.mem_iff.mpr (List.mem_of_find?_eq_some found')
      have same := alike x (List.mem_of_find?_eq_some found) y member (List.find?_some found) (List.find?_some found')
      exact congrArg some same

theorem bind_find_perm (perm : items.Perm items') (wanted : α → Bool) (view : α → Option β)
    (alike : ∀ x ∈ items, ∀ y ∈ items, wanted x = true → wanted y = true → view x = view y) :
    (items.find? wanted).bind view = (items'.find? wanted).bind view := by
  have found := congrArg Option.join (map_find_perm perm wanted view alike)
  simpa [← Option.bind_id_eq_join, Option.bind_map] using found

omit [LinearOrder κ] in
theorem find_key_perm [DecidableEq κ] (perm : items.Perm items') (distinct : (items.map f).Nodup) (key : κ) :
    (items.find? fun x => f x = key) = items'.find? fun x => f x = key := by
  have same := map_find_perm perm (fun x => f x = key) id fun x here y there wanted wanted' =>
    List.inj_on_of_nodup_map distinct here there ((of_decide_eq_true wanted).trans (of_decide_eq_true wanted').symm)
  simpa using same

theorem filter_orderedInsert (x : α) (items : List α) (k : κ) :
    (items.orderedInsert (fun x y => f x ≤ f y) x).filter (fun y => f y = k) =
      (x :: items).filter fun y => f y = k := by
  induction items with
  | nil => rfl
  | cons y rest ih =>
    by_cases below : f x ≤ f y
    · rw [List.orderedInsert_cons, if_pos below]
    · rw [List.orderedInsert_cons, if_neg below, List.filter_cons, ih]
      have apart : ¬ (f x = k ∧ f y = k) := fun both => below (both.1.trans both.2.symm).le
      by_cases here : f x = k
      · have there : f y ≠ k := fun same => apart ⟨here, same⟩
        simp [here, there]
      · simp [List.filter_cons, here]

theorem filter_ranked (f : α → κ) (items : List α) (k : κ) :
    (ranked f items).filter (fun y => f y = k) = items.filter fun y => f y = k := by
  induction items with
  | nil => rfl
  | cons x rest ih =>
    unfold ranked at ih ⊢
    rw [List.insertionSort_cons, filter_orderedInsert, List.filter_cons, ih, List.filter_cons]

end Lists

namespace Lists

open Calls

variable {α κ : Type} {f : α → κ} {items items' items'' : List α}

/-- The items again, each at a place of its own rank. -/
structure Shuffled (f : α → κ) (items items' : List α) : Prop where
  perm : items'.Perm items
  ranks : items'.map f = items.map f

namespace Shuffled

theorem refl (f : α → κ) (items : List α) : Shuffled f items items := ⟨.refl items, rfl⟩

theorem trans (first : Shuffled f items items') (second : Shuffled f items' items'') : Shuffled f items items'' :=
  ⟨second.perm.trans first.perm, second.ranks.trans first.ranks⟩

theorem append {left left' right right' : List α} (first : Shuffled f left left') (second : Shuffled f right right') :
    Shuffled f (left ++ right) (left' ++ right') := by
  constructor
  · exact first.perm.append second.perm
  · rw [List.map_append, List.map_append, first.ranks, second.ranks]

theorem of_alike (perm : items'.Perm items) (alike : ∀ x ∈ items, ∀ y ∈ items, f x = f y) : Shuffled f items items' := by
  refine ⟨perm, ?_⟩
  cases items with
  | nil => rw [List.perm_nil.mp perm]
  | cons x rest =>
    have here : (x :: rest).map f = List.replicate (x :: rest).length (f x) := by
      apply List.eq_replicate_iff.mpr
      simpa using fun y member => alike y (List.mem_cons_of_mem x member) x List.mem_cons_self
    have there : items'.map f = List.replicate items'.length (f x) := by
      apply List.eq_replicate_iff.mpr
      simpa using fun y member => alike y (perm.mem_iff.mp member) x List.mem_cons_self
    rw [here, there, perm.length_eq]

theorem pairwise {r : κ → κ → Prop} (shuffled : Shuffled f items items')
    (sorted : items.Pairwise fun x y => r (f x) (f y)) :
    items'.Pairwise fun x y => r (f x) (f y) := by
  apply List.pairwise_map.mp
  rw [shuffled.ranks]
  exact List.pairwise_map.mpr sorted

theorem ranked [LinearOrder κ] (shuffled : Shuffled f (Lists.ranked f items) items') :
    items'.Perm items ∧ items'.Pairwise fun x y => f x ≤ f y :=
  ⟨shuffled.perm.trans (ranked_perm f items), shuffled.pairwise (ranked_pairwise f items)⟩

end Shuffled

section Replaced
variable {β : Type} {g : β → List α} {steps : List β}

theorem rank_of_replaced (same : List.Forall₂ (fun x step => ∀ y ∈ g step, f y = f x) items steps) :
    ∀ y ∈ steps.flatMap g, ∃ x ∈ items, f y = f x := by
  induction same with
  | nil => simp
  | cons own others ih =>
    intro y member
    rw [List.flatMap_cons, List.mem_append] at member
    rcases member with here | there
    · exact ⟨_, List.mem_cons_self, own y here⟩
    · obtain ⟨x, later, ranked⟩ := ih y there
      exact ⟨x, List.mem_cons_of_mem _ later, ranked⟩

theorem pairwise_replaced [Preorder κ] (rising : items.Pairwise fun x y => f x ≤ f y)
    (same : List.Forall₂ (fun x step => ∀ y ∈ g step, f y = f x) items steps) :
    (steps.flatMap g).Pairwise fun x y => f x ≤ f y := by
  induction same with
  | nil => exact List.Pairwise.nil
  | cons own others ih =>
    rw [List.pairwise_cons] at rising
    rw [List.flatMap_cons, List.pairwise_append]
    refine ⟨?_, ih rising.2, ?_⟩
    · apply List.pairwise_of_forall_mem_list
      intro y here z there
      rw [own y here, own z there]
    · intro y here z there
      obtain ⟨x, later, ranked⟩ := rank_of_replaced others z there
      rw [own y here, ranked]
      exact rising.1 x later

end Replaced

def permuted (items : List α) (σ : Equiv.Perm (Fin items.length)) : List α := List.ofFn fun i => items.get (σ i)

theorem permuted_perm (items : List α) (σ : Equiv.Perm (Fin items.length)) : (permuted items σ).Perm items := by
  have moved := σ.ofFn_comp_perm items.get
  rw [List.ofFn_get] at moved
  exact moved

section Bands
variable [DecidableEq κ]

def bands (f : α → κ) (items : List α) : List (List α) := items.splitBy fun x y => f x = f y

theorem flatten_bands (f : α → κ) (items : List α) : (bands f items).flatten = items := List.flatten_splitBy _ items

theorem alike_of_mem_bands {band : List α} (member : band ∈ bands f items) : ∀ x ∈ band, ∀ y ∈ band, f x = f y := by
  have chain : band.IsChain fun x y => f x = f y := by
    simpa using List.isChain_of_mem_splitBy member
  have transitive : IsTrans α fun x y => f x = f y := ⟨fun _ _ _ first second => first.trans second⟩
  have same : band.Pairwise fun x y => f x = f y := List.isChain_iff_pairwise.mp chain
  have symmetric : Std.Symm fun x y : α => f x = f y := ⟨fun _ _ => Eq.symm⟩
  have reflexive : ∀ x ∈ band, f x = f x := fun _ _ => rfl
  intro x here y there
  exact List.Pairwise.forall_of_forall reflexive same here there

variable {C : Type} {R : C → Type}

def shuffleBand (shuffle : (n : Nat) → Prog C R (Equiv.Perm (Fin n))) (band : List α) : Prog C R (List α) :=
  if 1 < band.length then do
    let σ ← shuffle band.length
    return permuted band σ
  else return band

def shuffleAll (shuffle : (n : Nat) → Prog C R (Equiv.Perm (Fin n))) : List (List α) → Prog C R (List α)
  | [] => return []
  | band :: rest => do
    let first ← shuffleBand shuffle band
    let later ← shuffleAll shuffle rest
    return first ++ later

def shuffleBands (shuffle : (n : Nat) → Prog C R (Equiv.Perm (Fin n))) (f : α → κ) (items : List α) :
    Prog C R (List α) := shuffleAll shuffle (bands f items)

section Contract
variable {W : Type} {k : Contract C R W} {kept : W → Prop} {shuffle : (n : Nat) → Prog C R (Equiv.Perm (Fin n))} {w : W}

omit [DecidableEq κ] in
theorem shuffleBand_sat (shuffles : ∀ n w, kept w → Sat k (fun _ w => kept w) (shuffle n) w) (band : List α)
    (alike : ∀ x ∈ band, ∀ y ∈ band, f x = f y) (holds : kept w) :
    Sat k (fun band' w => Shuffled f band band' ∧ kept w) (shuffleBand shuffle band) w := by
  unfold shuffleBand
  split
  · apply Sat.bind
    apply (shuffles band.length w holds).mono
    intro σ w kept
    exact ⟨.of_alike (permuted_perm band σ) alike, kept⟩
  · exact ⟨.refl f band, holds⟩

omit [DecidableEq κ] in
theorem shuffleAll_sat (shuffles : ∀ n w, kept w → Sat k (fun _ w => kept w) (shuffle n) w) (runs : List (List α))
    (alike : ∀ band ∈ runs, ∀ x ∈ band, ∀ y ∈ band, f x = f y) (holds : kept w) :
    Sat k (fun items w => Shuffled f runs.flatten items ∧ kept w) (shuffleAll shuffle runs) w := by
  induction runs generalizing w with
  | nil => exact ⟨.refl f [], holds⟩
  | cons band rest ih =>
    apply Sat.bind
    apply (shuffleBand_sat shuffles band (alike band List.mem_cons_self) holds).mono
    intro first w own
    apply Sat.bind
    apply (ih (fun band member => alike band (List.mem_cons_of_mem _ member)) own.2).mono
    intro later w others
    exact ⟨own.1.append others.1, others.2⟩

/-- Whatever the shuffles come to, every item stays among those of its rank that it stands with. -/
theorem shuffleBands_sat (shuffles : ∀ n w, kept w → Sat k (fun _ w => kept w) (shuffle n) w) (f : α → κ)
    (items : List α) (holds : kept w) : Sat k (fun items' w => Shuffled f items items' ∧ kept w) (shuffleBands shuffle f items) w := by
  have shuffled := shuffleAll_sat shuffles (bands f items) (fun _ member => alike_of_mem_bands member) holds
  rw [flatten_bands] at shuffled
  exact shuffled

end Contract

end Bands

end Lists
