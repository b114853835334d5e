import Mathlib.Data.List.Sort
import Mathlib.Data.List.Nodup

namespace Lists

structure Ranking (α : Type) where
  le : α → α → Bool
  total : ∀ x y, le x y = true ∨ le y x = true
  trans : ∀ x y z, le x y = true → le y z = true → le x z = true

variable {α : Type}

section Orders

def Ranking.flip (r : Ranking α) : Ranking α where
  le x y := r.le y x
  total x y := r.total y x
  trans x y z first second := r.trans z y x second first

def Ranking.none : Ranking α where
  le _ _ := true
  total _ _ := .inl rfl
  trans _ _ _ _ _ := rfl

def Ranking.andThen (r s : Ranking α) : Ranking α where
  le x y := r.le x y && (!r.le y x || s.le x y)
  total x y := by
    rcases r.total x y with here | here
    · rcases s.total x y with there | there <;> cases back : r.le y x <;> simp [here, there]
    · rcases s.total x y with there | there <;> cases back : r.le x y <;> simp [here, there]
  trans x y z first second := by
    simp only [Bool.and_eq_true, Bool.or_eq_true, Bool.not_eq_true'] at first second ⊢
    refine ⟨r.trans x y z first.1 second.1, ?_⟩
    rcases first.2 with strict | below
    · left
      by_contra back
      rw [Bool.not_eq_false] at back
      rw [r.trans y z x second.1 back] at strict
      cases strict
    · rcases second.2 with strict | above
      · left
        by_contra back
        rw [Bool.not_eq_false] at back
        rw [r.trans z x y back first.1] at strict
        cases strict
      · exact .inr (s.trans x y z below above)

end Orders

section Ranks
variable (r : Ranking α)

def Ranking.lt (x y : α) : Bool := r.le x y && !r.le y x

def Ranking.ties (x y : α) : Bool := r.le x y && r.le y x

def before (items : List α) (x : α) : Nat := items.countP fun y => r.lt y x

def tied (items : List α) (x : α) : Nat := items.countP fun y => r.ties y x

structure Arranged (items arr : List α) : Prop where
  perm : arr.Perm items
  rising : arr.Pairwise fun x y => r.le x y = true

/-- No items that tie stand on both sides of a page boundary. -/
def Apart (items : List α) (n : Nat) : Prop := ∀ x ∈ items, ∀ k, ¬ (before r items x < k * n ∧ k * n < before r items x + tied r items x)

end Ranks

def page (arr : List α) (offset limit : Nat) : List α := (arr.drop offset).take limit

section Positions
variable {r : Ranking α} {items arr : List α} {x y : α} {i n : Nat}

theorem Ranking.refl (r : Ranking α) (x : α) : r.le x x = true := by
  rcases r.total x x with here | here <;> exact here

theorem before_add_tied (r : Ranking α) (items : List α) (x : α) :
    before r items x + tied r items x = items.countP fun y => r.le y x := by
  induction items with
  | nil => rfl
  | cons y rest ih =>
    simp only [before, tied, List.countP_cons, Ranking.lt, Ranking.ties] at ih ⊢
    cases r.le y x <;> cases r.le x y <;> simp <;> omega

theorem Arranged.before_eq (arranged : Arranged r items arr) (x : α) : before r arr x = before r items x := arranged.perm.countP_eq _

theorem Arranged.position (arranged : Arranged r items arr) (at_ : arr[i]? = some x) :
    before r items x ≤ i ∧ i < before r items x + tied r items x := by
  obtain ⟨inside, here⟩ := List.getElem?_eq_some_iff.mp at_
  have rising := arranged.rising
  have split : arr = arr.take i ++ x :: arr.drop (i + 1) := by
    rw [← here, List.getElem_cons_drop, List.take_append_drop]
  have long : (arr.take i).length = i := by
    rw [List.length_take]
    omega
  rw [split, List.pairwise_append, List.pairwise_cons] at rising
  obtain ⟨-, ⟨later, -⟩, earlier⟩ := rising
  constructor
  · rw [← arranged.before_eq, before, split, List.countP_append, List.countP_cons]
    have none : (arr.drop (i + 1)).countP (fun y => r.lt y x) = 0 := by
      apply List.countP_eq_zero.mpr
      intro y member
      simp [Ranking.lt, later y member]
    have self : r.lt x x = false := by simp [Ranking.lt]
    have few : (arr.take i).countP (fun y => r.lt y x) ≤ (arr.take i).length := List.countP_le_length
    rw [none, self]
    simp
    omega
  · rw [before_add_tied, ← arranged.perm.countP_eq, split, List.countP_append, List.countP_cons]
    have all : (arr.take i).countP (fun y => r.le y x) = (arr.take i).length := by
      apply List.countP_eq_length.mpr
      intro y member
      exact earlier y member x List.mem_cons_self
    rw [all, long, r.refl x]
    simp

theorem mem_page {offset limit : Nat} : x ∈ page arr offset limit ↔ ∃ i, offset ≤ i ∧ i < offset + limit ∧ arr[i]? = some x := by
  unfold page
  constructor
  · intro member
    obtain ⟨j, found⟩ := List.mem_iff_getElem?.mp member
    rw [List.getElem?_take] at found
    split at found
    · rw [List.getElem?_drop] at found
      exact ⟨offset + j, by omega, by omega, found⟩
    · cases found
  · rintro ⟨i, low, high, found⟩
    apply List.mem_iff_getElem?.mpr
    refine ⟨i - offset, ?_⟩
    rw [List.getElem?_take, if_pos (by omega), List.getElem?_drop, Nat.add_sub_cancel' low]
    exact found

theorem nodup_page (distinct : arr.Nodup) (offset limit : Nat) : (page arr offset limit).Nodup :=
  (List.take_sublist _ _).nodup ((List.drop_sublist _ _).nodup distinct)

/-- Where no tie is torn, the page of an item does not depend on the arrangement. -/
theorem Arranged.page_of_apart (arranged : Arranged r items arr) (apart : Apart r items n)
    (at_ : arr[i]? = some x) : i / n = before r items x / n := by
  obtain ⟨low, high⟩ := arranged.position at_
  have member : x ∈ items := arranged.perm.mem_iff.mp (List.mem_of_getElem? at_)
  have le : before r items x / n ≤ i / n := Nat.div_le_div_right low
  rcases Nat.lt_or_eq_of_le le with less | same
  · have torn := apart x member (i / n)
    have begins : i / n * n ≤ i := Nat.div_mul_le_self i n
    have ends : before r items x < i / n * n := Nat.lt_mul_of_div_lt less (by
      apply Nat.pos_of_ne_zero
      rintro rfl
      simp at less)
    exact absurd ⟨ends, by omega⟩ torn
  · exact same.symm

theorem Arranged.ties_of_between (arranged : Arranged r items arr) (at_ : arr[i]? = some y)
    (low : before r items x ≤ i) (high : i < before r items x + tied r items x) : r.ties y x = true := by
  obtain ⟨low', high'⟩ := arranged.position at_
  have counted (x y : α) (first : r.lt x y = true) : before r items x + tied r items x ≤ before r items y := by
    rw [before_add_tied]
    apply List.countP_mono_left
    intro z _ below
    simp only [Ranking.lt, Bool.and_eq_true, Bool.not_eq_true'] at first ⊢
    refine ⟨r.trans z x y below first.1, ?_⟩
    by_contra back
    rw [Bool.not_eq_false] at back
    rw [r.trans y z x back below] at first
    cases first.2
  by_contra apart
  rcases r.total x y with here | here
  · have first : r.lt x y = true := by
      simp only [Ranking.ties, Bool.and_eq_true, not_and, Bool.not_eq_true] at apart
      cases back : r.le y x with
      | false => simp [Ranking.lt, here, back]
      | true =>
        rw [here] at apart
        exact absurd (apart back) (by simp)
    have below := counted x y first
    omega
  · have first : r.lt y x = true := by
      simp only [Ranking.ties, Bool.and_eq_true, not_and, Bool.not_eq_true] at apart
      simp [Ranking.lt, here, apart here]
    have below := counted y x first
    omega

end Positions

section Paging
variable {r : Ranking α} {items : List α} {n limit m : Nat}

theorem exists_arranged (r : Ranking α) (items : List α) : ∃ arr, Arranged r items arr := by
  have total : Std.Total fun x y => r.le x y = true := ⟨r.total⟩
  have transitive : IsTrans α fun x y => r.le x y = true := ⟨r.trans⟩
  exact ⟨items.insertionSort fun x y => r.le x y, List.perm_insertionSort _ items, List.pairwise_insertionSort _ items⟩

theorem Arranged.swap {front back : List α} {x y : α} (arranged : Arranged r items (front ++ x :: y :: back))
    (ties : r.ties x y = true) : Arranged r items (front ++ y :: x :: back) := by
  have rising := arranged.rising
  simp only [Ranking.ties, Bool.and_eq_true] at ties
  rw [List.pairwise_append, List.pairwise_cons, List.pairwise_cons] at rising
  obtain ⟨first, ⟨here, there, last⟩, between⟩ := rising
  refine ⟨(List.Perm.append_left front (List.Perm.swap x y back)).trans arranged.perm, ?_⟩
  rw [List.pairwise_append, List.pairwise_cons, List.pairwise_cons]
  refine ⟨first, ⟨?_, fun z member => here z (List.mem_cons_of_mem _ member), last⟩, ?_⟩
  · intro z member
    rcases List.mem_cons.mp member with rfl | behind
    · exact ties.2
    · exact there z behind
  · intro w member z member'
    apply between w member z
    rcases List.mem_cons.mp member' with rfl | rest
    · exact List.mem_cons_of_mem _ List.mem_cons_self
    · rcases List.mem_cons.mp rest with rfl | behind
      · exact List.mem_cons_self
      · exact List.mem_cons_of_mem _ (List.mem_cons_of_mem _ behind)

/-- Pages that each come from an arrangement of their own. -/
def pages (choice : Nat → List α) (n limit m : Nat) : List α := (List.range m).flatMap fun k => page (choice k) (k * n) limit

theorem pages_perm_of_apart (distinct : items.Nodup) (positive : 0 < n) (enough : items.length ≤ m * n)
    (apart : Apart r items n) {choice : Nat → List α} (arranged : ∀ k, Arranged r items (choice k)) :
    (pages choice n n m).Perm items := by
  have inside {k : Nat} {x : α} : x ∈ page (choice k) (k * n) n ↔ x ∈ items ∧ before r items x / n = k := by
    rw [mem_page]
    constructor
    · rintro ⟨i, low, high, at_⟩
      refine ⟨(arranged k).perm.mem_iff.mp (List.mem_of_getElem? at_), ?_⟩
      rw [← (arranged k).page_of_apart apart at_]
      exact Nat.div_eq_of_lt_le low (by rw [Nat.succ_mul]; exact high)
    · rintro ⟨member, same⟩
      obtain ⟨i, at_⟩ := List.mem_iff_getElem?.mp ((arranged k).perm.mem_iff.mpr member)
      rw [← (arranged k).page_of_apart apart at_] at same
      have whole := Nat.div_add_mod i n
      have rest := Nat.mod_lt i positive
      rw [same, Nat.mul_comm] at whole
      exact ⟨i, by omega, by omega, at_⟩
  apply (List.perm_ext_iff_of_nodup ?_ distinct).mpr
  · intro x
    rw [pages, List.mem_flatMap]
    constructor
    · rintro ⟨k, -, member⟩
      exact (inside.mp member).1
    · intro member
      refine ⟨before r items x / n, ?_, inside.mpr ⟨member, rfl⟩⟩
      rw [List.mem_range]
      apply (Nat.div_lt_iff_lt_mul positive).mpr
      have self : 0 < tied r items x := List.countP_pos_iff.mpr ⟨x, member, by simp [Ranking.ties, r.refl]⟩
      have few : before r items x + tied r items x ≤ items.length := by
        rw [before_add_tied]
        exact List.countP_le_length
      omega
  · apply List.nodup_flatMap.mpr
    refine ⟨fun k _ => nodup_page ((arranged k).perm.nodup_iff.mpr distinct) _ _, ?_⟩
    apply List.nodup_range.imp_of_mem
    intro k k' _ _ other x member member'
    exact other ((inside.mp member).2.symm.trans (inside.mp member').2)

theorem not_perm_of_twice (distinct : items.Nodup) {choice : Nat → List α} {x : α} {k k' : Nat} (other : k ≠ k')
    (inside : k < m) (inside' : k' < m) (here : x ∈ page (choice k) (k * n) limit) (there : x ∈ page (choice k') (k' * n) limit) :
    ¬ (pages choice n limit m).Perm items := by
  intro perm
  have nodup := perm.nodup_iff.mpr distinct
  obtain ⟨-, disjoint⟩ := List.nodup_flatMap.mp nodup
  have apart := List.pairwise_iff_getElem.mp disjoint
  rcases Nat.lt_or_gt_of_ne other with less | more
  · have pair := apart k k' (by simpa using inside) (by simpa using inside') less
    simp only [List.getElem_range] at pair
    exact pair here there
  · have pair := apart k' k (by simpa using inside') (by simpa using inside) more
    simp only [List.getElem_range] at pair
    exact pair there here

/-- Items that tie across a page boundary can be listed twice. -/
theorem exists_torn (distinct : items.Nodup) (positive : 0 < n) (enough : items.length ≤ m * n) {x : α} {k : Nat}
    (low : before r items x < k * n) (high : k * n < before r items x + tied r items x) :
    ∃ choice : Nat → List α, (∀ k, Arranged r items (choice k)) ∧ ¬ (pages choice n n m).Perm items := by
  obtain ⟨arr, arranged⟩ := exists_arranged r items
  have few : before r items x + tied r items x ≤ items.length := by
    rw [before_add_tied]
    exact List.countP_le_length
  have length := arranged.perm.length_eq
  obtain ⟨b, boundary⟩ : ∃ b, k * n = b + 1 := ⟨k * n - 1, by omega⟩
  have left : arr[b]? = some arr[b] := List.getElem?_eq_getElem (by omega)
  have right : arr[b + 1]? = some arr[b + 1] := List.getElem?_eq_getElem (by omega)
  have ties := arranged.ties_of_between (x := x) left (by omega) (by omega)
  have ties' := arranged.ties_of_between (x := x) right (by omega) (by omega)
  simp only [Ranking.ties, Bool.and_eq_true] at ties ties'
  have neighbours : r.ties arr[b] arr[b + 1] = true := by
    simp only [Ranking.ties, Bool.and_eq_true]
    exact ⟨r.trans _ x _ ties.1 ties'.2, r.trans _ x _ ties'.1 ties.2⟩
  have split : arr = arr.take b ++ arr[b] :: arr[b + 1] :: arr.drop (b + 2) := by
    rw [List.getElem_cons_drop, List.getElem_cons_drop, List.take_append_drop]
  have swapped := (split ▸ arranged : Arranged r items (arr.take b ++ arr[b] :: arr[b + 1] :: arr.drop (b + 2))).swap neighbours
  have long : (arr.take b).length = b := by
    rw [List.length_take]
    omega
  have moved : (arr.take b ++ arr[b + 1] :: arr[b] :: arr.drop (b + 2))[b + 1]? = some arr[b] := by
    rw [List.getElem?_append_right (by omega), long, Nat.add_sub_cancel_left]
    rfl
  generalize arr.take b ++ arr[b + 1] :: arr[b] :: arr.drop (b + 2) = other at *
  cases k with
  | zero => omega
  | succ k =>
    have step : (k + 1) * n = k * n + n := Nat.succ_mul k n
    have inside : k + 1 < m := Nat.lt_of_mul_lt_mul_right (a := n) (by omega)
    refine ⟨fun j => if j = k + 1 then other else arr, fun j => ?_, ?_⟩
    · dsimp only
      split
      · exact swapped
      · exact arranged
    · apply not_perm_of_twice distinct (by omega : k ≠ k + 1) (by omega) inside (x := arr[b])
      · rw [if_neg (by omega), mem_page]
        exact ⟨b, by omega, by omega, left⟩
      · rw [if_pos rfl, mem_page]
        exact ⟨b + 1, by omega, by omega, moved⟩

theorem apart_of_strict (distinct : items.Nodup) (strict : ∀ x y, r.ties x y = true → x = y) (n : Nat) : Apart r items n := by
  intro x member k torn
  have alone : tied r items x ≤ 1 := by
    have same : items.filter (fun y => r.ties y x) = List.replicate (tied r items x) x := by
      rw [tied, List.countP_eq_length_filter]
      apply List.eq_replicate_of_mem
      intro y there
      have ties := (List.mem_filter.mp there).2
      exact strict y x ties
    have nodup := distinct.filter fun y => r.ties y x
    rw [same] at nodup
    exact List.nodup_replicate.mp nodup
  omega

theorem page_of_short {arr : List α} (short : arr.length ≤ limit) (less : limit ≤ n) (k : Nat) :
    page arr (k * n) limit = page arr (k * n) n := by
  have fewer : (arr.drop (k * n)).length ≤ arr.length := by
    rw [List.length_drop]
    omega
  rw [page, page, List.take_of_length_le (by omega), List.take_of_length_le (by omega)]

theorem not_perm_of_gap (less : limit < n) (long : limit < items.length) {arr : List α} (distinct : items.Nodup)
    (arranged : Arranged r items arr) : ¬ (pages (fun _ => arr) n limit m).Perm items := by
  intro perm
  have inside : limit < arr.length := by
    rw [arranged.perm.length_eq]
    exact long
  have member := perm.mem_iff.mpr (arranged.perm.mem_iff.mp (List.getElem_mem inside))
  obtain ⟨k, -, there⟩ := List.mem_flatMap.mp member
  obtain ⟨i, low, high, at_⟩ := mem_page.mp there
  have nodup := arranged.perm.nodup_iff.mpr distinct
  have same : i = limit := by
    obtain ⟨bound, equal⟩ := List.getElem?_eq_some_iff.mp at_
    exact (List.Nodup.getElem_inj_iff nodup).mp equal
  cases k with
  | zero => omega
  | succ k =>
    have step : (k + 1) * n = k * n + n := Nat.succ_mul k n
    omega

/-- Pages list every item once, however items that tie are arranged, if none are torn apart and no gaps are left. -/
theorem pages_perm_iff (distinct : items.Nodup) (positive : 0 < limit) (less : limit ≤ n) (enough : items.length ≤ m * n) :
    (∀ choice : Nat → List α, (∀ k, Arranged r items (choice k)) → (pages choice n limit m).Perm items) ↔
      (limit = n ∨ items.length ≤ limit) ∧ Apart r items n := by
  have whole (short : limit = n ∨ items.length ≤ limit) {choice : Nat → List α} (arranged : ∀ k, Arranged r items (choice k)) :
      pages choice n limit m = pages choice n n m := by
    rcases short with rfl | short
    · rfl
    · apply List.flatMap_congr
      intro k _
      exact page_of_short (by rw [(arranged k).perm.length_eq]; exact short) less k
  constructor
  · intro every
    have short : limit = n ∨ items.length ≤ limit := by
      by_contra gap
      rw [not_or] at gap
      obtain ⟨arr, arranged⟩ := exists_arranged r items
      exact not_perm_of_gap (by omega) (by omega) distinct arranged (every (fun _ => arr) fun _ => arranged)
    refine ⟨short, fun x _ k torn => ?_⟩
    obtain ⟨choice, arranged, twice⟩ := exists_torn distinct (by omega) enough torn.1 torn.2
    rw [← whole short arranged] at twice
    exact twice (every choice arranged)
  · rintro ⟨short, apart⟩ choice arranged
    rw [whole short arranged]
    exact pages_perm_of_apart distinct (by omega) enough apart arranged

end Paging

end Lists
