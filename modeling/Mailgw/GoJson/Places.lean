import Mailgw.GoJson.Written
import Mailgw.Lists.Ranked
import Mailgw.Text.Transcode
import Mathlib.Data.Char
import Mathlib.Data.List.Lex

namespace GoJson

open Json Text

abbrev Place := List Nat

namespace Raw

def stringAt : Place → Raw → Option Literal
  | [], .str s => some s
  | i :: p, .arr vs => vs[i]?.bind (stringAt p)
  | i :: p, .obj ms => ms[i]?.bind fun m => stringAt p m.2
  | _, _ => none

def replace (s : Literal) : Place → Raw → Raw
  | [], .str _ => .str s
  | i :: p, .arr vs => .arr (vs.modify i (replace s p))
  | i :: p, .obj ms => .obj (ms.modify i fun m => (m.1, replace s p m.2))
  | _, v => v

end Raw

section Bodies
variable {x y : Bytes}

theorem isBody_plain (plain : ∀ b ∈ x, b ≠ backslash ∧ b ≠ quoteByte ∧ 0x20 ≤ b) : isBody x = true := by
  induction x with
  | nil => rfl
  | cons b x ih =>
    obtain ⟨⟨other, quote, large⟩, rest⟩ := List.forall_mem_cons.mp plain
    rw [isBody.eq_def]
    dsimp only
    rw [if_neg other]
    simp [quote, large, ih rest]

theorem isBody_append (front : isBody x = true) (back : isBody y = true) : isBody (x ++ y) = true := by
  induction x using isBody.induct with
  | case1 => exact back
  | case2 h i j k x ih =>
    rw [isBody, if_pos rfl] at front
    simp only [Bool.and_eq_true] at front
    simp only [List.cons_append]
    rw [isBody, if_pos rfl]
    simp only [front.1, ih front.2, Bool.and_self]
  | case3 e x other ih =>
    have step (body : Bytes) (apart : ∀ h i j k rest, e = 0x75 → body = h :: i :: j :: k :: rest → False) :
        isBody (backslash :: e :: body) = ((escaped (byteChar e)).isSome && isBody body) := by
      rw [isBody.eq_def]
      dsimp only
      rw [if_pos rfl]
      split
      · rename_i h i j k rest same
        obtain ⟨same, same'⟩ := List.cons.inj same
        exact (apart h i j k rest same same').elim
      · rename_i same
        obtain ⟨rfl, rfl⟩ := List.cons.inj same
        rfl
      · rename_i empty
        cases empty
    rw [step x other] at front
    obtain ⟨known, front⟩ := Bool.and_eq_true_iff.mp front
    have letter : e ≠ 0x75 := by
      rintro rfl
      exact absurd known (by decide)
    rw [List.cons_append, List.cons_append, step _ fun _ _ _ _ _ same => (letter same).elim, known, ih front]
    rfl
  | case4 => cases front
  | case5 b x other ih =>
    rw [isBody.eq_def] at front
    dsimp only at front
    rw [if_neg other] at front
    obtain ⟨plain, front⟩ := Bool.and_eq_true_iff.mp front
    rw [List.cons_append, isBody.eq_def]
    dsimp only
    rw [if_neg other, plain, ih front]
    rfl

theorem isBody_escape (c : Char) : isBody (utf8 (escape c)) = true := by
  have small : ∀ n : Fin 32, isBody (utf8 (escape (Char.ofNat n))) = true := by decide
  by_cases low : c.toNat < 32
  · rw [← Char.ofNat_toNat c]
    exact small ⟨c.toNat, low⟩
  by_cases quote : c = '"'
  · rw [quote]
    decide
  by_cases slash : c = '\\'
  · rw [slash]
    decide
  have alone : escape c = [c] := by
    unfold escape
    rw [if_neg quote, if_neg slash, if_neg (by omega), if_neg (by omega), if_neg (by omega), if_neg (by omega),
      if_neg (by omega), if_neg low]
  rw [alone, utf8, List.flatMap_singleton]
  apply isBody_plain
  intro b member
  by_cases ascii : b.toNat < 128
  · have code := toNat_of_mem_utf8 ascii member
    refine ⟨fun same => slash ?_, fun same => quote ?_, ?_⟩
    · exact Char.toNat_inj.mp (code.trans (congrArg UInt8.toNat same))
    · exact Char.toNat_inj.mp (code.trans (congrArg UInt8.toNat same))
    · exact UInt8.le_iff_toNat_le.mpr (by change 32 ≤ b.toNat; omega)
  · have large : 0x20 ≤ b := UInt8.le_iff_toNat_le.mpr (by change 32 ≤ b.toNat; omega)
    refine ⟨?_, ?_, large⟩
    · rintro rfl
      exact ascii (by decide)
    · rintro rfl
      exact ascii (by decide)

theorem isBody_utf8 (k : Chars) : isBody (utf8 (k.flatMap escape)) = true := by
  induction k with
  | nil => rfl
  | cons c k ih =>
    have split : utf8 ((c :: k).flatMap escape) = utf8 (escape c) ++ utf8 (k.flatMap escape) := by
      rw [List.flatMap_cons, utf8, List.flatMap_append]
      rfl
    rw [split]
    exact isBody_append (isBody_escape c) ih

end Bodies

section Maps

def keyLiteral (k : Chars) : Literal := ⟨utf8 (k.flatMap escape), isBody_utf8 k⟩

def keysOf (ms : Members) : List Chars := ms.map fun m => m.1.key

def valueOf (ms : Members) (k : Chars) : Option Raw := (ms.reverse.find? fun m => m.1.key = k).map Prod.snd

/-- An object that was a map. Its keys are in order, and what they hold may be something else now. -/
def rebuild (f : Chars → Raw → Raw) (ms : Members) : Raw :=
  .obj ((Lists.ranked id (keysOf ms).dedup).filterMap fun k => (valueOf ms k).map fun v => (keyLiteral k, f k v))

theorem valueOf_append (front back : Members) (m : Literal × Raw) (k : Chars) :
    valueOf (front ++ m :: back) k =
      ((valueOf back k).or (if m.1.key = k then some m.2 else valueOf front k)) := by
  rw [valueOf, List.reverse_append, List.reverse_cons, List.find?_append, List.find?_append, Option.map_or, Option.map_or,
    Option.or_assoc]
  congr 1
  by_cases same : m.1.key = k
  · simp [same]
  · simp [same, valueOf]

theorem valueOf_eq_none {ms : Members} {k : Chars} : valueOf ms k = none ↔ k ∉ keysOf ms := by
  simp [valueOf, keysOf, List.find?_eq_none]

end Maps

section Replacing
variable {α : Type} {l : List α} {i : Nat} {x : α}

theorem split_at (here : l[i]? = some x) : l = l.take i ++ x :: l.drop (i + 1) := by
  obtain ⟨bound, rfl⟩ := List.getElem?_eq_some_iff.mp here
  rw [List.getElem_cons_drop bound, List.take_append_drop]

theorem modify_at (here : l[i]? = some x) (f : α → α) : l.modify i f = l.take i ++ f x :: l.drop (i + 1) := by
  obtain ⟨bound, rfl⟩ := List.getElem?_eq_some_iff.mp here
  exact List.modify_eq_take_cons_drop bound

theorem modify_none (gone : l[i]? = none) (f : α → α) : l.modify i f = l :=
  List.modify_eq_self (List.getElem?_eq_none_iff.mp gone)

theorem all_modify {l : List α} {q : α → Bool} {f : α → α} (same : ∀ x, q (f x) = q x) (i : Nat) : (l.modify i f).all q = l.all q := by
  cases here : l[i]? with
  | none => rw [modify_none here]
  | some x =>
    rw [modify_at here]
    conv_rhs => rw [split_at here]
    simp [same]

end Replacing

theorem depth_replace (v : Raw) (p : Place) (s : Literal) : (v.replace s p).depth = v.depth := by
  have elements (f : Raw → Raw) (same : ∀ w, (f w).depth = w.depth) (i : Nat) (vs : List Raw) :
      deepestElement (vs.modify i f) = deepestElement vs := by
    induction vs generalizing i with
    | nil => cases i <;> rfl
    | cons w vs ih =>
      cases i with
      | zero => simp [deepestElement, same]
      | succ i => simp [deepestElement, ih]
  have members (f : Raw → Raw) (same : ∀ w, (f w).depth = w.depth) (i : Nat) (ms : Members) :
      deepestMember (ms.modify i fun m => (m.1, f m.2)) = deepestMember ms := by
    induction ms generalizing i with
    | nil => cases i <;> rfl
    | cons m ms ih =>
      cases i with
      | zero => simp [deepestMember, same]
      | succ i => simp [deepestMember, ih]
  induction p generalizing v with
  | nil => cases v <;> rfl
  | cons i p ih =>
    cases v with
    | arr vs => simp only [Raw.replace, Raw.depth, elements _ ih i vs]
    | obj ms => simp only [Raw.replace, Raw.depth, members _ ih i ms]
    | null => rfl
    | bool b => rfl
    | num text => rfl
    | str t => rfl

end GoJson
