import Mailgw.Dsn.Build
import Mailgw.Text.Multipart
import Mailgw.Text.Utf8

namespace Mailgw.Dsn

open Deliver Text

section Encoding
variable {c d : Char} {b : UInt8} {s l boundary : Chars}

theorem encode_append (s t : Chars) : encode (s ++ t) = encode s ++ encode t := List.flatMap_append

theorem messageLines_encode (s : Chars) : messageLines (encode s) = (rows '\r' '\n' s).map encode :=
  rows_flatMap (f := String.utf8EncodeChar) rfl rfl (fun _ => String.utf8EncodeChar_ne_nil)
    (fun _ => ⟨fun other member => other (eq_of_mem_utf8 rfl (by decide) member),
      fun other member => other (eq_of_mem_utf8 rfl (by decide) member)⟩) s

theorem encode_ne_nil (some : l ≠ []) : encode l ≠ [] := by
  obtain ⟨c, rest, rfl⟩ := List.exists_cons_of_ne_nil some
  simp [encode, String.utf8EncodeChar_ne_nil]

theorem LF_not_mem_encode (plain : OneLine l) : LF ∉ encode l := by
  intro member
  obtain ⟨c, here, member⟩ := List.mem_flatMap.mp member
  rw [eq_of_mem_utf8 (d := '\n') rfl (by decide) member] at here
  exact plain.2 here

theorem head?_of_delimits {boundary : Bytes} (delimits : Delimits boundary (encode l)) : l.head? = some '-' := by
  cases l with
  | nil => exact absurd rfl delimits.ne_nil
  | cons c rest =>
    obtain ⟨first, more, split⟩ := List.exists_cons_of_ne_nil (String.utf8EncodeChar_ne_nil (c := c))
    have whole : encode (c :: rest) = first :: (more ++ encode rest) := by simp [encode, split]
    have dash : (45 : UInt8) = first := by
      rw [whole] at delimits
      exact (List.cons_prefix_cons.mp delimits).1
    have member : (45 : UInt8) ∈ String.utf8EncodeChar c := by
      rw [split, dash]
      exact List.mem_cons_self
    rw [eq_of_mem_utf8 (d := '-') rfl (by decide) member]
    rfl

end Encoding

def ended (ls : List Chars) : Chars := ls.flatMap (· ++ crlf)

def Made (kind : Chars → Prop) (s : Chars) : Prop := ∃ ls, s = ended ls ∧ ∀ l ∈ ls, OneLine l ∧ kind l

def Inner (l : Chars) : Prop := l ≠ [] ∧ l.head? ≠ some '-'

section Made
variable {kind other : Chars → Prop} {s t l name value : Chars} {ls ms : List Chars} {α : Type}

theorem ended_append (ls ms : List Chars) : ended (ls ++ ms) = ended ls ++ ended ms := List.flatMap_append

theorem encode_ended (ls : List Chars) : encode (ended ls) = (ls.map encode).flatMap (· ++ [CR, LF]) := by
  induction ls with
  | nil => rfl
  | cons l ls ih =>
    rw [ended, List.flatMap_cons, encode_append, encode_append, List.map_cons, List.flatMap_cons, ← ih]
    rfl

theorem messageLines_ended (plain : ∀ l ∈ ls, OneLine l) (s : Bytes) :
    messageLines (encode (ended ls) ++ s) = ls.map encode ++ messageLines s := by
  rw [encode_ended]
  apply rows_ended (by decide)
  intro row member
  obtain ⟨l, here, rfl⟩ := List.mem_map.mp member
  exact LF_not_mem_encode (plain l here)

theorem Made.nil : Made kind [] := ⟨[], rfl, by simp⟩

theorem Made.append (left : Made kind s) (right : Made kind t) : Made kind (s ++ t) := by
  obtain ⟨ls, rfl, lines⟩ := left
  obtain ⟨ms, rfl, lines'⟩ := right
  refine ⟨ls ++ ms, (ended_append ls ms).symm, fun l member => ?_⟩
  rcases List.mem_append.mp member with here | here
  · exact lines l here
  · exact lines' l here

theorem Made.line (plain : OneLine l) (is : kind l) : Made kind (l ++ crlf) :=
  ⟨[l], by simp [ended], fun _ member => List.mem_singleton.mp member ▸ ⟨plain, is⟩⟩

theorem Made.ite {p : Prop} [Decidable p] (made : Made kind s) : Made kind (if p then s else []) := by
  split
  · exact made
  · exact Made.nil

theorem Made.flatMap {xs : List α} {f : α → Chars} (made : ∀ x ∈ xs, Made kind (f x)) : Made kind (xs.flatMap f) := by
  induction xs with
  | nil => exact Made.nil
  | cons x xs ih =>
    exact (made x List.mem_cons_self).append (ih fun y member => made y (List.mem_cons_of_mem x member))

theorem Made.mono (made : Made kind s) (weaker : ∀ l, kind l → other l) : Made other s := by
  obtain ⟨ls, same, lines⟩ := made
  exact ⟨ls, same, fun l member => ⟨(lines l member).1, weaker l (lines l member).2⟩⟩

theorem oneLine_clean (s : Chars) : OneLine (clean s) := by
  simp only [OneLine, clean, List.mem_map, not_exists, not_and]
  constructor
  · intro c _ same
    split at same
    · exact absurd same (by decide)
    · rename_i other
      exact other (.inl same)
  · intro c _ same
    split at same
    · exact absurd same (by decide)
    · rename_i other
      exact other (.inr same)

theorem clean_of_oneLine (plain : OneLine s) : clean s = s := by
  have same : ∀ c ∈ s, (if c = '\r' ∨ c = '\n' then ' ' else c) = c := by
    intro c member
    rw [if_neg]
    rintro (rfl | rfl)
    · exact plain.1 member
    · exact plain.2 member
  exact (List.map_congr_left same).trans (List.map_id s)

theorem intercalate_folds (pre first : Chars) (more : List Chars) :
    pre ++ "\r\n\t".toList.intercalate (first :: more) ++ crlf = ended ((pre ++ first) :: more.map ('\t' :: ·)) := by
  induction more generalizing pre first with
  | nil => simp [List.intercalate, ended]
  | cons next more ih =>
    have split : "\r\n\t".toList.intercalate (first :: next :: more) =
        first ++ crlf ++ ('\t' :: "\r\n\t".toList.intercalate (next :: more)) := by
      simp [List.intercalate, crlf]
    have later := ih ['\t'] next
    rw [List.singleton_append, List.singleton_append] at later
    rw [split, ended, List.flatMap_cons, List.map_cons, ← ended, ← later]
    simp

theorem foldedLines_ne_nil (value : Chars) : foldedLines value ≠ [] := by
  fun_cases foldedLines value with
  | case1 => simp
  | case2 rest => simp
  | case3 c rest => cases foldedLines rest <;> simp [consFirst]

theorem header_made (dash : name.head? ≠ some '-') : Made Inner (header name value) := by
  obtain ⟨first, more, split⟩ := List.exists_cons_of_ne_nil (foldedLines_ne_nil value)
  refine ⟨_, by rw [header, split, List.map_cons, intercalate_folds], ?_⟩
  intro l member
  rcases List.mem_cons.mp member with rfl | later
  · refine ⟨by simp [oneLine_clean], by simp, ?_⟩
    cases name with
    | nil => simp [clean]
    | cons c name =>
      simp only [clean, List.map_cons, List.cons_append, List.head?_cons]
      split
      · decide
      · simpa using dash
  · obtain ⟨fold, here, rfl⟩ := List.mem_map.mp later
    obtain ⟨part, _, rfl⟩ := List.mem_map.mp here
    exact ⟨by simp [oneLine_clean], by simp, by simp⟩

theorem foldedLines_of_oneLine (plain : OneLine value) : foldedLines value = [value] := by
  fun_induction foldedLines value with
  | case1 => rfl
  | case2 rest ih => exact absurd rfl (oneLine_cons.mp plain).1.1
  | case3 c rest _ ih =>
    rw [ih (oneLine_cons.mp plain).2]
    rfl

theorem header_of_oneLine (named : OneLine name) (plain : OneLine value) :
    header name value = name ++ ": ".toList ++ value ++ crlf := by
  rw [header, foldedLines_of_oneLine plain, clean_of_oneLine named, List.map_singleton, clean_of_oneLine plain]
  simp [List.intercalate]

end Made

end Mailgw.Dsn
