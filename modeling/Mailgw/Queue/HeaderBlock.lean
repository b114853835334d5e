import Mailgw.Queue.Bounce
import Mailgw.Text.Lines
import Mailgw.Text.Letters

namespace Mailgw.Queue

open Deliver (Bytes Reader)
open Text

def blank (line : Bytes) : Bool := line = CRLF || line = [LF]

def throughBlank : List Bytes → List Bytes
  | [] => []
  | line :: rest => if blank line then [line] else line :: throughBlank rest

def EndsBlank (s : Bytes) : Prop := ∃ before line, s = before ++ line ∧ EndsLine LF before ∧ blank line = true

section Blank
variable {s t line : Bytes}

theorem blank_iff : blank line = true ↔ line = CRLF ∨ line = [LF] := by
  rw [blank, Bool.or_eq_true, decide_eq_true_iff, decide_eq_true_iff]

theorem endsLine_of_blank (blank : blank line = true) : EndsLine LF (s ++ line) := by
  rcases blank_iff.mp blank with rfl | rfl
  · exact .inr ⟨s ++ [CR], by simp [CRLF]⟩
  · exact endsLine_append_eol

theorem lines_blank (blank : blank line = true) : lines LF line = [line] := by
  rcases blank_iff.mp blank with rfl | rfl <;> rfl

theorem throughBlank_cases (all : List Bytes) :
    (throughBlank all = all ∧ ∀ line ∈ all, blank line = false) ∨
      ∃ before line rest, all = before ++ line :: rest ∧ throughBlank all = before ++ [line] ∧ blank line = true ∧
        ∀ line ∈ before, blank line = false := by
  induction all with
  | nil => exact .inl ⟨rfl, by simp⟩
  | cons line rest ih =>
    cases here : blank line with
    | true => exact .inr ⟨[], line, rest, rfl, by simp [throughBlank, here], here, by simp⟩
    | false =>
      have steps : throughBlank (line :: rest) = line :: throughBlank rest := by simp [throughBlank, here]
      rcases ih with ⟨whole, none⟩ | ⟨before, line', rest', split, through, blank, none⟩
      · exact .inl ⟨by rw [steps, whole], List.forall_mem_cons.mpr ⟨here, none⟩⟩
      · refine .inr ⟨line :: before, line', rest', by rw [split]; rfl, by rw [steps, through]; rfl, blank, ?_⟩
        exact List.forall_mem_cons.mpr ⟨here, none⟩

theorem headerLines_eq (plain : LF ∉ line) (s : Bytes) : headerLines line s = (throughBlank (lines LF (line ++ s))).flatten := by
  induction s generalizing line with
  | nil =>
    rw [List.append_nil, headerLines]
    by_cases none : line = []
    · rw [none]
      rfl
    · rw [lines_of_not_mem plain none, throughBlank]
      split
      · simp
      · simp [throughBlank]
  | cons b rest ih =>
    unfold headerLines
    dsimp only
    by_cases last : b = LF
    · have ends : b = 10 := last
      rw [last, lines_append_line plain, throughBlank]
      have later : headerLines [] rest = (throughBlank (lines LF ([] ++ rest))).flatten := ih (by simp)
      rw [List.nil_append] at later
      by_cases here : blank (line ++ [LF]) = true
      · have short : line ++ [LF] = [13, 10] ∨ line ++ [LF] = [10] := blank_iff.mp here
        rw [if_pos (show LF = 10 from rfl), if_pos short, if_pos here]
        simp
      · have long : ¬ (line ++ [LF] = [13, 10] ∨ line ++ [LF] = [10]) := fun short => here (blank_iff.mpr short)
        rw [if_pos (show LF = 10 from rfl), if_neg long, if_neg here, later]
        simp
    · rw [if_neg (show ¬ b = 10 from last), ih (by simp [plain, Ne.symm last])]
      simp

theorem headerLines_prefix (s : Bytes) : headerLines [] s <+: s := by
  rw [headerLines_eq (by simp), List.nil_append]
  rcases throughBlank_cases (lines LF s) with ⟨whole, _⟩ | ⟨before, line, rest, cut, through, _⟩
  · rw [whole, flatten_lines]
  · refine ⟨rest.flatten, ?_⟩
    have all := flatten_lines LF s
    rw [cut] at all
    rw [through]
    simpa using all

theorem headerLines_cases (s : Bytes) : EndsBlank (headerLines [] s) ∨ headerLines [] s = s := by
  rw [headerLines_eq (by simp), List.nil_append]
  rcases throughBlank_cases (lines LF s) with ⟨whole, _⟩ | ⟨before, line, rest, cut, through, blank, _⟩
  · right
    rw [whole, flatten_lines]
  · left
    refine ⟨before.flatten, line, ?_, endsLine_flatten_of_lines cut, blank⟩
    rw [through]
    simp

theorem headerLines_first (part : t <+: s) (ends : EndsBlank t) : headerLines [] s <+: t := by
  obtain ⟨before, line, rfl, ended, last⟩ := ends
  obtain ⟨rest, whole⟩ := part
  have cut : lines LF s = lines LF before ++ line :: lines LF rest := by
    rw [← whole, lines_append (endsLine_of_blank last), lines_append ended, lines_blank last]
    simp
  rw [headerLines_eq (by simp), List.nil_append]
  rcases throughBlank_cases (lines LF s) with ⟨_, none⟩ | ⟨before', line', rest', cut', through, _, none⟩
  · have member : line ∈ lines LF s := by
      rw [cut]
      simp
    rw [none line member] at last
    cases last
  · have shorter : ∃ more, lines LF before ++ [line] = before' ++ [line'] ++ more := by
      rcases List.append_eq_append_iff.mp (cut'.symm.trans cut) with ⟨between, here, there⟩ | ⟨between, here, there⟩
      · cases between with
        | nil =>
          obtain ⟨rfl, _⟩ := List.cons.inj there
          exact ⟨[], by simp [here]⟩
        | cons first between =>
          obtain ⟨rfl, _⟩ := List.cons.inj (there.trans (List.cons_append ..))
          exact ⟨between ++ [line], by simp [here]⟩
      · cases between with
        | nil =>
          obtain ⟨rfl, _⟩ := List.cons.inj there
          exact ⟨[], by simp [here]⟩
        | cons first between =>
          obtain ⟨rfl, _⟩ := List.cons.inj (there.trans (List.cons_append ..))
          rw [none line (by simp [here])] at last
          cases last
    obtain ⟨more, shorter⟩ := shorter
    refine ⟨more.flatten, ?_⟩
    have flat := congrArg List.flatten shorter
    rw [List.flatten_append, flatten_lines, List.flatten_append] at flat
    rw [through, ← flat]
    simp

end Blank

end Mailgw.Queue
