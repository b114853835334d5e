import Mathlib.Data.Char
import Mathlib.Data.List.Induction
import Mathlib.Data.List.Lex
import Mathlib.Data.List.Pairwise
import Mathlib.Data.List.Sort
import Mathlib.Order.Bounds.Defs
import Mailgw.Queue.Names
import Mailgw.Text.Decimal

namespace Mailgw.Queue

open Text

structure DirEntry where
  name : Name
  isDir : Bool
  deriving Repr, DecidableEq

def earlier (due : Int) : Option Int → Int
  | none => due
  | some earliest => if due < earliest then due else earliest

def second : Int := 1000000000

def unix (t : Int) : Int := t / second

def defaultPoll : Int := 5 * second

structure Poller where
  pollInterval : Int
  positive : 0 < pollInterval

def newRunner (configured : Int) : Poller :=
  if positive : 0 < configured then ⟨configured, positive⟩ else ⟨defaultPoll, by decide⟩

def DirEntry.due (ent : DirEntry) : Option Int := if ent.isDir then none else parseDue ent.name

def reached (t : Int) (entries : List DirEntry) : List Name :=
  (entries.filter fun ent => ent.due.any fun due => due ≤ unix t).map DirEntry.name

def ahead (t : Int) (entries : List DirEntry) : Set Int :=
  {due | unix t < due ∧ ∃ ent ∈ entries, ent.due = some due}

def Plus (name : Name) : Prop := name.head? = some '+'
def Minus (name : Name) : Prop := name.head? = some '-'

instance (name : Name) : Decidable (Plus name) := inferInstanceAs (Decidable (_ = _))

section Fold
variable {cutoff t : Int} {entries : List DirEntry} {l : Listing}

end Fold

section Sleep
variable {r : Poller} {now due : Int} {next : Option Int}

end Sleep

section Order
variable {a b : Name} {due due' : Int}

/-- The first twelve characters of a name that says when it is due. -/
def stamp (name : Name) : Name := name.take dueWidth

inductive Stamped : Name → Int → Prop where
  | plus {ds rest : Name} : (∀ c ∈ ds, c.isDigit = true) → ds.length = 11 →
      Stamped ('+' :: (ds ++ rest)) (Nat.ofDigitChars 10 ds 0 : Nat)
  | minus {ds rest : Name} : (∀ c ∈ ds, c.isDigit = true) → ds.length = 11 →
      Stamped ('-' :: (ds ++ rest)) (-(Nat.ofDigitChars 10 ds 0 : Nat))
  | plain {ds rest : Name} : (∀ c ∈ ds, c.isDigit = true) → ds.length = 12 →
      Stamped (ds ++ rest) (Nat.ofDigitChars 10 ds 0 : Nat)

theorem digit_lt {c d : Char} (digit : d.isDigit = true) (sign : c = '+' ∨ c = '-') : c < d := by
  simp only [Char.isDigit, Bool.and_eq_true, decide_eq_true_eq] at digit
  have low : 48 ≤ d.toNat := digit.1
  have high : c.toNat < 48 := by
    rcases sign with rfl | rfl <;> decide
  show c.toNat < d.toNat
  omega

theorem sign_lt {c : Char} {x ds rest : Name} (sign : c = '+' ∨ c = '-') (digits : ∀ d ∈ ds, d.isDigit = true)
    (full : ds.length = 12) : c :: x < ds ++ rest := by
  cases ds with
  | nil => cases full
  | cons d ds => exact List.cons_lt_cons_iff.mpr (.inl (digit_lt (digits d List.mem_cons_self) sign))

theorem head_ne_sign {c : Char} {ds rest : Name} (sign : c = '+' ∨ c = '-') (digits : ∀ d ∈ ds, d.isDigit = true)
    (full : ds.length = 12) : (ds ++ rest).head? ≠ some c := by
  intro begins
  obtain ⟨x, same⟩ := List.head?_eq_some_iff.mp begins
  have lower : c :: x < ds ++ rest := sign_lt sign digits full
  rw [same] at lower
  exact lt_irrefl _ lower

theorem plus_lt_minus (x y : Name) : '+' :: x < '-' :: y := List.cons_lt_cons_iff.mpr (.inl (by decide))

theorem tail_le {c : Char} {x y : Name} (order : c :: x ≤ c :: y) : x ≤ y := by
  by_contra above
  exact absurd order (not_le.mpr (List.cons_lt_cons_iff.mpr (.inr ⟨rfl, not_le.mp above⟩)))

theorem Stamped.le (stamped : Stamped a due) (stamped' : Stamped b due') (order : a ≤ b)
    (plus : Plus a → ¬ Plus b → due ≤ due') (minus : Minus a → Minus b → due ≤ due') : due ≤ due' := by
  cases stamped with
  | plus digits width =>
    cases stamped' with
    | plus digits' width' =>
      have lower := ofDigitChars_le digits digits' (width.trans width'.symm)
        (le_of_append_le (tail_le order) (width.trans width'.symm))
      omega
    | minus digits' width' => exact plus rfl (by simp [Plus])
    | plain digits' width' =>
      exact plus rfl (head_ne_sign (.inl rfl) digits' width')
  | minus digits width =>
    cases stamped' with
    | plus digits' width' => exact absurd order (not_le.mpr (plus_lt_minus _ _))
    | minus digits' width' => exact minus rfl rfl
    | plain digits' width' => omega
  | plain digits width =>
    cases stamped' with
    | plus digits' width' => exact absurd order (not_le.mpr (sign_lt (.inl rfl) digits width))
    | minus digits' width' => exact absurd order (not_le.mpr (sign_lt (.inr rfl) digits width))
    | plain digits' width' =>
      have lower := ofDigitChars_le digits digits' (width.trans width'.symm)
        (le_of_append_le order (width.trans width'.symm))
      omega

end Order

section Listing
variable {t : Int} {entries : List DirEntry}

end Listing

section Samples

def signed : List DirEntry :=
  [⟨"000000000001.a.json".toList, false⟩, ⟨"+00000000005.b.json".toList, false⟩]

end Samples

end Mailgw.Queue
