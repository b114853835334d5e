import Mathlib.Data.List.TakeWhile
import Mailgw.Proxyproto.Netip

namespace Mailgw.Proxyproto

open Bits Text
open Deliver (Bytes)

structure Hextet (t : Bytes) : Prop where
  some : t ≠ []
  short : t.length ≤ 4
  hex : ∀ b ∈ t, isHex b = true

def hextet (t : Bytes) : Bytes := toBE 2 (hexValue t)

/-- Groups with colons between them, the last two of which may be written as an IPv4 address. -/
inductive Groups : Bytes → Bytes → Prop where
  | last {t : Bytes} : Hextet t → Groups (hextet t) t
  | embedded {ip : Bytes} : ip.length = 4 → Groups ip (dotted ip)
  | cons {t ip rest : Bytes} : Hextet t → Groups ip rest → Groups (hextet t ++ ip) (t ++ COLON :: rest)

def Tail (ip rest : Bytes) : Prop := (ip = [] ∧ rest = []) ∨ Groups ip rest

inductive Elided : Bytes → Bytes → Bytes → Prop where
  | here {t right rest : Bytes} : Hextet t → Tail right rest → Elided (hextet t) right (t ++ COLON :: COLON :: rest)
  | cons {t left right rest : Bytes} : Hextet t → Elided left right rest →
      Elided (hextet t ++ left) right (t ++ COLON :: rest)

def zeros (n : Nat) : Bytes := List.replicate n 0

inductive V6Text : Bytes → Bytes → Prop where
  | full {ip s : Bytes} : Groups ip s → ip.length = 16 → V6Text ip s
  | leading {right rest : Bytes} : Tail right rest → right.length < 16 →
      V6Text (zeros (16 - right.length) ++ right) (COLON :: COLON :: rest)
  | elided {left right s : Bytes} : Elided left right s → left.length + right.length < 16 →
      V6Text (left ++ zeros (16 - (left.length + right.length)) ++ right) s

section Shapes
variable {ip left right rest s t : Bytes} {c : UInt8}

@[simp] theorem length_hextet (t : Bytes) : (hextet t).length = 2 := length_toBE 2 _

theorem isHex_of_isDigit (is_digit : isDigit c = true) : isHex c = true := by
  simp only [isDigit, Bool.and_eq_true, decide_eq_true_eq] at is_digit
  simp [isHex, hexDigit, is_digit]

theorem isHex_split (hex : ∀ b ∈ t, isHex b = true) (rest : Bytes) (stops : rest.head?.all (fun b => !isHex b) = true) :
    (t ++ rest).takeWhile isHex = t ∧ (t ++ rest).dropWhile isHex = rest := by
  have none : rest.takeWhile isHex = [] ∧ rest.dropWhile isHex = rest := by
    cases rest with
    | nil => exact ⟨rfl, rfl⟩
    | cons b rest =>
      have plain : isHex b = false := by simpa using stops
      simp [plain]
  rw [List.takeWhile_append_of_pos hex, List.dropWhile_append_of_pos hex, none.1, none.2, List.append_nil]
  exact ⟨rfl, rfl⟩

theorem dotted_split (four : ip.length = 4) :
    Hextet ((dotted ip).takeWhile isHex) ∧ ∃ rest, (dotted ip).dropWhile isHex = DOT :: rest := by
  obtain ⟨o, os, rfl⟩ := List.exists_cons_of_ne_nil (l := ip) (by rintro rfl; cases four)
  have some : os ≠ [] := by
    rintro rfl
    cases four
  have hex : ∀ b ∈ decimal o.toNat, isHex b = true := fun b member => isHex_of_isDigit (isDigit_of_mem_decimal member)
  obtain ⟨first, later⟩ := isHex_split hex (DOT :: dotted os) rfl
  rw [dotted_cons o some, first, later]
  have small : o.toNat < 10 ^ 3 := by
    have := o.toNat_lt
    omega
  have short := length_decimal small (by decide)
  exact ⟨⟨decimal_ne_nil _, by omega, hex⟩, dotted os, rfl⟩

theorem Groups.cases (groups : Groups ip s) :
    Hextet (s.takeWhile isHex) ∧
      ((s.dropWhile isHex = [] ∧ ip = hextet (s.takeWhile isHex)) ∨
        (∃ more rest, s.dropWhile isHex = COLON :: rest ∧ Groups more rest ∧ ip = hextet (s.takeWhile isHex) ++ more) ∨
        ∃ rest, s.dropWhile isHex = DOT :: rest ∧ ip.length = 4 ∧ s = dotted ip) := by
  cases groups with
  | last group =>
    obtain ⟨first, later⟩ := isHex_split group.hex [] rfl
    rw [List.append_nil] at first later
    rw [first, later]
    exact ⟨group, .inl ⟨rfl, rfl⟩⟩
  | embedded four =>
    obtain ⟨group, rest, later⟩ := dotted_split four
    exact ⟨group, .inr (.inr ⟨rest, later, four, rfl⟩)⟩
  | cons group more =>
    obtain ⟨first, later⟩ := isHex_split group.hex (COLON :: _) rfl
    rw [first, later]
    exact ⟨group, .inr (.inl ⟨_, _, rfl, more, rfl⟩)⟩

theorem Elided.cases (elided : Elided left right s) :
    Hextet (s.takeWhile isHex) ∧ ∃ rest, s.dropWhile isHex = COLON :: rest ∧
      ((∃ rest', rest = COLON :: rest' ∧ Tail right rest' ∧ left = hextet (s.takeWhile isHex)) ∨
        ∃ left', Elided left' right rest ∧ left = hextet (s.takeWhile isHex) ++ left') := by
  cases elided with
  | here group tail =>
    obtain ⟨first, later⟩ := isHex_split group.hex (COLON :: COLON :: _) rfl
    rw [first, later]
    exact ⟨group, _, rfl, .inl ⟨_, rfl, tail, rfl⟩⟩
  | cons group more =>
    obtain ⟨first, later⟩ := isHex_split group.hex (COLON :: _) rfl
    rw [first, later]
    exact ⟨group, _, rfl, .inr ⟨_, more, rfl⟩⟩

theorem Groups.length_ge (groups : Groups ip s) : 2 ≤ ip.length := by
  cases groups with
  | last _ => simp
  | embedded four => omega
  | cons _ _ => simp

theorem head_of_hextet (group : Hextet (s.takeWhile isHex)) : ∃ b rest, s = b :: rest ∧ isHex b = true := by
  cases s with
  | nil => exact absurd rfl group.some
  | cons b rest =>
    cases hex : isHex b with
    | true => exact ⟨b, rest, rfl, hex⟩
    | false => exact absurd (by simp [hex]) group.some

theorem not_colon_of_hextet (group : Hextet (s.takeWhile isHex)) (rest : Bytes) : s ≠ COLON :: rest := by
  rintro rfl
  obtain ⟨b, _, same, hex⟩ := head_of_hextet group
  rw [← (List.cons.inj same).1] at hex
  exact absurd hex (by decide)

theorem not_nil_of_hextet (group : Hextet (s.takeWhile isHex)) : s ≠ [] := by
  rintro rfl
  exact group.some rfl

theorem groups_dot_iff (later : s.dropWhile isHex = DOT :: rest) :
    Groups ip s ↔ parseIPv4Fields 0 0 [] s = some ip := by
  rw [parseIPv4Fields_eq_some]
  constructor
  · intro groups
    rcases groups.cases.2 with ⟨other, _⟩ | ⟨_, _, other, _⟩ | ⟨_, _, here⟩
    · rw [later] at other
      cases other
    · rw [later] at other
      exact absurd (List.cons.inj other).1 (by decide)
    · exact here
  · rintro ⟨four, rfl⟩
    exact .embedded four

theorem not_groups (later : s.dropWhile isHex = c :: rest) (dot : c ≠ DOT) (colon : c ≠ COLON) : ¬ Groups ip s := by
  intro groups
  rcases groups.cases.2 with ⟨other, _⟩ | ⟨_, _, other, _⟩ | ⟨_, other, _⟩ <;> rw [later] at other
  · cases other
  · exact colon (List.cons.inj other).1
  · exact dot (List.cons.inj other).1

section Next
variable (group : Hextet (s.takeWhile isHex))
include group

theorem groups_last_iff (later : s.dropWhile isHex = []) : Groups ip s ↔ ip = hextet (s.takeWhile isHex) := by
  have whole := List.takeWhile_append_dropWhile (p := isHex) (l := s)
  rw [later, List.append_nil] at whole
  constructor
  · intro groups
    rcases groups.cases.2 with ⟨_, same⟩ | ⟨_, _, other, _⟩ | ⟨_, other, _⟩
    · exact same
    · rw [later] at other
      cases other
    · rw [later] at other
      cases other
  · rintro rfl
    have last := Groups.last group
    rwa [whole] at last ⊢

theorem groups_colon_iff (later : s.dropWhile isHex = COLON :: rest) :
    Groups ip s ↔ ∃ more, Groups more rest ∧ ip = hextet (s.takeWhile isHex) ++ more := by
  have whole := List.takeWhile_append_dropWhile (p := isHex) (l := s)
  rw [later] at whole
  constructor
  · intro groups
    rcases groups.cases.2 with ⟨other, _⟩ | ⟨more, _, same, further, here⟩ | ⟨_, other, _⟩
    · rw [later] at other
      cases other
    · rw [later] at same
      cases same
      exact ⟨more, further, here⟩
    · rw [later] at other
      exact absurd (List.cons.inj other).1 (by decide)
  · rintro ⟨more, further, rfl⟩
    have next := Groups.cons group further
    rwa [whole] at next

theorem elided_iff (later : s.dropWhile isHex = COLON :: rest) :
    Elided left right s ↔ (∃ rest', rest = COLON :: rest' ∧ Tail right rest' ∧ left = hextet (s.takeWhile isHex)) ∨
      ∃ left', Elided left' right rest ∧ left = hextet (s.takeWhile isHex) ++ left' := by
  have whole := List.takeWhile_append_dropWhile (p := isHex) (l := s)
  rw [later] at whole
  constructor
  · intro elided
    obtain ⟨_, rest', same, further⟩ := elided.cases
    rw [later] at same
    cases same
    exact further
  · rintro (⟨rest', rfl, tail, rfl⟩ | ⟨left', further, rfl⟩)
    · have next := Elided.here group tail
      rwa [whole] at next
    · have next := Elided.cons group further
      rwa [whole] at next

end Next

theorem not_elided (other : (s.dropWhile isHex).head? ≠ some COLON) : ¬ Elided left right s := by
  intro elided
  obtain ⟨_, rest, later, _⟩ := elided.cases
  rw [later] at other
  exact other rfl

end Shapes

section Reading
variable {ip out s : Bytes} {rounds k : Nat}

def widen (k : Nat) (ip : Bytes) : Bytes := ip.take k ++ zeros (16 - ip.length) ++ ip.drop k

theorem expand_ellipsis (k : Nat) (ip : Bytes) :
    expand ⟨ip, some k, []⟩ = if ip.length < 16 then some (widen k ip) else none := by
  simp [expand, widen, zeros]

theorem expand_full (ip : Bytes) : expand ⟨ip, none, []⟩ = if ip.length < 16 then none else some ip := by
  simp [expand]

theorem expand_more (ip : Bytes) (e : Option Nat) {s : Bytes} (some : s ≠ []) : expand ⟨ip, e, s⟩ = none := by
  simp [expand, some]

theorem parseGroups_none {e : Option Nat} (group : ¬ Hextet (s.takeWhile isHex)) :
    parseGroups (rounds + 1) ⟨ip, e, s⟩ = none := by
  by_cases long : 4 < (s.takeWhile isHex).length
  · simp [parseGroups, long]
  · by_cases empty : s.takeWhile isHex = []
    · simp [parseGroups, empty]
    · exact absurd ⟨empty, by omega, fun b member => List.mem_takeWhile_imp member⟩ group

theorem parseGroups_after (counts : ip.length + 2 * rounds = 16) :
    (parseGroups rounds ⟨ip, some k, s⟩).bind expand = some out ↔
      ∃ right, Groups right s ∧ ip.length + right.length < 16 ∧ out = widen k (ip ++ right) := by
  induction rounds generalizing ip s with
  | zero =>
    have full : ip.length = 16 := by omega
    constructor
    · intro read
      simp only [parseGroups, Option.bind_some] at read
      by_cases none : s = []
      · rw [none, expand_ellipsis, if_neg (by omega)] at read
        cases read
      · rw [expand_more ip _ none] at read
        cases read
    · rintro ⟨right, _, short, _⟩
      omega
  | succ rounds ih =>
    by_cases group : Hextet (s.takeWhile isHex)
    · have long : ¬ 4 < (s.takeWhile isHex).length := by
        have := group.short
        omega
      simp only [parseGroups, if_neg long, if_neg group.some]
      cases later : s.dropWhile isHex with
      | nil =>
        simp only [groups_last_iff group later, Option.bind_some, expand_ellipsis, exists_eq_left, List.length_append,
          length_toBE, Option.ite_none_right_eq_some, Option.some.injEq, hextet, eq_comm (a := out)]
      | cons c rest =>
        dsimp only
        by_cases dot : c = DOT
        · subst dot
          simp only [groups_dot_iff later, if_true, reduceCtorEq, false_and, if_false]
          cases read : parseIPv4Fields 0 0 [] s with
          | none => simp
          | some fields =>
            have four := (parseIPv4Fields_eq_some.mp read).1
            by_cases room : 16 < ip.length + 4
            · simp [room, four]
              omega
            · simp only [if_neg room, Option.map_some, Option.bind_some, expand_ellipsis, Option.some.injEq,
                exists_eq_left', List.length_append, four, Option.ite_none_right_eq_some, eq_comm (a := out)]
        · by_cases colon : c = COLON
          · subst colon
            simp only [if_neg dot, ne_eq, not_true_eq_false, if_false, groups_colon_iff group later]
            cases rest with
            | nil =>
              constructor
              · intro read
                cases read
              · rintro ⟨_, ⟨more, groups, _⟩, _⟩
                exact absurd rfl (not_nil_of_hextet groups.cases.1)
            | cons d rest =>
              dsimp only
              by_cases twice : d = COLON
              · rw [if_neg (by simpa using twice), Option.isSome_some, if_pos rfl]
                constructor
                · intro read
                  cases read
                · rintro ⟨_, ⟨more, groups, _⟩, _⟩
                  exact absurd (by rw [twice]) (not_colon_of_hextet groups.cases.1 rest)
              · rw [if_pos twice, ih (by rw [List.length_append, length_toBE]; omega)]
                constructor
                · rintro ⟨more, groups, short, rfl⟩
                  exact ⟨_, ⟨more, groups, rfl⟩, by simpa [Nat.add_assoc] using short, by simp [hextet]⟩
                · rintro ⟨_, ⟨more, groups, rfl⟩, short, rfl⟩
                  exact ⟨more, groups, by simpa [Nat.add_assoc] using short, by simp [hextet]⟩
          · simp [dot, colon, not_groups later dot colon]
    · rw [parseGroups_none group]
      constructor
      · intro read
        cases read
      · rintro ⟨right, groups, _⟩
        exact absurd groups.cases.1 group

theorem parseGroups_before (counts : ip.length + 2 * rounds = 16) (text : s ≠ []) :
    (parseGroups rounds ⟨ip, none, s⟩).bind expand = some out ↔
      (∃ right, Groups right s ∧ ip.length + right.length = 16 ∧ out = ip ++ right) ∨
        ∃ left right, Elided left right s ∧ ip.length + left.length + right.length < 16 ∧
          out = widen (ip.length + left.length) (ip ++ left ++ right) := by
  induction rounds generalizing ip s with
  | zero =>
    simp only [parseGroups, Option.bind_some, expand_more ip _ text, reduceCtorEq, false_iff, not_or]
    constructor
    · rintro ⟨right, groups, full, _⟩
      have := groups.length_ge
      omega
    · rintro ⟨left, right, _, short, _⟩
      omega
  | succ rounds ih =>
    by_cases group : Hextet (s.takeWhile isHex)
    · have long : ¬ 4 < (s.takeWhile isHex).length := by
        have := group.short
        omega
      have counted : (ip ++ toBE 2 (hexValue (s.takeWhile isHex))).length + 2 * rounds = 16 := by
        rw [List.length_append, length_toBE]
        omega
      simp only [parseGroups, if_neg long, if_neg group.some]
      cases later : s.dropWhile isHex with
      | nil =>
        have none (left right : Bytes) : ¬ Elided left right s := not_elided (by simp [later])
        simp only [Option.bind_some, expand_full, groups_last_iff group later, exists_eq_left, none, false_and,
          exists_false, or_false, length_hextet, List.length_append, length_toBE]
        by_cases full : ip.length + 2 < 16
        · rw [if_pos full]
          simp
          omega
        · rw [if_neg full, Option.some.injEq, eq_comm (a := out)]
          simp [hextet]
          omega
      | cons c rest =>
        dsimp only
        by_cases dot : c = DOT
        · subst dot
          have none (left right : Bytes) : ¬ Elided left right s :=
            not_elided (by rw [later, List.head?_cons, ne_eq, Option.some.injEq]; decide)
          simp only [groups_dot_iff later, if_true, none, false_and, exists_false, or_false, true_and]
          cases read : parseIPv4Fields 0 0 [] s with
          | none => simp
          | some fields =>
            have four := (parseIPv4Fields_eq_some.mp read).1
            by_cases place : ip.length = 12
            · simp [place, four, expand_full, eq_comm (a := out)]
            · simp [place, four]
        · by_cases colon : c = COLON
          · subst colon
            simp only [if_neg dot, ne_eq, not_true_eq_false, if_false, groups_colon_iff group later,
              elided_iff group later]
            cases rest with
            | nil =>
              simp only [Option.bind_none, reduceCtorEq, false_iff, not_or, false_and, exists_false, false_or]
              constructor
              · rintro ⟨_, ⟨more, groups, _⟩, _⟩
                exact not_nil_of_hextet groups.cases.1 rfl
              · rintro ⟨_, _, ⟨more, elided, _⟩, _⟩
                exact not_nil_of_hextet elided.cases.1 rfl
            | cons d rest =>
              dsimp only
              by_cases twice : d = COLON
              · subst twice
                rw [if_neg (by simp), if_neg (by simp)]
                have groups (more : Bytes) : ¬ Groups more (COLON :: rest) := fun groups =>
                  not_colon_of_hextet groups.cases.1 rest rfl
                have elided (left right : Bytes) : ¬ Elided left right (COLON :: rest) := fun elided =>
                  not_colon_of_hextet elided.cases.1 rest rfl
                simp only [groups, elided, false_and, exists_false, false_or, or_false, List.cons.injEq, true_and]
                constructor
                · intro read
                  split at read
                  · rename_i empty
                    rw [Option.bind_some, expand_ellipsis] at read
                    split at read
                    · rename_i short
                      cases read
                      refine ⟨_, [], ⟨rest, rfl, .inl ⟨rfl, empty⟩, rfl⟩, ?_, by simp [hextet]⟩
                      simpa [hextet] using short
                    · cases read
                  · obtain ⟨right, groups, short, rfl⟩ := (parseGroups_after counted).mp read
                    refine ⟨_, right, ⟨rest, rfl, .inr groups, rfl⟩, ?_, by simp [hextet]⟩
                    simpa [hextet] using short
                · rintro ⟨_, right, ⟨_, rfl, tail, rfl⟩, short, rfl⟩
                  rcases tail with ⟨rfl, rfl⟩ | groups
                  · rw [if_pos rfl, Option.bind_some, expand_ellipsis, if_pos (by simpa [hextet] using short)]
                    simp [hextet]
                  · rw [if_neg (not_nil_of_hextet groups.cases.1)]
                    refine (parseGroups_after counted).mpr ⟨right, groups, ?_, by simp [hextet]⟩
                    simpa [hextet] using short
              · rw [if_pos twice, ih counted (List.cons_ne_nil _ _)]
                have other (rest' : Bytes) : d :: rest ≠ COLON :: rest' := fun same => twice (List.cons.inj same).1
                simp only [other, false_and, exists_false, false_or]
                constructor
                · rintro (⟨right, groups, full, rfl⟩ | ⟨left, right, elided, short, rfl⟩)
                  · exact .inl ⟨_, ⟨right, groups, rfl⟩, by simpa [Nat.add_assoc] using full, by simp [hextet]⟩
                  · refine .inr ⟨_, right, ⟨left, elided, rfl⟩, ?_, by simp [hextet, Nat.add_assoc]⟩
                    simpa [Nat.add_assoc] using short
                · rintro (⟨_, ⟨right, groups, rfl⟩, full, rfl⟩ | ⟨_, right, ⟨left, elided, rfl⟩, short, rfl⟩)
                  · exact .inl ⟨right, groups, by simpa [Nat.add_assoc] using full, by simp [hextet]⟩
                  · refine .inr ⟨left, right, elided, ?_, by simp [hextet, Nat.add_assoc]⟩
                    simpa [Nat.add_assoc] using short
          · have none (left right : Bytes) : ¬ Elided left right s :=
              not_elided (by rw [later, List.head?_cons, ne_eq, Option.some.injEq]; exact colon)
            simp [dot, colon, not_groups later dot colon, none]
    · rw [parseGroups_none group]
      constructor
      · intro read
        cases read
      · rintro (⟨right, groups, _⟩ | ⟨left, right, elided, _⟩)
        · exact absurd groups.cases.1 group
        · exact absurd elided.cases.1 group

theorem widen_append (left right : Bytes) :
    widen left.length (left ++ right) = left ++ zeros (16 - (left.length + right.length)) ++ right := by
  simp [widen]

theorem prefix_two_iff : [COLON, COLON] <+: s ↔ ∃ rest, s = COLON :: COLON :: rest := by
  constructor
  · rintro ⟨rest, rfl⟩
    exact ⟨rest, rfl⟩
  · rintro ⟨rest, rfl⟩
    exact ⟨rest, rfl⟩

/-- The text of an IPv6 address is read as what it stands for, and nothing else is. -/
theorem parseIPv6Fields_eq_some : parseIPv6Fields s = some ip ↔ V6Text ip s := by
  by_cases two : [COLON, COLON] <+: s
  · obtain ⟨rest, rfl⟩ := prefix_two_iff.mp two
    have after : (parseGroups 8 ⟨[], some 0, rest⟩).bind expand = some ip ↔ _ := parseGroups_after rfl
    simp only [parseIPv6Fields, if_pos two, List.drop_succ_cons, List.drop_zero]
    constructor
    · intro read
      split at read
      · rename_i empty
        cases read
        have tail : Tail [] rest := .inl ⟨rfl, empty⟩
        have text := V6Text.leading tail (by decide)
        simpa [zeros] using text
      · obtain ⟨right, groups, short, rfl⟩ := after.mp read
        have text := V6Text.leading (.inr groups) (by simpa using short)
        simpa [widen] using text
    · intro text
      cases text with
      | full groups _ => exact absurd rfl (not_colon_of_hextet groups.cases.1 _)
      | elided elided _ => exact absurd rfl (not_colon_of_hextet elided.cases.1 _)
      | leading tail short =>
        rcases tail with ⟨rfl, rfl⟩ | groups
        · simp [zeros]
        · rw [if_neg (not_nil_of_hextet groups.cases.1)]
          exact after.mpr ⟨_, groups, by simpa using short, by simp [widen]⟩
  · simp only [parseIPv6Fields, if_neg two]
    by_cases empty : s = []
    · subst empty
      constructor
      · intro read
        cases read
      · intro text
        cases text with
        | full groups _ => exact absurd rfl (not_nil_of_hextet groups.cases.1)
        | elided elided _ => exact absurd rfl (not_nil_of_hextet elided.cases.1)
    · have before : (parseGroups 8 ⟨[], none, s⟩).bind expand = some ip ↔ _ := parseGroups_before rfl empty
      rw [before]
      simp only [List.length_nil, Nat.zero_add, List.nil_append, widen_append]
      constructor
      · rintro (⟨right, groups, full, rfl⟩ | ⟨left, right, elided, short, rfl⟩)
        · exact .full groups full
        · exact .elided elided short
      · intro text
        cases text with
        | full groups full => exact .inl ⟨ip, groups, full, rfl⟩
        | elided elided short => exact .inr ⟨_, _, elided, short, rfl⟩
        | leading _ _ => exact absurd (prefix_two_iff.mpr ⟨_, rfl⟩) two

theorem V6Text.length (text : V6Text ip s) : ip.length = 16 := by
  cases text with
  | full _ full => exact full
  | leading _ short => simp [zeros]; omega
  | elided _ short => simp [zeros]; omega

end Reading

end Mailgw.Proxyproto
