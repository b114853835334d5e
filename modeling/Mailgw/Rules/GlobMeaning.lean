import Mathlib.Algebra.BigOperators.Ring.List
import Mathlib.Algebra.Order.BigOperators.Group.List
import Mailgw.Rules.GlobMatching

namespace Mailgw.Rules

open Queue Wildcards

def Closed (s : Name) : Prop := ∀ t, pieces (s ++ t) = pieces s ++ pieces t

theorem Closed.nil : Closed [] := fun _ => rfl

theorem Closed.append {s t : Name} (first : Closed s) (second : Closed t) : Closed (s ++ t) := by
  intro u
  rw [List.append_assoc, first, second, first, List.append_assoc]

theorem Closed.cancel {s t : Name} (whole : Closed (s ++ t)) (first : Closed s) : Closed t := by
  intro u
  have both := whole u
  rw [List.append_assoc, first, first, List.append_assoc] at both
  exact List.append_cancel_left both

theorem pieces_letter {c : Char} (plain : c ∉ ['\\', '?', '*']) (t : Name) : pieces (c :: t) = .lit c :: pieces t := by
  simp only [List.mem_cons, List.not_mem_nil, or_false, not_or] at plain
  rw [pieces.eq_3 _ _ (by simp [plain.1]), if_neg plain.2.1, if_neg plain.2.2]

theorem Closed.letter {c : Char} (plain : c ∉ ['\\', '?', '*']) : Closed [c] := by
  intro t
  rw [List.singleton_append, pieces_letter plain, pieces_letter plain]
  rfl

theorem Spells.closed {top : Bool} {u : Name} {p : Piece Char} (spells : Spells top u p) : Closed u := by
  intro t
  have alone := spells.pieces []
  rw [List.append_nil] at alone
  rw [spells.pieces, alone]
  rfl

theorem Closed.group {b : Name} (closed : Closed b) : Closed ('\x7b' :: b ++ ['\x7d']) := by
  have opened : Closed ('\x7b' :: b) := (Closed.letter (c := '\x7b') (by decide)).append closed
  exact opened.append (.letter (by decide))

theorem Reads.closed {place : Place} {s : Name} {g : Glob Char} (reads : Reads place s g) (inside : place ≠ .text true) :
    Closed s := by
  induction reads with
  | empty => exact .nil
  | stray => exact absurd rfl inside
  | piece first _ ih => exact first.closed.append (ih inside)
  | @group top b t a g _ _ ihBody ihRest =>
    have whole : '\x7b' :: b ++ '\x7d' :: t = ('\x7b' :: b ++ ['\x7d']) ++ t := by simp
    rw [whole]
    exact (Closed.group (ihBody (by simp))).append (ihRest inside)
  | last _ ih => exact ih (by simp)
  | @more t b a g _ _ ihFirst ihOthers =>
    have whole : t ++ ',' :: b = t ++ ([','] ++ b) := by simp
    rw [whole]
    exact (ihFirst (by simp)).append ((Closed.letter (by decide)).append (ihOthers (by simp)))

theorem Reads.outside {place : Place} {s : Name} {g : Glob Char} (reads : Reads place s g) (branch : place = .text false) :
    Reads (.text true) s g := by
  induction reads with
  | empty => exact .empty
  | stray => cases branch
  | piece first _ ih =>
    cases branch
    exact .piece first.mono (ih rfl)
  | group alternatives _ _ ih => exact .group alternatives (ih branch)
  | last | more => cases branch

structure Leads (before : Name) : Prop where
  closed : Closed before
  reads : ∀ {t g}, Reads (.text true) t g → ∃ g', Reads (.text true) (before ++ t) g' ∧
    ∀ den : Piece Char → Language Char, g'.denote den = flat den (pieces before) * g.denote den

theorem Leads.nil : Leads [] := by
  refine ⟨.nil, fun reads => ⟨_, reads, fun den => ?_⟩⟩
  simp [flat, pieces]

theorem Leads.piece {u before : Name} {p : Piece Char} (spells : Spells true u p) (leads : Leads before) : Leads (u ++ before) := by
  refine ⟨spells.closed.append leads.closed, ?_⟩
  intro t g reads
  obtain ⟨g', behind, denotes⟩ := leads.reads reads
  rw [List.append_assoc]
  refine ⟨.cat (.piece p) g', .piece spells behind, fun den => ?_⟩
  rw [Glob.denote, Glob.denote, denotes, spells.pieces, flat, flat, List.map_cons, List.prod_cons, mul_assoc]

theorem Spells.firstGroup {top : Bool} {u : Name} {p : Piece Char} (spells : Spells top u p) (t : Name) :
    firstGroup (u ++ t) = (firstGroup t).behindText u := by
  cases spells with
  | escaped c => exact firstGroup.eq_2 c t
  | one => exact firstGroup.eq_3 _ _ (by simp)
  | many => exact firstGroup.eq_3 _ _ (by simp)
  | @letter c plain _ =>
    simp only [List.mem_cons, List.not_mem_nil, or_false, not_or] at plain
    rw [List.singleton_append, firstGroup.eq_3 _ _ (by simp [plain.1]), if_neg plain.2.2.2.1, if_neg plain.2.2.2.2]

theorem firstGroup_open (rest : Name) : firstGroup ('\x7b' :: rest) =
    match closing 0 rest with
    | some (body, behind) => .found [] body behind
    | none => .unmatchedOpen := by
  exact (firstGroup.eq_3 _ _ (by simp)).trans (if_pos rfl)

/-- What the words of a text are, seen from its first group. -/
inductive Opened (s : Name) (g : Glob Char) : Prop where
  | none (ungrouped : firstGroup s = .none) (denotes : ∀ den : Piece Char → Language Char, flat den (pieces s) = g.denote den)
  | found {before body behind : Name} {a g' : Glob Char} (grouped : firstGroup s = .found before body behind)
      (leads : Leads before) (alternatives : Reads .body body a) (rest : Reads (.text true) behind g')
      (denotes : ∀ den : Piece Char → Language Char,
        g.denote den = flat den (pieces before) * a.denote den * g'.denote den)

theorem Reads.opened {place : Place} {s : Name} {g : Glob Char} (reads : Reads place s g) (outer : place = .text true) :
    Opened s g := by
  induction reads with
  | empty => exact .none rfl fun den => rfl
  | stray => exact .none rfl fun den => by simp [flat, pieces, Glob.denote]
  | @piece top u t p g first _ ih =>
    cases outer
    cases ih rfl with
    | none ungrouped denotes =>
      apply Opened.none
      · rw [first.firstGroup, ungrouped]
        rfl
      · intro den
        rw [first.pieces, flat, List.map_cons, List.prod_cons, Glob.denote, Glob.denote, ← denotes den, flat]
    | found grouped leads alternatives rest denotes =>
      apply Opened.found _ (leads.piece first) alternatives rest
      · intro den
        rw [Glob.denote, Glob.denote, denotes, first.pieces, flat, flat, List.map_cons, List.prod_cons]
        simp only [mul_assoc]
      · rw [first.firstGroup, grouped]
        rfl
  | @group top b t a g alternatives rest _ _ =>
    cases outer
    apply Opened.found _ .nil alternatives rest
    · intro den
      simp [Glob.denote, flat, pieces]
    · rw [List.cons_append, firstGroup_open, alternatives.closing (by simp), closing_close_zero]
      simp [keepText]
  | last | more => cases outer

def joined (heads tails : List Name) : List Name := heads.flatMap fun head => tails.map fun tail => head ++ tail

theorem expandAlts_inv {s before : Name} {tails alts out outs : List Name} (written : expandAlts s before tails alts out = .ok outs) :
    ∃ heads : List (List Name), List.Forall₂ (fun alt hs => expand (before ++ alt) = .ok hs) alts heads ∧
      outs = out ++ heads.flatMap fun hs => joined hs tails := by
  induction alts generalizing out with
  | nil =>
    rw [expandAlts] at written
    cases written
    exact ⟨[], .nil, by simp⟩
  | cons alt rest ih =>
    rw [expandAlts] at written
    cases first : expand (before ++ alt) with
    | error problem =>
      rw [first] at written
      cases written
    | ok hs =>
      rw [first] at written
      simp only [bind, Except.bind] at written
      split at written
      · cases written
      · obtain ⟨heads, all, rfl⟩ := ih written
        exact ⟨hs :: heads, .cons first all, by simp [joined]⟩

theorem expand_ungrouped {s : Name} (ungrouped : firstGroup s = .none) : expand s = .ok [s] := by
  rw [expand]
  split <;> simp_all

theorem expand_found {s before body behind : Name} (grouped : firstGroup s = .found before body behind) :
    expand s = (expand behind).bind fun tails => expandAlts s before tails (splitTopLevel body) [] := by
  rw [expand]
  split <;> simp_all
  rfl

/-- A pattern is written out if it has no group, or what is behind its first group and its alternatives are. -/
theorem expand_inv {s : Name} {outs : List Name} (written : expand s = .ok outs) :
    (firstGroup s = .none ∧ outs = [s]) ∨ ∃ before body behind tails heads, firstGroup s = .found before body behind ∧
      expand behind = .ok tails ∧
      List.Forall₂ (fun alt hs => expand (before ++ alt) = .ok hs) (splitTopLevel body) heads ∧
      outs = heads.flatMap fun hs => joined hs tails := by
  rw [expand] at written
  split at written
  · rename_i ungrouped
    cases written
    exact .inl ⟨ungrouped, rfl⟩
  · cases written
  · cases written
  · rename_i before body behind grouped
    right
    cases later : expand behind with
    | error problem =>
      rw [later] at written
      cases written
    | ok tails =>
      rw [later] at written
      obtain ⟨heads, all, outs⟩ := expandAlts_inv written
      exact ⟨before, body, behind, tails, heads, grouped, later, all, outs⟩

theorem joined_closed {heads tails : List Name} (first : ∀ h ∈ heads, Closed h) (second : ∀ t ∈ tails, Closed t) :
    ∀ o ∈ joined heads tails, Closed o := by
  intro o member
  obtain ⟨h, among, member⟩ := List.mem_flatMap.mp member
  obtain ⟨t, among', rfl⟩ := List.mem_map.mp member
  exact (first h among).append (second t among')

def words (den : Piece Char → Language Char) (outs : List Name) : Language Char := (outs.map fun o => flat den (pieces o)).sum

theorem words_append (den : Piece Char → Language Char) (outs outs' : List Name) :
    words den (outs ++ outs') = words den outs + words den outs' := by
  simp [words]

theorem words_joined (den : Piece Char → Language Char) {heads : List Name} (tails : List Name) (closed : ∀ h ∈ heads, Closed h) :
    words den (joined heads tails) = words den heads * words den tails := by
  induction heads with
  | nil => simp [joined, words]
  | cons h heads ih =>
    rw [List.forall_mem_cons] at closed
    have each : words den (tails.map fun tail => h ++ tail) = flat den (pieces h) * words den tails := by
      rw [words, words, List.map_map, ← List.sum_map_mul_left]
      congr 1
      apply List.map_congr_left
      intro tail _
      rw [Function.comp_apply, closed.1 tail, flat_append]
    have grouped : joined (h :: heads) tails = (tails.map fun tail => h ++ tail) ++ joined heads tails := rfl
    rw [grouped, words_append, each, ih closed.2, ← add_mul]
    rfl

/-- What a text has been written out to: its words are those of the pattern, and its ends stay closed. -/
structure Expands (s : Name) (g : Glob Char) (outs : List Name) : Prop where
  words : ∀ den : Piece Char → Language Char, words den outs = g.denote den
  closed : Closed s → ∀ o ∈ outs, Closed o

theorem expands_alternatives {before : Name} {alts : List (Name × Glob Char)} {heads : List (List Name)} (leads : Leads before)
    (all : ∀ alt ∈ alts, Reads (.text false) alt.1 alt.2)
    (written : List.Forall₂ (fun alt hs => expand (before ++ alt) = .ok hs) (alts.map Prod.fst) heads)
    (each : ∀ alt ∈ alts, ∀ g hs, Reads (.text true) (before ++ alt.1) g → expand (before ++ alt.1) = .ok hs →
      Expands (before ++ alt.1) g hs) (tails : List Name) (den : Piece Char → Language Char) :
    (∀ hs ∈ heads, ∀ h ∈ hs, Closed h) ∧ words den (heads.flatMap fun hs => joined hs tails) =
      flat den (pieces before) * (alts.map fun alt => alt.2.denote den).sum * words den tails := by
  induction alts generalizing heads with
  | nil =>
    cases written
    simp [words]
  | cons alt alts ih =>
    rw [List.forall_mem_cons] at all each
    cases written with
    | @cons _ hs _ heads first rest =>
      obtain ⟨g, reads, denotes⟩ := leads.reads (all.1.outside rfl)
      have expands := each.1 g hs reads first
      have closed := expands.closed (leads.closed.append (all.1.closed (by simp)))
      obtain ⟨others, sum⟩ := ih all.2 rest each.2
      refine ⟨List.forall_mem_cons.mpr ⟨closed, others⟩, ?_⟩
      rw [List.flatMap_cons, words_append, words_joined den tails closed, sum, expands.words, denotes, List.map_cons,
        List.sum_cons, mul_add, add_mul]

theorem length_of_mem_split {s part : Name} (member : part ∈ splitTopLevel s) : part.length ≤ s.length := by
  have below : part.length + 1 ≤ partsSize (splitTopLevel s) := List.le_sum_of_mem (List.mem_map_of_mem member)
  rw [splitTopLevel, splitFrom_size] at below
  omega

/-- Writing out the alternatives of a pattern keeps its words. -/
theorem Reads.expands {s : Name} {g : Glob Char} {outs : List Name} (reads : Reads (.text true) s g)
    (written : expand s = .ok outs) : Expands s g outs := by
  induction size : s.length using Nat.strong_induction_on generalizing s g outs with
  | _ n ih =>
    rcases expand_inv written with ⟨ungrouped, rfl⟩ | ⟨before, body, behind, tails, heads, grouped, later, all, rfl⟩
    · cases reads.opened rfl with
      | none _ denotes => exact ⟨fun den => by rw [← denotes den]; simp [words], fun closed => by simpa using closed⟩
      | found grouped => rw [ungrouped] at grouped; cases grouped
    · cases reads.opened rfl with
      | none ungrouped => rw [ungrouped] at grouped; cases grouped
      | found grouped' leads alternatives rest denotes =>
        rw [grouped] at grouped'
        cases grouped'
        have text := firstGroup_text grouped
        have shorter := congrArg List.length text
        simp only [List.length_append, List.length_cons] at shorter
        obtain ⟨alts, parts, branches, sum⟩ := alternatives.alternatives rfl
        have behind_ := ih behind.length (by omega) rest later rfl
        have each : ∀ alt ∈ alts, ∀ g hs, Reads (.text true) (before ++ alt.1) g → expand (before ++ alt.1) = .ok hs →
            Expands (before ++ alt.1) g hs := by
          intro alt member g hs reads written
          have within : alt.1 ∈ splitTopLevel body := by
            rw [parts]
            exact List.mem_map_of_mem member
          have short := length_of_mem_split within
          exact ih (before ++ alt.1).length (by rw [List.length_append]; omega) reads written rfl
        rw [parts] at all
        have both := expands_alternatives leads branches all each tails
        constructor
        · intro den
          rw [(both den).2, behind_.words, denotes, sum]
        · intro closed o member
          have split : s = before ++ ('\x7b' :: body ++ ['\x7d']) ++ behind := by
            rw [text]
            simp
          rw [split] at closed
          have front := leads.closed.append (alternatives.closed (by simp)).group
          obtain ⟨hs, among, member⟩ := List.mem_flatMap.mp member
          exact joined_closed ((both fun _ => 0).1 hs among) (behind_.closed (closed.cancel front)) o member

theorem spells_of_plain {c : Char} (top : Bool) (plain : c ∉ ['\\', '\x7b', '\x7d']) (comma : c = ',' → top = true) :
    ∃ p, Spells top [c] p := by
  by_cases one : c = '?'
  · exact ⟨.one, one ▸ .one⟩
  · by_cases many : c = '*'
    · exact ⟨.many, many ▸ .many⟩
    · refine ⟨.lit c, .letter ?_ comma⟩
      simp only [List.mem_cons, List.not_mem_nil, or_false, not_or] at plain ⊢
      exact ⟨plain.1, one, many, plain.2.1, plain.2.2⟩

def Begins (x : Name) : Prop := ∀ t g, Reads (.text false) t g → ∃ g', Reads (.text false) (x ++ t) g'

theorem Spells.begins {u : Name} {p : Piece Char} (spells : Spells false u p) : Begins u :=
  fun _ _ reads => ⟨_, .piece spells reads⟩

theorem Reads.begins {b : Name} {a : Glob Char} (alternatives : Reads .body b a) : Begins ('\x7b' :: b ++ ['\x7d']) := by
  intro t g reads
  have whole : '\x7b' :: b ++ ['\x7d'] ++ t = '\x7b' :: b ++ '\x7d' :: t := by simp
  rw [whole]
  exact ⟨_, .group alternatives reads⟩

theorem Begins.body {x b : Name} {g : Glob Char} (begins : Begins x) (reads : Reads .body b g) : ∃ g', Reads .body (x ++ b) g' := by
  cases reads with
  | last alternative =>
    obtain ⟨g', grown⟩ := begins _ _ alternative
    exact ⟨g', .last grown⟩
  | more alternative others =>
    obtain ⟨g', grown⟩ := begins _ _ alternative
    rw [← List.append_assoc]
    exact ⟨_, .more grown others⟩

def Closes : Nat → Name → Prop
  | 0, s => ∃ g, Reads .body s g
  | d + 1, s => ∃ b t, s = b ++ '\x7d' :: t ∧ (∃ g, Reads .body b g) ∧ Closes d t

theorem Closes.grow {x : Name} (begins : Begins x) {d : Nat} {s : Name} (closes : Closes d s) : Closes d (x ++ s) := by
  cases d with
  | zero =>
    obtain ⟨g, reads⟩ := closes
    exact begins.body reads
  | succ d =>
    obtain ⟨b, t, rfl, ⟨g, reads⟩, rest⟩ := closes
    exact ⟨x ++ b, t, by simp, begins.body reads, rest⟩

theorem Closes.comma {d : Nat} {s : Name} (closes : Closes d s) : Closes d (',' :: s) := by
  cases d with
  | zero =>
    obtain ⟨g, reads⟩ := closes
    exact ⟨_, .more .empty reads⟩
  | succ d =>
    obtain ⟨b, t, rfl, ⟨g, reads⟩, rest⟩ := closes
    exact ⟨',' :: b, t, rfl, ⟨_, .more .empty reads⟩, rest⟩

theorem closes_of_closing {depth : Nat} {s body behind : Name} (found : closing depth s = some (body, behind)) :
    Closes depth body := by
  fun_induction closing depth s generalizing body behind with
  | case1 => cases found
  | case2 depth c rest ih =>
    obtain ⟨inner, further, rfl⟩ := keepText_eq_some.mp found
    exact (ih further).grow (Spells.escaped c).begins
  | case3 depth rest _ ih =>
    obtain ⟨inner, further, rfl⟩ := keepText_eq_some.mp found
    obtain ⟨b, t, rfl, ⟨g, reads⟩, closes⟩ := ih further
    have whole : ['\x7b'] ++ (b ++ '\x7d' :: t) = '\x7b' :: b ++ ['\x7d'] ++ t := by simp
    rw [whole]
    exact closes.grow reads.begins
  | case4 rest =>
    cases found
    exact ⟨_, .last .empty⟩
  | case5 rest _ depth _ ih =>
    obtain ⟨inner, further, rfl⟩ := keepText_eq_some.mp found
    exact ⟨[], inner, rfl, ⟨_, .last .empty⟩, ih further⟩
  | case6 depth c rest unescaped open_ close ih =>
    obtain ⟨inner, further, rfl⟩ := keepText_eq_some.mp found
    by_cases comma : c = ','
    · rw [comma]
      exact (ih further).comma
    · have plain : c ∉ ['\\', '\x7b', '\x7d'] := by
        intro special
        simp only [List.mem_cons, List.not_mem_nil, or_false, open_, close] at special
        cases rest with
        | nil => simp [closing] at further
        | cons c' rest => exact unescaped c' rest special rfl
      obtain ⟨p, spells⟩ := spells_of_plain false plain fun bare => absurd bare comma
      exact (ih further).grow spells.begins

theorem readable_of_firstGroup (s : Name) :
    (firstGroup s = .none → ∃ g, Reads (.text true) s g) ∧
      ∀ before body behind, firstGroup s = .found before body behind → Leads before ∧ ∃ g, Reads .body body g := by
  have further : ∀ (u : Name) (rest : Name) (p : Piece Char), Spells true u p →
      ((firstGroup rest = .none → ∃ g, Reads (.text true) rest g) ∧
        ∀ before body behind, firstGroup rest = .found before body behind → Leads before ∧ ∃ g, Reads .body body g) →
      (((firstGroup rest).behindText u = .none → ∃ g, Reads (.text true) (u ++ rest) g) ∧
        ∀ before body behind, (firstGroup rest).behindText u = .found before body behind → Leads before ∧ ∃ g, Reads .body body g) := by
    intro u rest p spells ih
    cases grouped : firstGroup rest with
    | none =>
      obtain ⟨g, reads⟩ := ih.1 grouped
      exact ⟨fun _ => ⟨_, .piece spells reads⟩, by simp [Group.behindText]⟩
    | found before body behind =>
      refine ⟨by simp [Group.behindText], ?_⟩
      intro before' body' behind' found
      cases found
      obtain ⟨leads, reads⟩ := ih.2 _ _ _ grouped
      exact ⟨leads.piece spells, reads⟩
    | unmatchedClose | unmatchedOpen => simp [Group.behindText]
  fun_induction firstGroup s with
  | case1 => exact ⟨fun _ => ⟨_, .empty⟩, by simp⟩
  | case2 c rest ih => exact further ['\\', c] rest _ (.escaped c) ih
  | case3 rest body behind closed =>
    refine ⟨by simp, ?_⟩
    intro before body' behind' found
    cases found
    exact ⟨.nil, closes_of_closing closed⟩
  | case4 => simp
  | case5 => simp
  | case6 c rest unescaped open_ close ih =>
    by_cases slash : c = '\\'
    · cases rest with
      | nil =>
        rw [slash]
        exact ⟨fun _ => ⟨_, .stray⟩, by simp [firstGroup, Group.behindText]⟩
      | cons c' rest => exact (unescaped c' rest slash rfl).elim
    · obtain ⟨p, spells⟩ := spells_of_plain (c := c) true (by simp [slash, open_, close]) fun _ => rfl
      exact further [c] rest p spells ih

theorem readable_of_expand {s : Name} {outs : List Name} (written : expand s = .ok outs) : ∃ g, Reads (.text true) s g := by
  induction size : s.length using Nat.strong_induction_on generalizing s outs with
  | _ n ih =>
    rcases expand_inv written with ⟨ungrouped, _⟩ | ⟨before, body, behind, tails, heads, grouped, later, _⟩
    · exact (readable_of_firstGroup s).1 ungrouped
    · have text := firstGroup_text grouped
      have shorter := congrArg List.length text
      simp only [List.length_append, List.length_cons] at shorter
      obtain ⟨leads, a, alternatives⟩ := (readable_of_firstGroup s).2 _ _ _ grouped
      obtain ⟨g, rest⟩ := ih behind.length (by omega) later rfl
      obtain ⟨g', reads, _⟩ := leads.reads (.group alternatives rest)
      refine ⟨g', ?_⟩
      rw [text]
      simpa using reads

theorem expandBraces_expand {pattern : Name} {outs : List Name} (accepted : expandBraces pattern = .ok outs) :
    expand pattern = .ok outs := by
  rw [expandBraces] at accepted
  cases written : expand pattern with
  | error problem =>
    rw [written] at accepted
    cases accepted
  | ok out =>
    rw [written] at accepted
    simp only [bind, Except.bind] at accepted
    split at accepted <;> cases accepted
    rfl

section Matchers
variable [Text.LowerCase]

/-- The lower case of a character is one of the marks of a pattern only if the character is that mark. -/
def KeepsMarks : Prop := ∀ mark ∈ ['\\', '?', '*'], ∀ c, Text.LowerCase.lowerChar c = mark ↔ c = mark

theorem pieces_toLower (keeps : KeepsMarks) (s : Name) :
    pieces (Text.toLower s) = (pieces s).map (Piece.map Text.LowerCase.lowerChar) := by
  have slash := keeps '\\' (by simp)
  have one := keeps '?' (by simp)
  have many := keeps '*' (by simp)
  fun_induction pieces s with
  | case1 => rfl
  | case2 c rest ih =>
    rw [Text.toLower, List.map_cons, (slash _).mpr rfl, List.map_cons, pieces, List.map_cons, ← ih]
    rfl
  | case3 c rest unescaped ih =>
    have unescaped' : ∀ c' rest', Text.LowerCase.lowerChar c = '\\' → rest.map Text.LowerCase.lowerChar = c' :: rest' → False := by
      intro c' rest' lower behind
      obtain ⟨c'', rest'', shape, _⟩ := List.map_eq_cons_iff.mp behind
      exact unescaped c'' rest'' ((slash c).mp lower) shape
    rw [Text.toLower, List.map_cons, pieces.eq_3 _ _ unescaped', List.map_cons, ← ih]
    simp only [one, many]
    split
    · rfl
    · split <;> rfl

def pieceLanguage (sep ci : Bool) (p : Piece Char) : Language Char :=
  (if ci then p.map Text.LowerCase.lowerChar else p).language (Wild sep)

def globLanguage (sep ci : Bool) (g : Glob Char) : Language Char := g.denote (pieceLanguage sep ci)

theorem sequence_caseOf {ci : Bool} (keeps : ci = true → KeepsMarks) (sep : Bool) (s : Name) :
    sequence (Wild sep) (pieces (caseOf ci s)) = flat (pieceLanguage sep ci) (pieces s) := by
  cases ci with
  | false => rfl
  | true =>
    simp only [caseOf, if_true, pieces_toLower (keeps rfl), Wildcards.sequence, flat, List.map_map]
    rfl

theorem compileGlob_inv {pattern : Name} {sep ci : Bool} {m : GlobMatcher} (compiled : compileGlob pattern sep ci = .ok m) :
    ∃ outs, expand pattern = .ok outs ∧ m = ⟨outs.map (caseOf ci), sep, ci⟩ := by
  rw [compileGlob] at compiled
  split at compiled
  · cases compiled
  · cases accepted : expandBraces pattern with
    | error problem =>
      rw [accepted] at compiled
      cases compiled
    | ok outs =>
      rw [accepted] at compiled
      cases compiled
      exact ⟨outs, expandBraces_expand accepted, rfl⟩

/-- A pattern that is accepted can be read, and matches the words of what it reads as. -/
theorem compileGlob_matches_iff {pattern : Name} {sep ci : Bool} {m : GlobMatcher} (compiled : compileGlob pattern sep ci = .ok m)
    (keeps : ci = true → KeepsMarks) :
    (∃ g, Reads (.text true) pattern g) ∧
      ∀ g, Reads (.text true) pattern g → ∀ s, m.matches s = true ↔ caseOf ci s ∈ globLanguage sep ci g := by
  obtain ⟨outs, written, rfl⟩ := compileGlob_inv compiled
  refine ⟨readable_of_expand written, ?_⟩
  intro g reads s
  have same := (reads.expands written).words (pieceLanguage sep ci)
  rw [globLanguage, ← same, words, mem_sum_map, GlobMatcher.matches, List.any_map, List.any_eq_true]
  apply exists_congr
  intro out
  rw [Function.comp_apply, globMatch_iff, sequence_caseOf keeps]

end Matchers

section Attachments
open scoped Ascii

theorem keepsMarks_ascii : KeepsMarks := by
  intro mark among c
  change (dite _ _ fun _ => c) = mark ↔ c = mark
  split
  · -- no mark lies among the letters, of either case
    rename_i upper
    have apart : mark.val.toNat < 65 ∨ mark = '\\' := by
      simp only [List.mem_cons, List.not_mem_nil, or_false] at among
      rcases among with rfl | rfl | rfl <;> decide
    simp only [Char.ext_iff, ← UInt32.toNat_inj] at apart ⊢
    simp [UInt32.le_iff_toNat_le] at upper apart ⊢
    omega
  · rfl

/-- Attachments that may be run. -/
theorem compileGlob_matches_attachments :
    ∃ m, compileGlob "*.\x7bexe,scr\x7d".toList false true = .ok m ∧
      (∃ g, Reads (.text true) "*.\x7bexe,scr\x7d".toList g) ∧
      ∀ g, Reads (.text true) "*.\x7bexe,scr\x7d".toList g → ∀ s, m.matches s = true ↔ caseOf true s ∈ globLanguage false true g := by
  have written : expand "*.\x7bexe,scr\x7d".toList = .ok ["*.exe".toList, "*.scr".toList] := by
    have grouped : firstGroup "*.\x7bexe,scr\x7d".toList = .found "*.".toList "exe,scr".toList [] := by decide
    rw [expand_found grouped, expand_ungrouped (by decide)]
    change expandAlts _ _ _ ["exe".toList, "scr".toList] [] = _
    rw [expandAlts, expand_ungrouped (by decide)]
    change expandAlts _ _ _ ["scr".toList] ["*.exe".toList] = _
    rw [expandAlts, expand_ungrouped (by decide)]
    change expandAlts _ _ _ [] ["*.exe".toList, "*.scr".toList] = _
    rw [expandAlts]
  have compiled : compileGlob "*.\x7bexe,scr\x7d".toList false true = .ok ⟨["*.exe".toList, "*.scr".toList], false, true⟩ := by
    rw [compileGlob, expandBraces, written]
    rfl
  exact ⟨_, compiled, compileGlob_matches_iff compiled fun _ => keepsMarks_ascii⟩

end Attachments

end Mailgw.Rules
