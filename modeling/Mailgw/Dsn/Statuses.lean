import Mailgw.Dsn.Lines
import Mailgw.Rules.Compile
import Mailgw.Smtp.Judgement
import Mailgw.Text.Paths

namespace Mailgw.Dsn

open Deliver Text

structure Field where
  name : Chars
  value : Chars
  deriving Repr, DecidableEq

def Field.line (f : Field) : Chars := f.name ++ ':' :: ' ' :: f.value

def readField (line : Chars) : Option Field :=
  match line.dropWhile (· ≠ ':') with
  | ':' :: ' ' :: value => if OneLine line then some ⟨line.takeWhile (· ≠ ':'), value⟩ else none
  | _ => none

/-- Reads the fields of a status part, in groups with an empty line between one and the next. Every line
    has its end. -/
def readGroups (s : Chars) : Option (List (List Field)) :=
  let ls := rows '\r' '\n' s
  if ls.getLast? = some [] then (ls.dropLast.splitOn []).mapM fun group => group.mapM readField else none

def Numeral (s : Chars) : Prop := s ≠ [] ∧ s.length ≤ 3 ∧ s.all Char.isDigit = true

def ValidStatus (s : Chars) : Prop :=
  ∃ c subject detail, s = c :: '.' :: (subject ++ '.' :: detail) ∧ (c = '2' ∨ c = '4' ∨ c = '5') ∧ Numeral subject ∧
    Numeral detail

def Agrees (action status : Chars) : Prop :=
  (action = "failed".toList ∧ status.head? = some '5') ∨ (action = "delayed".toList ∧ status.head? = some '4') ∨
    (action = "relayed".toList ∧ status.head? = some '2')

def messageNames (r : Report) : List Chars :=
  ["Reporting-MTA".toList] ++ (if r.envelopeID ≠ [] then ["Original-Envelope-Id".toList] else []) ++
    (if r.originalID ≠ [] then ["X-NGM-Original-Envelope".toList] else []) ++
    (if r.arrivalDate ≠ zeroTime then ["Arrival-Date".toList] else [])

def rcptNames (rc : Rcpt) : List Chars :=
  (if rc.origAddr ≠ [] then ["Original-Recipient".toList] else []) ++
    ["Final-Recipient".toList, "Action".toList, "Status".toList] ++
    (if rc.remoteMTA ≠ [] then ["Remote-MTA".toList] else []) ++
    (if rc.diagnostic ≠ [] then ["Diagnostic-Code".toList] else []) ++ ["Last-Attempt-Date".toList]

def RcptGroup (rc : Rcpt) (fields : List Field) : Prop :=
  fields.map Field.name = rcptNames rc ∧
    ∃ action status, ⟨"Action".toList, action⟩ ∈ fields ∧ ⟨"Status".toList, status⟩ ∈ fields ∧ ValidStatus status ∧
      Agrees action status

/-- The status part of a report reads as one group about the message and one for each recipient. -/
def WellFormed [Zone] [LowerCase] (r : Report) : Prop :=
  ∃ message groups, readGroups (statusText r) = some (message :: groups) ∧
    message.map Field.name = messageNames r ∧ List.Forall₂ RcptGroup r.rcpts groups

/-- A status that is given for a recipient: none, or a status. -/
def Given (s : Chars) : Prop := clean (trimSpace s) = [] ∨ ValidStatus (clean (trimSpace s))

section Reading
variable {f : Field} {fs : List Field} {s name value : Chars} {b : UInt8}

theorem readField_line (plain : ':' ∉ f.name) (single : OneLine f.line) : readField f.line = some f := by
  have rest : f.line.dropWhile (· ≠ ':') = ':' :: ' ' :: f.value := dropWhile_sep plain
  have first : f.line.takeWhile (· ≠ ':') = f.name := takeWhile_sep plain
  simp only [readField, rest, single, if_true, first]

def Field.Single (f : Field) : Prop := ':' ∉ f.name ∧ OneLine f.line

theorem mapM_map {α β : Type} {f : β → Option α} {g : α → β} {xs : List α} (back : ∀ x ∈ xs, f (g x) = some x) :
    (xs.map g).mapM f = some xs := by
  induction xs with
  | nil => rfl
  | cons x xs ih =>
    rw [List.map_cons, List.mapM_cons, back x List.mem_cons_self, ih fun y member => back y (List.mem_cons_of_mem x member)]
    rfl

theorem header_line (named : OneLine name) (plain : OneLine value) :
    header name value = ended [Field.line ⟨name, value⟩] := by
  rw [header_of_oneLine named plain]
  simp [ended, Field.line]

theorem oneLine_hexDigit : ∀ n < 16, OneLine [hexDigit n] := by decide

theorem oneLine_xtext (s : Chars) : OneLine (xtext s) := by
  have each (b : UInt8) : OneLine
      (if Char.ofNat b.toNat < '!' ∨ '~' < Char.ofNat b.toNat ∨ Char.ofNat b.toNat = '+' ∨ Char.ofNat b.toNat = '=' then
        ['+', hexDigit (b.toNat / 16), hexDigit (b.toNat % 16)] else [Char.ofNat b.toNat]) := by
    have small : b.toNat < 256 := b.toNat_lt
    split
    · have high := oneLine_hexDigit (b.toNat / 16) (by omega)
      have low := oneLine_hexDigit (b.toNat % 16) (by omega)
      simp only [oneLine_cons, oneLine_nil, and_true] at high low ⊢
      exact ⟨by decide, high, low⟩
    · rename_i printable
      simp only [not_or] at printable
      simp only [oneLine_cons, oneLine_nil, and_true]
      constructor
      · intro same
        exact printable.1 (same ▸ (by decide))
      · intro same
        exact printable.1 (same ▸ (by decide))
  refine ⟨fun member => ?_, fun member => ?_⟩
  · obtain ⟨b, _, member⟩ := List.mem_flatMap.mp member
    exact (each b).1 member
  · obtain ⟨b, _, member⟩ := List.mem_flatMap.mp member
    exact (each b).2 member

theorem oneLine_status (s : Chars) (k : Kind) : OneLine (status s k) := by
  have digit : k.class ≠ '\r' ∧ k.class ≠ '\n' := by cases k <;> decide
  have whole := oneLine_clean (trimSpace s)
  simp only [status]
  generalize clean (trimSpace s) = t at whole ⊢
  cases t with
  | nil => exact oneLine_cons.mpr ⟨digit, by decide⟩
  | cons c rest =>
    have later := (oneLine_cons.mp whole).2
    dsimp only
    split
    · exact oneLine_cons.mpr ⟨digit, later⟩
    · exact whole

theorem oneLine_diagnostic (s : Chars) : OneLine (diagnostic s) := by
  simp only [diagnostic]
  split
  · simp [oneLine_clean]
  · simp [oneLine_clean]

theorem oneLine_action (k : Kind) : OneLine k.action := by cases k <;> decide

theorem single_of (named : ':' ∉ name ∧ OneLine name) (plain : OneLine value) : Field.Single ⟨name, value⟩ := by
  refine ⟨named.1, ?_⟩
  simp only [Field.line, oneLine_append, oneLine_cons, named.2, plain, and_true, true_and]
  decide

theorem single_ite {p : Prop} [Decidable p] (single : f.Single) : ∀ g ∈ (if p then [f] else []), g.Single := by
  split
  · simp [single]
  · simp

theorem line_ne_nil (f : Field) : f.line ≠ [] := by simp [Field.line]

theorem header_ite {p : Prop} [Decidable p] (named : OneLine name) (plain : OneLine value) :
    (if p then header name value else []) = ended ((if p then [(⟨name, value⟩ : Field)] else []).map Field.line) := by
  split
  · exact header_line named plain
  · rfl

end Reading

theorem splitOn_groups (first : List Field) (groups : List (List Field)) :
    (first.map Field.line ++ groups.flatMap fun group => [] :: group.map Field.line).splitOn [] =
      (first :: groups).map (List.map Field.line) := by
  have plain (fs : List Field) : [] ∉ fs.map Field.line := by
    intro member
    obtain ⟨f, _, none⟩ := List.mem_map.mp member
    exact line_ne_nil f none
  induction groups generalizing first with
  | nil =>
    rw [List.flatMap_nil, List.append_nil, List.splitOn_eq_singleton (plain first)]
    rfl
  | cons group groups ih =>
    rw [List.flatMap_cons, List.cons_append, List.splitOn_append_cons_self, List.splitOn_eq_singleton (plain first), ih]
    rfl

section Values
variable (rc : Rcpt)

def origType [LowerCase] : Chars := if toLower rc.origType = [] then "rfc822".toList else toLower rc.origType

theorem oneLine_original [LowerCase] : OneLine (clean (origType rc) ++ "; ".toList ++ xtext rc.origAddr) := by
  simp [oneLine_clean, oneLine_xtext]

theorem oneLine_final : OneLine ("rfc822; ".toList ++ clean rc.addr) := by simp [oneLine_clean]

theorem oneLine_remote : OneLine ("dns; ".toList ++ clean rc.remoteMTA) := by simp [oneLine_clean]

end Values

section Fields
variable [Zone] (r : Report)

def messageList : List Field :=
  [⟨"Reporting-MTA".toList, "dns; ".toList ++ clean r.reportingMTA⟩] ++
    (if r.envelopeID ≠ [] then [⟨"Original-Envelope-Id".toList, xtext r.envelopeID⟩] else []) ++
    (if r.originalID ≠ [] then [⟨"X-NGM-Original-Envelope".toList, clean r.originalID⟩] else []) ++
    (if r.arrivalDate ≠ zeroTime then [⟨"Arrival-Date".toList, rfc1123Z r.arrivalDate⟩] else [])

theorem messageFields_eq : messageFields r = ended ((messageList r).map Field.line) := by
  have mta : OneLine ("dns; ".toList ++ clean r.reportingMTA) := by simp [oneLine_clean]
  simp only [messageFields, messageList, List.map_append, ended_append]
  rw [header_line (by decide) mta, header_ite (by decide) (oneLine_xtext _), header_ite (by decide) (oneLine_clean _),
    header_ite (by decide) (oneLine_rfc1123Z _)]
  rfl

theorem messageList_names : (messageList r).map Field.name = messageNames r := by
  simp only [messageList, messageNames, List.map_append, apply_ite (List.map Field.name), List.map_cons, List.map_nil]

theorem messageList_single : ∀ f ∈ messageList r, f.Single := by
  have mta : OneLine ("dns; ".toList ++ clean r.reportingMTA) := by simp [oneLine_clean]
  simp only [messageList, List.forall_mem_append, List.forall_mem_singleton]
  exact ⟨⟨⟨single_of (by decide) mta, single_ite (single_of (by decide) (oneLine_xtext _))⟩,
    single_ite (single_of (by decide) (oneLine_clean _))⟩, single_ite (single_of (by decide) (oneLine_rfc1123Z _))⟩

variable [LowerCase] (rc : Rcpt)

def rcptList : List Field :=
  (if rc.origAddr ≠ [] then
    [⟨"Original-Recipient".toList, clean (origType rc) ++ "; ".toList ++ xtext rc.origAddr⟩] else []) ++
  [⟨"Final-Recipient".toList, "rfc822; ".toList ++ clean rc.addr⟩] ++ [⟨"Action".toList, r.kind.action⟩] ++
  [⟨"Status".toList, status rc.status r.kind⟩] ++
  (if rc.remoteMTA ≠ [] then [⟨"Remote-MTA".toList, "dns; ".toList ++ clean rc.remoteMTA⟩] else []) ++
  (if rc.diagnostic ≠ [] then [⟨"Diagnostic-Code".toList, diagnostic rc.diagnostic⟩] else []) ++
  [⟨"Last-Attempt-Date".toList, rfc1123Z (rc.lastAttempt.getD r.now)⟩]

theorem rcptFields_eq : rcptFields r rc = ended ((rcptList r rc).map Field.line) := by
  simp only [rcptList, List.map_append, ended_append]
  rw [← header_ite (by decide) (oneLine_original rc), ← header_ite (by decide) (oneLine_remote rc),
    ← header_ite (by decide) (oneLine_diagnostic rc.diagnostic)]
  simp only [List.map_cons, List.map_nil]
  rw [← header_line (by decide) (oneLine_final rc), ← header_line (by decide) (oneLine_action r.kind),
    ← header_line (by decide) (oneLine_status rc.status r.kind), ← header_line (by decide) (oneLine_rfc1123Z _)]
  rfl

theorem rcptList_names : (rcptList r rc).map Field.name = rcptNames rc := by
  simp only [rcptList, rcptNames, List.map_append, apply_ite (List.map Field.name), List.map_cons, List.map_nil,
    List.append_assoc, List.cons_append, List.nil_append]

theorem rcptList_single : ∀ f ∈ rcptList r rc, f.Single := by
  simp only [rcptList, List.forall_mem_append, List.forall_mem_singleton]
  refine ⟨⟨⟨⟨⟨⟨?_, ?_⟩, ?_⟩, ?_⟩, ?_⟩, ?_⟩, ?_⟩
  · exact single_ite (single_of (by decide) (oneLine_original rc))
  · exact single_of (by decide) (oneLine_final rc)
  · exact single_of (by decide) (oneLine_action r.kind)
  · exact single_of (by decide) (oneLine_status rc.status r.kind)
  · exact single_ite (single_of (by decide) (oneLine_remote rc))
  · exact single_ite (single_of (by decide) (oneLine_diagnostic rc.diagnostic))
  · exact single_of (by decide) (oneLine_rfc1123Z _)

/-- Whatever a report says, each field has a line to itself and each recipient a group. -/
theorem readGroups_statusText :
    readGroups (statusText r) = some (messageList r :: r.rcpts.map (rcptList r)) := by
  have whole : statusText r = ended ((messageList r).map Field.line ++
      (r.rcpts.map (rcptList r)).flatMap fun group => [] :: group.map Field.line) := by
    rw [statusText, messageFields_eq, ended_append, List.flatMap_map]
    congr 1
    induction r.rcpts with
    | nil => rfl
    | cons rc rcpts ih =>
      rw [List.flatMap_cons, List.flatMap_cons, ended_append, ← ih, rcptFields_eq]
      rfl
  have single : ∀ fs ∈ messageList r :: r.rcpts.map (rcptList r), ∀ f ∈ fs, f.Single := by
    intro fs member
    rcases List.mem_cons.mp member with rfl | member
    · exact messageList_single r
    · obtain ⟨rc, _, rfl⟩ := List.mem_map.mp member
      exact rcptList_single r rc
  have plain : ∀ l ∈ (messageList r).map Field.line ++
      (r.rcpts.map (rcptList r)).flatMap fun group => [] :: group.map Field.line, '\n' ∉ l := by
    intro l member
    rcases List.mem_append.mp member with here | here
    · obtain ⟨f, within, rfl⟩ := List.mem_map.mp here
      exact (messageList_single r f within).2.2
    · obtain ⟨fs, group, here⟩ := List.mem_flatMap.mp here
      rcases List.mem_cons.mp here with rfl | here
      · exact List.not_mem_nil
      · obtain ⟨f, within, rfl⟩ := List.mem_map.mp here
        exact (single fs (List.mem_cons_of_mem _ group) f within).2.2
  have lines := rows_ended (by decide : '\r' ≠ '\n') plain []
  rw [List.append_nil] at lines
  have ends : rows '\r' '\n' (statusText r) = ((messageList r).map Field.line ++
      (r.rcpts.map (rcptList r)).flatMap fun group => [] :: group.map Field.line) ++ [[]] := by
    rw [whole]
    exact lines
  simp only [readGroups, ends, List.getLast?_concat, if_true, List.dropLast_concat, splitOn_groups]
  refine mapM_map fun fs member => mapM_map fun f within => ?_
  exact readField_line (single fs member f within).1 (single fs member f within).2

end Fields

section Validity
variable {s t : Chars} {k : Kind} {c : Char} {rest : Chars}

def Codes (rest : Chars) : Prop := ∃ subject detail, rest = '.' :: (subject ++ '.' :: detail) ∧ Numeral subject ∧ Numeral detail

theorem validStatus_cons : ValidStatus (c :: rest) ↔ (c = '2' ∨ c = '4' ∨ c = '5') ∧ Codes rest := by
  simp only [ValidStatus, Codes, List.cons.injEq]
  constructor
  · rintro ⟨c, subject, detail, ⟨rfl, rfl⟩, known, left, right⟩
    exact ⟨known, subject, detail, rfl, left, right⟩
  · rintro ⟨known, subject, detail, rfl, left, right⟩
    exact ⟨c, subject, detail, ⟨rfl, rfl⟩, known, left, right⟩

theorem class_known (k : Kind) : k.class = '2' ∨ k.class = '4' ∨ k.class = '5' := by cases k <;> decide

theorem action_injective {k l : Kind} (same : k.action = l.action) : k = l := by
  cases k <;> cases l <;> first | rfl | exact absurd same (by decide)

theorem agrees_iff (k : Kind) (s : Chars) : Agrees k.action s ↔ s.head? = some k.class := by
  constructor
  · rintro (⟨same, head⟩ | ⟨same, head⟩ | ⟨same, head⟩)
    · rw [action_injective (l := .failed) same, head]
      rfl
    · rw [action_injective (l := .delayed) same, head]
      rfl
    · rw [action_injective (l := .relayed) same, head]
      rfl
  · intro head
    cases k with
    | failed => exact .inl ⟨rfl, head⟩
    | delayed => exact .inr (.inl ⟨rfl, head⟩)
    | relayed => exact .inr (.inr ⟨rfl, head⟩)

/-- The status of a report is one, and of the right class, when none is given or one that is well formed. -/
theorem status_valid_iff : (ValidStatus (status s k) ∧ Agrees k.action (status s k)) ↔ Given s := by
  rw [agrees_iff, Given, status]
  cases here : clean (trimSpace s) with
  | nil =>
    simp only [List.head?_cons, and_true, true_or, iff_true]
    have zero : Numeral ['0'] := ⟨by decide, by decide, by decide⟩
    exact validStatus_cons.mpr ⟨class_known k, ['0'], ['0'], by decide, zero, zero⟩
  | cons c rest =>
    have other : c :: rest ≠ [] := List.cons_ne_nil c rest
    simp only [other, false_or]
    rw [validStatus_cons]
    split
    · rename_i corrected
      rw [validStatus_cons]
      simp only [class_known, corrected.2, List.head?_cons, and_true, true_and]
    · rename_i kept
      rw [validStatus_cons, List.head?_cons, Option.some.injEq]
      constructor
      · exact And.left
      · intro valid
        refine ⟨valid, ?_⟩
        by_contra apart
        exact kept ⟨apart, valid.1⟩

end Validity

theorem mem_ite {p : Prop} [Decidable p] {f g : Field} (member : f ∈ if p then [g] else []) : f = g := by
  split at member
  · exact List.mem_singleton.mp member
  · cases member

theorem forall₂_map {α β : Type} {p : α → β → Prop} {f : α → β} {xs : List α} :
    List.Forall₂ p xs (xs.map f) ↔ ∀ x ∈ xs, p x (f x) := by
  rw [List.forall₂_map_right_iff, List.forall₂_same]

section Groups
variable [Zone] [LowerCase] (r : Report) (rc : Rcpt)

theorem value_of_mem {name value : Chars} (member : ⟨name, value⟩ ∈ rcptList r rc) :
    (name = "Action".toList → value = r.kind.action) ∧ (name = "Status".toList → value = status rc.status r.kind) := by
  have apart {other given : Chars} (same : (⟨name, value⟩ : Field) = ⟨other, given⟩)
      (different : other ≠ "Action".toList ∧ other ≠ "Status".toList) :
      (name = "Action".toList → value = r.kind.action) ∧ (name = "Status".toList → value = status rc.status r.kind) := by
    obtain ⟨rfl, rfl⟩ := Field.mk.inj same
    exact ⟨fun here => absurd here different.1, fun here => absurd here different.2⟩
  simp only [rcptList, List.mem_append] at member
  rcases member with (((((here | here) | here) | here) | here) | here) | here
  · exact apart (mem_ite here) (by decide)
  · exact apart (List.mem_singleton.mp here) (by decide)
  · obtain ⟨rfl, rfl⟩ := Field.mk.inj (List.mem_singleton.mp here)
    exact ⟨fun _ => rfl, fun other => absurd other (by decide)⟩
  · obtain ⟨rfl, rfl⟩ := Field.mk.inj (List.mem_singleton.mp here)
    exact ⟨fun other => absurd other (by decide), fun _ => rfl⟩
  · exact apart (mem_ite here) (by decide)
  · exact apart (mem_ite here) (by decide)
  · exact apart (List.mem_singleton.mp here) (by decide)

theorem rcptGroup_iff : RcptGroup rc (rcptList r rc) ↔ Given rc.status := by
  rw [← status_valid_iff (k := r.kind), RcptGroup]
  constructor
  · rintro ⟨_, action, status, action_here, status_here, valid, agrees⟩
    rw [(value_of_mem r rc action_here).1 rfl] at agrees
    rw [(value_of_mem r rc status_here).2 rfl] at valid agrees
    exact ⟨valid, agrees⟩
  · intro ⟨valid, agrees⟩
    refine ⟨rcptList_names r rc, r.kind.action, status rc.status r.kind, ?_, ?_, valid, agrees⟩
    · simp only [rcptList, List.mem_append, List.mem_singleton, true_or, or_true]
    · simp only [rcptList, List.mem_append, List.mem_singleton, true_or, or_true]

end Groups

/-- Each field has a line to itself and each recipient a group, and the statuses are well formed and agree
    with the action when those that are given are well formed. -/
theorem wellFormed_iff [Zone] [LowerCase] (r : Report) : WellFormed r ↔ ∀ rc ∈ r.rcpts, Given rc.status := by
  rw [WellFormed, readGroups_statusText]
  constructor
  · rintro ⟨message, groups, same, _, each⟩
    obtain ⟨rfl, rfl⟩ := List.cons.inj (Option.some.inj same)
    intro rc member
    exact (rcptGroup_iff r rc).mp (forall₂_map.mp each rc member)
  · intro given
    refine ⟨messageList r, r.rcpts.map (rcptList r), rfl, messageList_names r, forall₂_map.mpr ?_⟩
    intro rc member
    exact (rcptGroup_iff r rc).mpr (given rc member)

section Ruled
open scoped Utc Text.Ascii
open Rules

/-- Of the statuses that a rule may choose, three numbers, those of a known class and with numbers of at most
    three digits are the right ones. -/
theorem given_iff_of_parsed {s x y z : Chars} (parts : (trimSpace s).splitOn '.' = [x, y, z])
    (parsed : parseEnhanced (trimSpace s) ≠ none) :
    Given s ↔ (x = ['2'] ∨ x = ['4'] ∨ x = ['5']) ∧ y.length ≤ 3 ∧ z.length ≤ 3 := by
  have digits : ∀ part ∈ [x, y, z], part ≠ [] ∧ ∀ c ∈ part, c.isDigit = true := by
    by_contra other
    refine parsed ?_
    rw [parseEnhanced, parts]
    apply if_neg
    intro all
    apply other
    intro part member
    have each := List.all_eq_true.mp all part member
    simpa [Bool.and_eq_true, List.all_eq_true] using each
  obtain ⟨x_some, x_digits⟩ := digits x (by simp)
  obtain ⟨y_some, y_digits⟩ := digits y (by simp)
  obtain ⟨z_some, z_digits⟩ := digits z (by simp)
  have no_dot {t : Chars} (digits : ∀ c ∈ t, c.isDigit = true) : '.' ∉ t := fun member => absurd (digits _ member) (by decide)
  have whole : trimSpace s = x ++ '.' :: (y ++ '.' :: z) := by
    have joined : ['.'].intercalate ((trimSpace s).splitOn '.') = trimSpace s := List.intercalate_splitOn '.'
    rw [parts] at joined
    rw [← joined]
    simp [List.intercalate]
  have same : clean (trimSpace s) = x ++ '.' :: (y ++ '.' :: z) := by
    rw [clean_of_oneLine, whole]
    rw [whole]
    simp [oneLine_of_isDigit x_digits, oneLine_of_isDigit y_digits, oneLine_of_isDigit z_digits]
  rw [Given, same]
  constructor
  · rintro (none | ⟨c, subject, detail, split, known, ⟨_, short, subject_digits⟩, _, short', _⟩)
    · simp at none
    · have lone : '.' ∉ [c] := by
        rcases known with rfl | rfl | rfl <;> decide
      obtain ⟨rfl, rest⟩ := append_sep_inj (no_dot x_digits) lone split
      obtain ⟨rfl, rfl⟩ := append_sep_inj (no_dot y_digits) (no_dot (List.all_eq_true.mp subject_digits)) rest
      exact ⟨by simpa using known, short, short'⟩
  · rintro ⟨known, short, short'⟩
    right
    have y_num : Numeral y := ⟨y_some, short, List.all_eq_true.mpr y_digits⟩
    have z_num : Numeral z := ⟨z_some, short', List.all_eq_true.mpr z_digits⟩
    rcases known with rfl | rfl | rfl
    · exact ⟨_, y, z, rfl, by decide, y_num, z_num⟩
    · exact ⟨_, y, z, rfl, by decide, y_num, z_num⟩
    · exact ⟨_, y, z, rfl, by decide, y_num, z_num⟩

def ruledReport (enhanced : Chars) : Report where
  reportingMTA := "gw".toList
  fromAddr := "p@gw".toList
  toAddr := "a@ngm.dev".toList
  kind := .failed
  originalID := []
  messageID := []
  arrivalDate := 0
  now := 0
  rcpts := [Smtp.FailedRcpt.describe
    ⟨"b@partner.com".toList, .reject 550 enhanced "no".toList, [], [], [], "r1".toList⟩]

theorem ruled_status_passes :
    validateAction none [] .policy (.reject 550 "3.7.1".toList "no".toList) =
        .ok (.reject 550 "3.7.1".toList "no".toList) ∧
      (∃ written, render (ruledReport "3.7.1".toList) = .ok written) ∧ ¬ WellFormed (ruledReport "3.7.1".toList) := by
  refine ⟨by decide, ⟨_, rfl⟩, ?_⟩
  rintro ⟨message, groups, read, _, each⟩
  rw [readGroups_statusText] at read
  obtain ⟨rfl, rfl⟩ := List.cons.inj (Option.some.inj read)
  have given := (rcptGroup_iff _ _).mp (forall₂_map.mp each _ List.mem_cons_self)
  have shape : clean (trimSpace "3.7.1".toList) = "3.7.1".toList := by decide
  rcases given with none | ⟨c, subject, detail, same, known, _⟩
  · exact absurd (shape.symm.trans none) (by decide)
  · have three : '3' = c := (List.cons.inj (shape.symm.trans same)).1
    rw [← three] at known
    exact absurd known (by decide)

end Ruled

end Mailgw.Dsn
