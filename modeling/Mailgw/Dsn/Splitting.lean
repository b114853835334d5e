import Mailgw.Dsn.Lines

namespace Mailgw.Dsn

open Deliver Text

def delimiter : Bytes := encode boundary

def typeField (contentType : Chars) : Line := encode ("Content-Type: ".toList ++ contentType)

def intended [Zone] [LowerCase] (r : Report) : List Entity :=
  [⟨[typeField "text/plain; charset=utf-8".toList], encode (humanText r)⟩,
    ⟨[typeField "message/delivery-status".toList], encode (statusText r)⟩] ++
  match r.original with
  | none => []
  | some original => [⟨[typeField (originalType r)], original.readable⟩]

/-- No line of the original and no line after the first of the name of the mail system begins with the
    boundary, and the original is empty or ends its last line. -/
def Quotable (r : Report) : Prop :=
  (∀ line ∈ (messageLines (encode r.reportingMTA)).tail, ¬ Delimits delimiter line) ∧
    ∀ original, r.original = some original →
      (∀ line ∈ messageLines original.readable, ¬ Delimits delimiter line) ∧
        (original.readable = [] ∨ [LF] <:+ original.readable)

def delimiterLine : Line := encode ("--".toList ++ boundary)
def closingLine : Line := encode ("--".toList ++ boundary ++ "--".toList)

def Quiet (ls : List Line) : Prop := ∀ line ∈ ls, ¬ Delimits delimiter line

def Dashless (l : Chars) : Prop := l.head? ≠ some '-'

instance (l : Chars) : Decidable (Dashless l) := inferInstanceAs (Decidable (_ ≠ _))

section Quiet
variable {ls ms : List Line} {line : Line} {s contentType name value : Chars}

@[simp] theorem quiet_append : Quiet (ls ++ ms) ↔ Quiet ls ∧ Quiet ms := by
  simp only [Quiet, List.mem_append]
  constructor
  · intro quiet
    exact ⟨fun line member => quiet line (.inl member), fun line member => quiet line (.inr member)⟩
  · intro ⟨left, right⟩ line member
    exact member.elim (left line) (right line)

@[simp] theorem quiet_cons : Quiet (line :: ls) ↔ ¬ Delimits delimiter line ∧ Quiet ls := by
  rw [← List.singleton_append, quiet_append]
  simp [Quiet]

theorem quiet_of_made (made : Made Dashless s) (ys : Bytes) :
    Quiet (messageLines (encode s ++ ys)) ↔ Quiet (messageLines ys) := by
  obtain ⟨ls, rfl, lines⟩ := made
  rw [messageLines_ended fun l member => (lines l member).1, quiet_append]
  constructor
  · exact And.right
  · intro later
    refine ⟨?_, later⟩
    intro line member delimits
    obtain ⟨l, here, rfl⟩ := List.mem_map.mp member
    exact (lines l here).2 (head?_of_delimits delimits)

theorem not_delimits_nil : ¬ Delimits delimiter [] := fun delimits => delimits.ne_nil rfl

theorem not_delimits_typeField : ¬ Delimits delimiter (typeField contentType) := by
  intro delimits
  have head := head?_of_delimits delimits
  have other : "Content-Type: ".toList.head? = some 'C' := by decide
  rw [List.head?_append, other, Option.some_or] at head
  exact absurd head (by decide)

theorem delimits_delimiterLine : Delimits delimiter delimiterLine := by decide
theorem not_closes_delimiterLine : ¬ Closes delimiter delimiterLine := by decide
theorem closes_closingLine : Closes delimiter closingLine := by decide

end Quiet

section Lines
variable {r : Report} {contentType name value : Chars}

theorem messageLines_part (plain : OneLine contentType) (body ys : Bytes) :
    messageLines (encode (part contentType) ++ body ++ CRLF ++ ys) =
      delimiterLine :: (partLines (typeField contentType) body ++ messageLines ys) := by
  have begins : part contentType = ended ["--".toList ++ boundary, "Content-Type: ".toList ++ contentType, []] := by
    rw [part, header_of_oneLine (by decide) plain]
    simp [ended]
  have lines : ∀ l ∈ ["--".toList ++ boundary, "Content-Type: ".toList ++ contentType, []], OneLine l := by
    simp only [List.mem_cons, List.not_mem_nil, or_false, forall_eq_or_imp, forall_eq, oneLine_append, plain, and_true]
    decide
  have split : encode (part contentType) ++ body ++ CRLF ++ ys = encode (part contentType) ++ (body ++ CRLF ++ ys) := by
    simp
  rw [split, begins, messageLines_ended lines, messageLines_append]
  rfl

theorem topFields_made [Zone] (r : Report) : Made Inner (topFields r) := by
  simp only [topFields]
  repeat' first | with_reducible apply Made.append | with_reducible apply Made.ite
  all_goals exact header_made (by decide)

theorem Made.crlf {kind : Chars → Prop} (blank : kind []) : Made kind crlf := Made.line oneLine_nil blank

theorem header_dashless {name value : Chars} (dash : name.head? ≠ some '-') : Made Dashless (header name value) :=
  (header_made dash).mono fun _ inner => inner.2

theorem statusText_made [Zone] [LowerCase] (r : Report) : Made Dashless (statusText r) := by
  have blank : Made Dashless Dsn.crlf := Made.crlf (by decide)
  have fields (rc : Rcpt) : Made Dashless (rcptFields r rc) := by
    simp only [rcptFields]
    repeat' first | with_reducible apply Made.append | with_reducible apply Made.ite
    all_goals exact header_dashless (by decide)
  refine Made.append ?_ (Made.flatMap fun rc _ => blank.append (fields rc))
  simp only [messageFields]
  repeat' first | with_reducible apply Made.append | with_reducible apply Made.ite
  all_goals exact header_dashless (by decide)

theorem explanation_made [Zone] (r : Report) : Made Dashless (explanation r) := by
  have line (l : Chars) (plain : OneLine l ∧ Dashless l) : Made Dashless (l ++ Dsn.crlf) := Made.line plain.1 plain.2
  simp only [explanation]
  cases r.kind with
  | delayed =>
    refine ((line _ (by decide)).append (line _ (by decide))).append ?_
    cases r.retryUntil with
    | none => exact Made.nil
    | some until_ =>
      refine Made.append (Made.crlf (by decide)) (line _ ⟨?_, by simp [Dashless]⟩)
      simp only [oneLine_append, oneLine_rfc1123Z, and_true]
      decide
  | relayed =>
    exact (((line _ (by decide)).append (line _ (by decide))).append (line _ (by decide))).append
      (line _ (by decide))
  | failed => exact (line _ (by decide)).append (line _ (by decide))

theorem outcome_made (rc : Rcpt) : Made Dashless (outcome rc) := by
  have addr : Made Dashless ("  <".toList ++ clean rc.addr ++ ">".toList ++ Dsn.crlf) := by
    apply Made.line
    · simp [oneLine_clean]
    · simp [Dashless]
  have said : Made Dashless ("    ".toList ++ clean rc.diagnostic ++ Dsn.crlf) := by
    apply Made.line
    · simp [oneLine_clean]
    · simp [Dashless]
  exact addr.append said.ite

theorem delimits_stop (l : Chars) : Delimits delimiter (encode (l ++ ['.'])) ↔ Delimits delimiter (encode l) := by
  have stop : encode (l ++ ['.']) = encode l ++ [DOT] := encode_append l ['.']
  have other : dashes ++ delimiter ≠ encode l ++ [DOT] := by
    intro same
    have last := congrArg List.getLast? same
    rw [List.getLast?_concat] at last
    exact absurd last (by decide)
  rw [Delimits, stop, List.prefix_concat_iff, Delimits]
  constructor
  · intro begins
    exact begins.resolve_left other
  · exact Or.inr

theorem quiet_ontoLast (ls : List Chars) (some : ls ≠ []) : Quiet ((ontoLast '.' ls).map encode) ↔ Quiet (ls.map encode) := by
  induction ls with
  | nil => exact absurd rfl some
  | cons l ls ih =>
    cases ls with
    | nil => simp [ontoLast, Quiet, delimits_stop]
    | cons next more =>
      rw [ontoLast_cons (List.cons_ne_nil next more), List.map_cons, quiet_cons, ih (List.cons_ne_nil next more)]
      exact quiet_cons.symm

/-- A name in the first line of a text can bring a delimiter into it only with a line of its own. -/
theorem quiet_after {begins name rest : Chars} (plain : '\r' ∉ begins)
    (first : ∀ l, ¬ Delimits delimiter (encode (begins ++ l))) (made : Made Dashless rest) :
    Quiet (messageLines (encode (begins ++ name ++ ['.'] ++ Dsn.crlf ++ rest))) ↔
      Quiet (messageLines (encode name)).tail := by
  have quiet : Quiet (messageLines (encode rest)) := by
    have whole := quiet_of_made made []
    rw [List.append_nil] at whole
    exact whole.mpr (quiet_cons.mpr ⟨not_delimits_nil, by simp [Quiet]⟩)
  have ends : encode Dsn.crlf = CRLF := by decide
  rw [encode_append _ rest, encode_append _ Dsn.crlf, ends, messageLines_append, quiet_append, List.append_assoc begins,
    messageLines_encode, messageLines_encode name, rows_prepend plain, rows_snoc (by decide)]
  simp only [quiet, and_true]
  cases names : rows '\r' '\n' name with
  | nil => exact absurd names (rows_ne_nil _)
  | cons l ls =>
    cases ls with
    | nil =>
      have one := first (l ++ ['.'])
      simp [ontoLast, ontoFirst, Quiet, one]
    | cons next more =>
      have some : next :: more ≠ [] := List.cons_ne_nil next more
      rw [ontoLast_cons some, ontoFirst, List.map_cons, quiet_cons, quiet_ontoLast _ some]
      simp only [first l, not_false_eq_true, true_and, List.map_cons, List.tail_cons]

theorem quiet_humanText [Zone] (r : Report) :
    Quiet (messageLines (encode (humanText r))) ↔ Quiet (messageLines (encode r.reportingMTA)).tail := by
  have blank : Made Dashless Dsn.crlf := Made.crlf (by decide)
  have outcomes : Made Dashless (r.rcpts.flatMap outcome) := Made.flatMap fun rc _ => outcome_made rc
  have made := ((blank.append (explanation_made r)).append blank).append outcomes
  refine quiet_after (by decide) (fun l delimits => ?_) made
  have head := head?_of_delimits delimits
  have other : "This is the mail system at ".toList.head? = some 'T' := by decide
  rw [List.head?_append, other, Option.some_or] at head
  exact absurd head (by decide)

end Lines

def quoted (buf : Bytes) : Bytes := buf ++ if buf ≠ [] ∧ ¬ [LF] <:+ buf then CRLF else []

def afterStatus (r : Report) : List Line :=
  match r.original with
  | none => [closingLine, []]
  | some original =>
    delimiterLine :: (partLines (typeField (originalType r)) (quoted original.readable) ++ [closingLine, []])

theorem oneLine_originalType (r : Report) : OneLine (originalType r) := by
  simp only [originalType]
  split <;> decide

theorem encode_crlf : encode crlf = CRLF := by decide

theorem entity_part (contentType : Chars) (s : Bytes) :
    entity (partLines (typeField contentType) s) = ⟨[typeField contentType], s⟩ := by
  have some : typeField contentType ≠ [] := encode_ne_nil (by simp)
  rw [partLines, entity_partLines some, joinLines_messageLines]

theorem quiet_partLines {contentType : Chars} {s : Bytes} :
    Quiet (partLines (typeField contentType) s) ↔ Quiet (messageLines s) := by
  simp only [partLines, quiet_cons, not_delimits_typeField, not_delimits_nil, not_false_eq_true, true_and]

theorem quoted_eq_iff {buf : Bytes} : quoted buf = buf ↔ buf = [] ∨ [LF] <:+ buf := by
  simp only [quoted]
  split
  · rename_i open_
    simp [CRLF, open_]
  · rename_i whole
    simp only [List.append_nil, true_iff]
    by_contra neither
    simp only [not_or] at neither
    exact whole neither

theorem messageLines_quoted (buf : Bytes) : ∃ more, messageLines (quoted buf) = messageLines buf ++ more ∧ Quiet more := by
  simp only [quoted]
  split
  · refine ⟨[[]], ?_, quiet_cons.mpr ⟨not_delimits_nil, by simp [Quiet]⟩⟩
    have split := messageLines_append buf []
    rw [List.append_nil] at split
    exact split
  · exact ⟨[], by rw [List.append_nil, List.append_nil], by simp [Quiet]⟩

/-- The original is read back as it was only when no line of it delimits and its last line has an end. -/
theorem original_iff {contentType : Chars} {buf : Bytes} :
    (partsFrom delimiter (partLines (typeField contentType) (quoted buf) ++ [closingLine, []])).map (List.map entity) =
        some [⟨[typeField contentType], buf⟩] ↔
      Quiet (messageLines buf) ∧ (buf = [] ∨ [LF] <:+ buf) := by
  obtain ⟨more, lines, silent⟩ := messageLines_quoted buf
  have part (quiet : Quiet (messageLines buf)) :
      partsFrom delimiter (partLines (typeField contentType) (quoted buf) ++ [closingLine, []]) =
        some [partLines (typeField contentType) (quoted buf)] :=
    partsFrom_last (quiet_partLines.mpr (by rw [lines]; exact quiet_append.mpr ⟨quiet, silent⟩)) closes_closingLine [[]]
  constructor
  · intro same
    obtain ⟨found, read, same⟩ := Option.map_eq_some_iff.mp same
    have split : partLines (typeField contentType) (quoted buf) ++ [closingLine, []] =
        partLines (typeField contentType) buf ++ (more ++ [closingLine, []]) := by
      simp [partLines, lines]
    have quiet : Quiet (messageLines buf) := by
      rw [split] at read
      exact quiet_of_part (encode_ne_nil (by simp)) not_delimits_typeField read (by rw [same]; rfl)
    refine ⟨quiet, quoted_eq_iff.mp ?_⟩
    rw [part quiet] at read
    cases read
    rw [List.map_singleton, entity_part] at same
    exact congrArg Entity.body (List.singleton_inj.mp same)
  · rintro ⟨quiet, ends⟩
    rw [part quiet, Option.map_some, List.map_singleton, entity_part, quoted_eq_iff.mpr ends]

theorem parts_skip {ls : List Line} (quiet : Quiet ls) (rest : List Line) :
    parts delimiter (ls ++ delimiterLine :: rest) = partsFrom delimiter rest := by
  have skip : (ls ++ delimiterLine :: rest).dropWhile (fun line => decide (¬ Delimits delimiter line)) =
      delimiterLine :: rest := by
    rw [List.dropWhile_append_of_pos fun line member => decide_eq_true (quiet line member),
      List.dropWhile_cons_of_neg (by simp [delimits_delimiterLine])]
  rw [parts, skip]
  exact if_neg not_closes_delimiterLine

theorem messageLines_afterStatus (r : Report) :
    messageLines (writeOriginal r ++ encode ("--".toList ++ boundary ++ "--".toList ++ crlf)) = afterStatus r := by
  have closing : messageLines (encode ("--".toList ++ boundary ++ "--".toList ++ crlf)) = [closingLine, []] := by
    have plain : LF ∉ closingLine := by decide
    rw [encode_append _ crlf, encode_crlf, ← List.append_nil (encode _ ++ CRLF), messageLines_append]
    exact congrArg (· ++ [[]]) (messageLines_of_not_mem plain)
  simp only [writeOriginal, afterStatus]
  cases r.original with
  | none => exact closing
  | some original =>
    have part := messageLines_part (oneLine_originalType r) (quoted original.readable)
      (encode ("--".toList ++ boundary ++ "--".toList ++ crlf))
    rw [closing] at part
    simpa only [quoted, List.append_assoc] using part

section Report
variable [Zone] [LowerCase] {r : Report} {written : Bytes}

theorem multipart_text (r : Report) :
    multipart delimiter (text r) =
      (partsFrom delimiter (partLines (typeField "text/plain; charset=utf-8".toList) (encode (humanText r)) ++
        delimiterLine :: (partLines (typeField "message/delivery-status".toList) (encode (statusText r)) ++
          afterStatus r))).map (List.map entity) := by
  obtain ⟨fields, top, inner⟩ := topFields_made r
  have whole : text r = encode (ended (fields ++ [[], "This is a MIME-encapsulated message.".toList, []])) ++
      (encode (part "text/plain; charset=utf-8".toList) ++ encode (humanText r) ++ CRLF ++
        (encode (part "message/delivery-status".toList) ++ encode (statusText r) ++ CRLF ++
          (writeOriginal r ++ encode ("--".toList ++ boundary ++ "--".toList ++ crlf)))) := by
    have before : writeTop r = ended (fields ++ [[], "This is a MIME-encapsulated message.".toList, []]) := by
      rw [writeTop, top, ended_append]
      simp only [ended, List.flatMap_cons, List.flatMap_nil, List.append_assoc, List.nil_append, List.append_nil]
    rw [text, before, writeHuman, writeStatus]
    simp only [encode_append, encode_crlf, List.append_assoc]
  have blanks : ∀ l ∈ [[], "This is a MIME-encapsulated message.".toList, []], OneLine l := by decide
  have plain : ∀ l ∈ fields ++ [[], "This is a MIME-encapsulated message.".toList, []], OneLine l := by
    intro l member
    rcases List.mem_append.mp member with field | rest
    · exact (inner l field).1
    · exact blanks l rest
  have filled : ∀ line ∈ fields.map encode, decide (line ≠ []) = true := by
    intro line member
    obtain ⟨l, here, rfl⟩ := List.mem_map.mp member
    exact decide_eq_true (encode_ne_nil (inner l here).2.1)
  have preamble : Quiet [encode "This is a MIME-encapsulated message.".toList, []] := by
    refine quiet_cons.mpr ⟨by decide, quiet_cons.mpr ⟨not_delimits_nil, by simp [Quiet]⟩⟩
  rw [multipart, whole, messageLines_ended plain, messageLines_part (by decide), messageLines_part (by decide),
    messageLines_afterStatus, List.map_append, List.append_assoc, List.dropWhile_append_of_pos filled,
    ← parts_skip preamble]
  rfl

theorem multipart_of_quiet (quiet : Quiet (messageLines (encode (humanText r)))) :
    multipart delimiter (text r) =
      match r.original with
      | none => some (intended r)
      | some original =>
        (partsFrom delimiter (partLines (typeField (originalType r)) (quoted original.readable) ++ [closingLine, []])).map
          fun found => ⟨[typeField "text/plain; charset=utf-8".toList], encode (humanText r)⟩ ::
            ⟨[typeField "message/delivery-status".toList], encode (statusText r)⟩ :: found.map entity := by
  have status : Quiet (messageLines (encode (statusText r))) := by
    have whole := quiet_of_made (statusText_made r) []
    rw [List.append_nil] at whole
    exact whole.mpr (quiet_cons.mpr ⟨not_delimits_nil, by simp [Quiet]⟩)
  rw [multipart_text, partsFrom_part (quiet_partLines.mpr quiet) delimits_delimiterLine not_closes_delimiterLine, afterStatus]
  cases quotes : r.original with
  | none =>
    simp only [partsFrom_last (quiet_partLines.mpr status) closes_closingLine, Option.map_some, List.map_cons, List.map_nil,
      entity_part, intended, quotes, List.append_nil]
  | some original =>
    simp only [partsFrom_part (quiet_partLines.mpr status) delimits_delimiterLine not_closes_delimiterLine, Option.map_map]
    congr 1
    funext found
    simp only [Function.comp_apply, List.map_cons, entity_part]

theorem text_splits_iff (r : Report) : multipart delimiter (text r) = some (intended r) ↔ Quotable r := by
  by_cases quiet : Quiet (messageLines (encode (humanText r)))
  · have named := (quiet_humanText r).mp quiet
    rw [multipart_of_quiet quiet]
    cases quotes : r.original with
    | none =>
      simp only [Quotable, quotes, reduceCtorEq, false_implies, implies_true, and_true, true_iff]
      exact named
    | some original =>
      have strip (found : Option (List (List Line))) (one two : Entity) (rest : List Entity) :
          (found.map fun found => one :: two :: found.map entity) = some (one :: two :: rest) ↔
            found.map (List.map entity) = some rest := by
        cases found <;> simp
      simp only [Quotable, intended, quotes, Option.some.injEq, forall_eq']
      refine (strip _ _ _ _).trans (original_iff.trans ?_)
      constructor
      · intro ends
        exact ⟨named, ends⟩
      · exact And.right
  · constructor
    · intro split
      rw [multipart_text] at split
      obtain ⟨found, read, same⟩ := Option.map_eq_some_iff.mp split
      exact absurd (quiet_of_part (encode_ne_nil (by simp)) not_delimits_typeField read (by rw [same]; rfl)) quiet
    · intro quotable
      exact absurd ((quiet_humanText r).mpr quotable.1) quiet

/-- A report falls into the parts it is meant to have only when what it quotes lets it, and always then. -/
theorem render_splits_iff (rendered : render r = .ok written) :
    multipart delimiter written = some (intended r) ↔ Quotable r := by
  have same : written = text r := by
    cases built : build r with
    | error err =>
      rw [render, built] at rendered
      cases rendered
    | ok r' =>
      rw [render, built, build_ok built] at rendered
      exact (Except.ok.inj rendered).symm
  rw [same]
  exact text_splits_iff r

end Report

section Samples
open scoped Utc Text.Ascii

def sampleReport (original : Bytes) : Report where
  reportingMTA := "gw1.ngm.dev".toList
  fromAddr := "postmaster@gw1.ngm.dev".toList
  toAddr := "sender@ngm.dev".toList
  kind := .failed
  originalID := "A".toList
  messageID := "B".toList
  arrivalDate := 1785402900000000000
  now := 1785403230000000000
  rcpts := [{ addr := "nobody@partner.com".toList, diagnostic := "550 no".toList }]
  original := some (Reader.ofBytes original)
  full := true

/-- A report of this gateway, sent on inside another message, is cut short when that one is returned. -/
theorem quoted_boundary_splits :
    let r := sampleReport (encode "See below.\r\n--=_mailgw_dsn_boundary_ac2f19d0_=\r\n".toList)
    ∃ written, render r = .ok written ∧ multipart delimiter written ≠ some (intended r) := by
  refine ⟨_, rfl, fun splits => ?_⟩
  have lines := (((text_splits_iff _).mp splits).2 _ rfl).1
  exact absurd lines (by decide)

theorem render_splits_iff_sample :
    let r := sampleReport (encode "See below.\r\n".toList)
    multipart delimiter (text r) = some (intended r) := by
  refine (render_splits_iff (r := sampleReport (encode "See below.\r\n".toList)) rfl).mpr ⟨by decide, ?_⟩
  intro original same
  cases same
  exact ⟨by decide, .inr (by decide)⟩

end Samples

end Mailgw.Dsn
