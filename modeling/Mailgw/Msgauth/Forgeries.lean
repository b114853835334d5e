import Mailgw.Msgauth.Results
import Mailgw.Msgauth.Stripping

namespace Mailgw.Msgauth

open Deliver (Bytes Chars)
open Queue (CaseFolding equalFold trimSuffix)
open Text

def Solid (c : Char) : Prop := isSpace c = false ∧ c ≠ ';'

section FirstToken
variable {value start rest x : Chars}

theorem isSpace_of_isWhite {c : Char} (white : isWhite c = true) : isSpace c = true := by
  simp only [isWhite, List.mem_cons, List.not_mem_nil, or_false, decide_eq_true_eq] at white
  rcases white with rfl | rfl | rfl | rfl <;> decide

theorem solid_of_isTokenChar {c : Char} (token : isTokenChar c = true) : Solid c := by
  simp only [isTokenChar, Bool.and_eq_true, decide_eq_true_eq] at token
  obtain ⟨⟨low, high⟩, special⟩ := token
  constructor
  · simp only [isSpace, List.mem_cons, List.not_mem_nil, or_false, Bool.or_eq_false_iff, decide_eq_false_iff_not,
      Bool.and_eq_false_iff]
    omega
  · rintro rfl
    exact special (by decide)

theorem trimSpace_solid (before : ∀ c ∈ value, isSpace c = true) (solid : ∀ c ∈ x, isSpace c = false) (some : x ≠ [])
    (rest : Chars) :
    ∃ r, r <+: rest ∧ trimSpace (value ++ (x ++ rest)) = x ++ r := by
  refine ⟨(rest.reverse.dropWhile isSpace).reverse, ?_, ?_⟩
  · rw [← List.reverse_suffix, List.reverse_reverse]
    exact List.dropWhile_suffix _
  · have stops : (x ++ rest).dropWhile isSpace = x ++ rest := by
      cases x with
      | nil => exact absurd rfl some
      | cons c x => simp [solid c]
    have last : x.reverse.dropWhile isSpace = x.reverse := by
      cases here : x.reverse with
      | nil => rfl
      | cons c x' =>
        have member : c ∈ x := by rw [← List.mem_reverse, here]; exact List.mem_cons_self
        simp [solid c member]
    rw [trimSpace, List.dropWhile_append_of_pos before, stops, List.reverse_append, List.dropWhile_append]
    split
    · rename_i none
      rw [List.isEmpty_iff.mp none, last]
      simp
    · simp

/-- The first token of a value that begins with solid characters, and what is left of it after them. -/
theorem firstToken_solid (begins : value.dropWhile isWhite = x ++ rest) (solid : ∀ c ∈ x, Solid c) (some : x ≠ []) :
    ∃ r, r <+: rest.takeWhile (· ≠ ';') ∧ firstToken value = x ++ r.takeWhile fun c => !isWhite c := by
  have whole := List.takeWhile_append_dropWhile (p := isWhite) (l := value)
  rw [begins] at whole
  have white : ∀ c ∈ value.takeWhile isWhite, isWhite c = true := fun c member => List.mem_takeWhile_imp member
  have before : (value.takeWhile isWhite ++ (x ++ rest)).takeWhile (· ≠ ';') =
      value.takeWhile isWhite ++ (x ++ rest.takeWhile (· ≠ ';')) := by
    rw [List.takeWhile_append_of_pos, List.takeWhile_append_of_pos]
    · intro c member
      simpa using (solid c member).2
    · intro c member
      have here := white c member
      simp only [decide_eq_true_eq, ne_eq]
      rintro rfl
      exact absurd here (by decide)
  obtain ⟨r, part, trimmed⟩ := trimSpace_solid (fun c member => isSpace_of_isWhite (white c member))
    (fun c member => (solid c member).1) some (rest.takeWhile (· ≠ ';'))
  refine ⟨r, part, ?_⟩
  have same : (fun c : Char => decide (c ∉ [' ', '\t', '\r', '\n'])) = fun c => !isWhite c := by
    funext c
    simp [isWhite]
  rw [firstToken, same, ← whole, before, trimmed, List.takeWhile_append_of_pos]
  intro c member
  cases here : isWhite c with
  | false => rfl
  | true => exact absurd (isSpace_of_isWhite here) (by simp [(solid c member).1])

theorem firstToken_eq (begins : value.dropWhile isWhite = x ++ rest) (solid : ∀ c ∈ x, Solid c) (some : x ≠ [])
    (ends : rest.head?.all (fun c => isWhite c || c = ';') = true) : firstToken value = x := by
  obtain ⟨r, part, first⟩ := firstToken_solid begins solid some
  rw [first]
  cases r with
  | nil => simp
  | cons c r =>
    cases rest with
    | nil => simp at part
    | cons d rest =>
      by_cases semicolon : d = ';'
      · simp [semicolon] at part
      · obtain ⟨_, more⟩ := part
        have same : c = d := by
          rw [List.takeWhile_cons_of_pos (by simpa using semicolon)] at more
          exact (List.cons.inj more).1
        have white : isWhite c = true := by
          rw [same]
          simpa [semicolon] using ends
        simp [white]

theorem skipCFWS_white : skipCFWS 0 value = skipCFWS 0 (value.dropWhile isWhite) := by
  induction value with
  | nil => rfl
  | cons c rest ih =>
    cases white : isWhite c with
    | true => simp only [skipCFWS, white, if_true, List.dropWhile_cons, ih]
    | false => simp [white]

theorem skipCFWS_of_head (open_ : (value.dropWhile isWhite).head? ≠ some '(') :
    skipCFWS 0 value = some (value.dropWhile isWhite) := by
  rw [skipCFWS_white]
  cases here : value.dropWhile isWhite with
  | nil => rfl
  | cons c rest =>
    have solid : isWhite c = false := by
      have stops := List.head?_dropWhile_not isWhite value
      rw [here] at stops
      exact stops
    have plain : c ≠ '(' := by
      intro same
      simp [here, same] at open_
    simp [skipCFWS, solid, plain]

end FirstToken

section Spelling
variable {value id read after : Chars}

theorem readValue_of_head (quote : value.head? ≠ some '"') :
    readValue value = if value.takeWhile isTokenChar = [] then none
      else some (value.takeWhile isTokenChar, value.dropWhile isTokenChar) := by
  unfold readValue
  split
  · exact absurd rfl quote
  · rfl

theorem head_of_endsID (ends : endsID after = true) (open_ : after.head? ≠ some '(') :
    after.head?.all (fun c => isWhite c || c = ';') = true := by
  cases after with
  | nil => rfl
  | cons c rest =>
    cases white : isWhite c with
    | true => simp [white]
    | false =>
      have same : (c :: rest).dropWhile isWhite = c :: rest := by simp [white]
      have skipped : skipCFWS 0 (c :: rest) = some ((c :: rest).dropWhile isWhite) :=
        skipCFWS_of_head (by rw [same]; exact open_)
      rw [same] at skipped
      simpa [endsID, skipped, resultsFollow, white] using ends

theorem readID_token (reads : readID value = some read) (comment : (value.dropWhile isWhite).head? ≠ some '(')
    (quote : (value.dropWhile isWhite).head? ≠ some '"') :
    ∃ after, value.dropWhile isWhite = read ++ after ∧ read ≠ [] ∧ (∀ c ∈ read, Solid c) ∧
      after = (value.dropWhile isWhite).dropWhile isTokenChar ∧ endsID after = true := by
  simp only [readID, skipCFWS_of_head comment, readValue_of_head quote] at reads
  generalize value.dropWhile isWhite = s at *
  by_cases none : s.takeWhile isTokenChar = []
  · simp [none] at reads
  · rw [if_neg none] at reads
    dsimp only at reads
    split at reads
    · rename_i ends
      cases reads
      refine ⟨_, List.takeWhile_append_dropWhile.symm, none, ?_, rfl, ends⟩
      intro c member
      exact solid_of_isTokenChar (List.mem_takeWhile_imp member)
    · cases reads

theorem firstToken_of_plain (plain : Plain value) (reads : readID value = some read) : firstToken value = read := by
  obtain ⟨comment, quote, beside⟩ := plain
  obtain ⟨after, begins, some, solid, rfl, ends⟩ := readID_token reads comment quote
  exact firstToken_eq begins solid some (head_of_endsID ends beside)

theorem firstToken_of_beside (reads : readID value = some read) (comment : (value.dropWhile isWhite).head? ≠ some '(')
    (quote : (value.dropWhile isWhite).head? ≠ some '"')
    (beside : ((value.dropWhile isWhite).dropWhile isTokenChar).head? = some '(') :
    ∃ rest, firstToken value = read ++ '(' :: rest := by
  obtain ⟨after, begins, some, solid, rfl, _⟩ := readID_token reads comment quote
  obtain ⟨rest, shape⟩ : ∃ rest, (value.dropWhile isWhite).dropWhile isTokenChar = '(' :: rest := by
    cases here : (value.dropWhile isWhite).dropWhile isTokenChar with
    | nil => simp [here] at beside
    | cons c rest =>
      rw [here, List.head?_cons, Option.some.injEq] at beside
      exact ⟨rest, by rw [beside]⟩
  rw [shape] at begins
  have longer : value.dropWhile isWhite = (read ++ ['(']) ++ rest := by simpa using begins
  obtain ⟨r, _, first⟩ := firstToken_solid longer
    (by
      intro c member
      rcases List.mem_append.mp member with inside | last
      · exact solid c inside
      · rw [List.mem_singleton.mp last]
        exact ⟨by decide, by decide⟩)
    (by simp)
  exact ⟨_, by rw [first, List.append_assoc]; rfl⟩

theorem firstToken_of_head {c : Char} (solid : Solid c) (begins : (value.dropWhile isWhite).head? = some c) :
    ∃ rest, firstToken value = c :: rest := by
  cases here : value.dropWhile isWhite with
  | nil => simp [here] at begins
  | cons d rest =>
    rw [here, List.head?_cons, Option.some.injEq] at begins
    have split : value.dropWhile isWhite = [c] ++ rest := by
      rw [here, begins]
      rfl
    obtain ⟨r, _, first⟩ := firstToken_solid split (by simpa using solid) (by simp)
    exact ⟨_, first⟩

end Spelling

section Trimmed
variable {s t : Chars} {c : Char}

theorem trimSuffix_cons (other : c ≠ '.') (s : Chars) : ∃ rest, trimSuffix ['.'] (c :: s) = c :: rest := by
  simp only [trimSuffix]
  split
  · rename_i dot
    cases s with
    | nil =>
      have same : ['.'] = [c] := dot.eq_of_length rfl
      exact absurd (List.cons.inj same).1.symm other
    | cons d s => exact ⟨(d :: s).take s.length, rfl⟩
  · exact ⟨s, rfl⟩

theorem trimSuffix_begins (s : Chars) : trimSuffix ['.'] s <+: s := by
  simp only [trimSuffix]
  split
  · exact List.take_prefix _ s
  · exact List.prefix_rfl

theorem lt_length_trimSuffix (other : c ≠ '.') : s.length < (trimSuffix ['.'] (s ++ c :: t)).length := by
  simp only [trimSuffix]
  split
  · rename_i dot
    cases t with
    | nil =>
      obtain ⟨before, whole⟩ := dot
      have same : ['.'] = [c] := (List.append_inj' whole rfl).2
      exact absurd (List.cons.inj same).1.symm other
    | cons d t =>
      rw [List.length_take, List.length_append, List.length_cons, List.length_cons]
      simp only [List.length_cons, List.length_nil]
      omega
  · simp

theorem length_of_equalFold [CaseFolding] (same : equalFold s t = true) : s.length = t.length := by
  have lengths := congrArg List.length ((Queue.equalFold_iff s t).mp same)
  simpa using lengths

end Trimmed

section Forged
variable [CaseFolding] {id : Chars} {field : Bytes}

/-- The field says plainly whose results it records, or spells out an id that cannot be said plainly. -/
def Overt (id : Chars) (field : Bytes) : Prop :=
  ∀ name value, field = name ++ COLON :: value → COLON ∉ name →
    Plain (runes value) ∨ (MarkFirst id ∧ equalFold (trimSuffix ['.'] (firstToken (runes value))) (trimSuffix ['.'] id) = true)

theorem markFirst_of_equalFold {c : Char} {rest : Chars} (mark : c = '(' ∨ c = '"')
    (same : equalFold (trimSuffix ['.'] (c :: rest)) (trimSuffix ['.'] id) = true) : MarkFirst id := by
  have other : c ≠ '.' := by rcases mark with rfl | rfl <;> decide
  obtain ⟨more, first⟩ := trimSuffix_cons other rest
  rw [first, Queue.equalFold_iff, List.map_cons] at same
  obtain ⟨d, tail, shape⟩ := List.exists_cons_of_ne_nil (l := trimSuffix ['.'] id) (by
    intro none
    simp [none] at same)
  have part := trimSuffix_begins id
  rw [shape] at part same
  rw [List.map_cons] at same
  have fold : CaseFolding.fold c = CaseFolding.fold d := (List.cons.inj same).1
  obtain ⟨rest', whole⟩ := part
  refine ⟨d, tail ++ rest', whole.symm, ?_⟩
  rcases mark with rfl | rfl
  · exact .inl fold.symm
  · exact .inr fold.symm

/-- The filter takes a field that is read as the gateway's own exactly when it is overt. -/
theorem ours_iff_overt (read : Attributed id field) : ours field id = true ↔ Overt id field := by
  obtain ⟨name, value, read, rfl, plain, named, reads, _, same⟩ := read
  rw [ours_append plain, named, Bool.true_and]
  constructor
  · intro own name' value' split plain'
    obtain ⟨_, rfl⟩ := append_sep_inj plain plain' split
    by_cases comment : ((runes value).dropWhile isWhite).head? = some '('
    · obtain ⟨rest, first⟩ := firstToken_of_head ⟨by decide, by decide⟩ comment
      exact .inr ⟨markFirst_of_equalFold (.inl rfl) (first ▸ own), own⟩
    · by_cases quote : ((runes value).dropWhile isWhite).head? = some '"'
      · obtain ⟨rest, first⟩ := firstToken_of_head ⟨by decide, by decide⟩ quote
        exact .inr ⟨markFirst_of_equalFold (.inr rfl) (first ▸ own), own⟩
      · refine .inl ⟨comment, quote, fun beside => ?_⟩
        -- what is read is shorter than the first token, and both are as long as the id
        obtain ⟨rest, first⟩ := firstToken_of_beside reads comment quote beside
        have longer := lt_length_trimSuffix (s := read) (t := rest) (by decide : '(' ≠ '.')
        rw [first] at own
        have short := (trimSuffix_begins read).length_le
        have own := length_of_equalFold own
        have same := length_of_equalFold same
        omega
  · intro overt
    rcases overt name value rfl plain with said | ⟨_, own⟩
    · rwa [firstToken_of_plain said reads]
    · exact own

variable [LowerCase] {ε : Type}

/-- A message with a field that is read as recording the gateway's results. -/
def Forged (authservID : Chars) (message : Bytes) : Prop :=
  ∃ fields rest, Message message fields rest ∧
    ∃ field ∈ fields, Attributed (toLower (trimSpace authservID)) field.flatten

/-- No forged result is left in what the reads give, for every way to read it to its end, exactly when
    the fields that are read as the gateway's own are overt. -/
theorem unforged_iff (message : Bytes) (err : ε) (authservID : Chars) :
    (∀ asks last e, (last, some e) ∈ readAll Stripped.read asks (stripAuthResults ⟨message, err⟩ authservID) →
        ¬ Forged authservID ((readAll Stripped.read asks (stripAuthResults ⟨message, err⟩ authservID)).map Prod.fst).flatten) ↔
      ∀ fields rest, Message message fields rest →
        ∀ field ∈ fields, Attributed (toLower (trimSpace authservID)) field.flatten →
          Overt (toLower (trimSpace authservID)) field.flatten := by
  let id := toLower (trimSpace authservID)
  have given (asks : List Ask) := withoutOwn_yields message err authservID asks
  have taken (named : id ≠ []) : withoutOwn authservID message = stripped id message := if_neg named
  constructor
  · intro unforged fields rest parts field member read
    by_contra covert
    have kept : ours field.flatten id = false := by
      cases own : ours field.flatten id with
      | false => rfl
      | true => exact absurd ((ours_iff_overt read).mp own) covert
    let asks := List.replicate ((withoutOwn authservID message).length + 1) (⟨1, 1, false⟩ : Ask)
    obtain ⟨last, told⟩ := (given asks).enough (by simp [asks, List.countP_replicate])
    apply unforged asks last err told
    rw [(given asks).all told, taken read.named]
    refine ⟨_, _, message_stripped parts id, field, ?_, read⟩
    exact List.mem_filter.mpr ⟨member, by simp [kept]⟩
  · intro overt asks last e told forged
    rw [(given asks).all told] at forged
    obtain ⟨fields', rest', parts', field, member, read⟩ := forged
    obtain ⟨fields, rest, parts⟩ := exists_message message
    rw [taken read.named] at parts'
    obtain ⟨rfl, rfl⟩ := parts'.unique blankLine_of_folded (message_stripped parts id)
    obtain ⟨present, kept⟩ := List.mem_filter.mp member
    have own := (ours_iff_overt read).mpr (overt fields _ parts field present read)
    simp [id, own] at kept

end Forged

section Covert
open scoped Text.Ascii Ascii

/-- A quoted string, a comment before the id and a comment right after it: each is read as the gateway's
    own and stays. -/
theorem covert_fields_stay :
    let quotes := Deliver.encode "Authentication-Results: \"gw.ngm.dev\"; dkim=pass\r\n".toList
    let before := Deliver.encode "Authentication-Results: (c) gw.ngm.dev; dkim=pass\r\n".toList
    let after := Deliver.encode "Authentication-Results: gw.ngm.dev(c); dkim=pass\r\n".toList
    let message := quotes ++ before ++ after ++ CRLF
    Message message [[quotes], [before], [after]] [CRLF] ∧
      (∀ field ∈ [quotes, before, after], Attributed "gw.ngm.dev".toList field) ∧
      readAll Stripped.read (List.replicate 5 ⟨512, 512, false⟩) (stripAuthResults ⟨message, ()⟩ "gw.ngm.dev".toList) =
        [(quotes, none), (before, none), (after, none), (CRLF, none), ([], some ())] := by
  refine ⟨⟨by decide +kernel, ?_, by decide, by decide⟩, ?_, by decide +kernel⟩
  · intro field member
    simp only [List.mem_cons, List.not_mem_nil, or_false] at member
    rcases member with rfl | rfl | rfl <;> exact ⟨_, [], rfl, by decide, by simp⟩
  · intro field member
    have name : COLON ∉ Deliver.encode "Authentication-Results".toList ∧
        equalFold (trimSpace (runes (Deliver.encode "Authentication-Results".toList))) headerAuthResults = true := by
      decide
    simp only [List.mem_cons, List.not_mem_nil, or_false] at member
    rcases member with rfl | rfl | rfl
    · exact ⟨_, Deliver.encode " \"gw.ngm.dev\"; dkim=pass\r\n".toList, "gw.ngm.dev".toList, by decide, name.1,
        name.2, by decide, by decide, by decide⟩
    · exact ⟨_, Deliver.encode " (c) gw.ngm.dev; dkim=pass\r\n".toList, "gw.ngm.dev".toList, by decide, name.1,
        name.2, by decide, by decide, by decide⟩
    · exact ⟨_, Deliver.encode " gw.ngm.dev(c); dkim=pass\r\n".toList, "gw.ngm.dev".toList, by decide, name.1,
        name.2, by decide, by decide, by decide⟩

end Covert

end Mailgw.Msgauth
