import Mathlib.Data.List.Flatten
import Mailgw.Msgauth.Results
import Mailgw.Text.Fields
import Mailgw.Text.Paths

namespace Mailgw.Msgauth

open Deliver (Bytes Chars)
open Queue (CaseFolding equalFold trimSuffix)
open Text

def folded (line : Bytes) : Bool := line.head?.any fun b => b = SP ∨ b = HTAB

def blankLine (line : Bytes) : Bool := line.all fun b => b = CR ∨ b = LF

/-- The header fields of a message, line by line, and the lines from its first blank one on. -/
abbrev Message (message : Bytes) (fields : List (List Bytes)) (rest : List Bytes) : Prop :=
  Fields folded blankLine (lines LF message) fields rest

theorem exists_message (message : Bytes) : ∃ fields rest, Message message fields rest :=
  ⟨_, _, fields_splitFields (lines LF message)⟩

theorem blankLine_of_folded (line : Bytes) (fold : folded line = true) : blankLine line = false := by
  cases line with
  | nil => cases fold
  | cons b line =>
    have space : b = SP ∨ b = HTAB := by simpa [folded] using fold
    rcases space with rfl | rfl <;> simp [blankLine, SP, HTAB, CR, LF]

section Continuations
variable {ε : Type} {br : Source ε}

theorem readBytes_told {e : ε} (told : (br.readBytes LF).err = some e) :
    e = br.err ∧ (br.readBytes LF).left.rest = [] := by
  simp only [Source.readBytes] at told ⊢
  split at told
  · cases told
  · rename_i plain
    cases told
    exact ⟨rfl, firstLine_of_not_mem plain⟩

theorem readBytes_lines (some : br.rest ≠ []) :
    lines LF br.rest = (br.readBytes LF).bytes :: lines LF (br.readBytes LF).left.rest := lines_firstLine some

theorem readBytes_length (some : br.rest ≠ []) : (br.readBytes LF).left.rest.length < br.rest.length := by
  have whole := congrArg List.length (firstLine_append LF br.rest)
  have first : 0 < (firstLine LF br.rest).1.length :=
    List.length_pos_iff.mpr fun none => some (firstLine_eq_nil_iff.mp none)
  rw [List.length_append] at whole
  simp only [Source.readBytes]
  omega

theorem folded_readBytes (br : Source ε) : folded (br.readBytes LF).bytes = br.peek.any fun b => b = SP ∨ b = HTAB := by
  simp only [folded, Source.readBytes, Source.peek, head?_firstLine]

theorem continuations_lines {n : Nat} (enough : br.rest.length ≤ n) :
    (continuations n br).bytes = ((lines LF br.rest).takeWhile folded).flatten ∧
      lines LF (continuations n br).left.rest = (lines LF br.rest).dropWhile folded ∧
      (continuations n br).left.err = br.err ∧ (continuations n br).left.rest.length ≤ br.rest.length ∧
      ∀ e, (continuations n br).err = some e → e = br.err ∧ (continuations n br).left.rest = [] := by
  induction n generalizing br with
  | zero =>
    have none : br.rest = [] := List.length_eq_zero_iff.mp (by omega)
    simp [continuations, none, lines]
  | succ n ih =>
    cases here : br.peek with
    | none =>
      have none : br.rest = [] := List.head?_eq_none_iff.mp here
      simp [continuations, here, none, lines]
    | some b =>
      have some : br.rest ≠ [] := by
        intro none
        simp [Source.peek, none] at here
      have cut := readBytes_lines some
      have shorter := readBytes_length some
      have first := folded_readBytes br
      rw [here, Option.any_some] at first
      by_cases space : b = SP ∨ b = HTAB
      · have fold : folded (br.readBytes LF).bytes = true := by rw [first]; exact decide_eq_true space
        have goes : ¬ (b ≠ SP ∧ b ≠ HTAB) := by tauto
        simp only [continuations, here, if_neg goes]
        rw [cut, List.takeWhile_cons_of_pos fold, List.dropWhile_cons_of_pos fold, List.flatten_cons]
        split
        · rename_i told
          obtain ⟨e, told⟩ := Option.isSome_iff_exists.mp told
          obtain ⟨_, none⟩ := readBytes_told told
          simp only [none, lines, List.takeWhile_nil, List.dropWhile_nil, List.flatten_nil, List.append_nil]
          exact ⟨trivial, trivial, rfl, Nat.zero_le _, fun e' told' => ⟨(readBytes_told told').1, trivial⟩⟩
        · obtain ⟨bytes, left, err, short, told⟩ := @ih (br.readBytes LF).left (by omega)
          exact ⟨by rw [bytes], left, err, short.trans shorter.le, told⟩
      · have plain : ¬ folded (br.readBytes LF).bytes = true := by rw [first]; simpa using space
        have stops : b ≠ SP ∧ b ≠ HTAB := by tauto
        simp only [continuations, here, if_pos stops]
        rw [cut, List.takeWhile_cons_of_neg plain, List.dropWhile_cons_of_neg plain, ← cut]
        simp

end Continuations

section Folding
variable [CaseFolding]

/-- The field records results, and under this id, up to its case and a trailing dot. -/
def Bears (id : Chars) (field : Bytes) : Prop :=
  ∃ name value, field = name ++ COLON :: value ∧ COLON ∉ name ∧
    equalFold (trimSpace (runes name)) headerAuthResults = true ∧
    equalFold (trimSuffix ['.'] (firstToken (runes value))) (trimSuffix ['.'] id) = true

theorem ours_append {name value : Bytes} (plain : COLON ∉ name) (id : Chars) :
    ours (name ++ COLON :: value) id =
      (equalFold (trimSpace (runes name)) headerAuthResults &&
        equalFold (trimSuffix ['.'] (firstToken (runes value))) (trimSuffix ['.'] id)) := by
  have held : COLON ∈ name ++ COLON :: value := by simp
  simp only [ours, takeWhile_sep plain, dropWhile_sep plain, List.tail_cons, held]
  cases equalFold (trimSpace (runes name)) headerAuthResults <;> simp

theorem ours_iff {field : Bytes} {id : Chars} : ours field id = true ↔ Bears id field := by
  constructor
  · intro own
    by_cases held : COLON ∈ field
    · obtain ⟨name, value, rfl, plain⟩ := List.eq_append_cons_of_mem held
      rw [ours_append plain, Bool.and_eq_true] at own
      exact ⟨name, value, rfl, plain, own.1, own.2⟩
    · simp [ours, held] at own
  · rintro ⟨name, value, rfl, plain, named, same⟩
    rw [ours_append plain, named, same]
    rfl

instance (id : Chars) (field : Bytes) : Decidable (Bears id field) := decidable_of_iff _ ours_iff

def stripped (id : Chars) (message : Bytes) : Bytes :=
  let parts := splitFields folded blankLine (lines LF message)
  ((parts.1.map List.flatten).filter fun field => !ours field id).flatten ++ parts.2.flatten

theorem stripped_nil (id : Chars) : stripped id [] = [] := rfl

theorem stripped_blank {id : Chars} {s line : Bytes} {later : List Bytes} (cut : lines LF s = line :: later)
    (empty : blankLine line = true) : stripped id s = s := by
  have whole := flatten_lines LF s
  simp only [stripped, cut, splitFields_blank empty]
  rw [← whole, cut]
  rfl

theorem stripped_line {id : Chars} {s s' line : Bytes} {later : List Bytes} (cut : lines LF s = line :: later)
    (some : blankLine line = false) (left : lines LF s' = later.dropWhile folded) :
    stripped id s =
      (if ours (line ++ (later.takeWhile folded).flatten) id then [] else line ++ (later.takeWhile folded).flatten) ++
        stripped id s' := by
  simp only [stripped, cut, left, splitFields_line blankLine_of_folded some, List.map_cons, List.flatten_cons]
  cases here : ours (line ++ (later.takeWhile folded).flatten) id with
  | true => simp [here]
  | false => simp [here]

namespace StripReader

variable {ε : Type}

def left (s : StripReader ε) : Bytes := s.out ++ if s.body then s.br.rest else stripped s.id s.br.rest

structure Sound (id : Chars) (err : ε) (s : StripReader ε) : Prop where
  id : s.id = id
  source : s.br.err = err
  told : ∀ e, s.err = some e → e = err ∧ s.br.rest = []

end StripReader

section Filling
variable {ε : Type} {id : Chars} {err : ε} {s : StripReader ε}

theorem fill_ended (ended : s.br.rest = []) : s.fill = { s with err := some s.br.err } := by
  obtain ⟨⟨rest, last⟩, _, _, _, _⟩ := s
  cases ended
  simp [StripReader.fill, Source.readBytes, firstLine]

theorem fill_blank (some : s.br.rest ≠ []) (empty : blankLine (s.br.readBytes LF).bytes = true) :
    s.fill = { s with br := (s.br.readBytes LF).left, out := s.out ++ (s.br.readBytes LF).bytes, body := true } := by
  have line : ¬ (s.br.readBytes LF).bytes = [] := fun none => some (firstLine_eq_nil_iff.mp none)
  simp only [blankLine] at empty
  simp only [StripReader.fill, if_neg line, if_pos empty]

theorem fill_field (some : s.br.rest ≠ []) (text : blankLine (s.br.readBytes LF).bytes = false) :
    ∃ br told, lines LF br.rest = (lines LF (s.br.readBytes LF).left.rest).dropWhile folded ∧ br.err = s.br.err ∧
      br.rest.length < s.br.rest.length ∧ (∀ e, told = Option.some e → e = s.br.err ∧ br.rest = []) ∧
      s.fill =
        let field := (s.br.readBytes LF).bytes ++ ((lines LF (s.br.readBytes LF).left.rest).takeWhile folded).flatten
        { s with br, err := told.or s.err, out := s.out ++ if ours field s.id then [] else field } := by
  have line : ¬ (s.br.readBytes LF).bytes = [] := fun none => some (firstLine_eq_nil_iff.mp none)
  have shorter := readBytes_length some
  have plain : ¬ (s.br.readBytes LF).bytes.all (fun b => b = CR ∨ b = LF) = true := by simpa [blankLine] using text
  simp only [StripReader.fill, if_neg line, if_neg plain]
  generalize (s.br.readBytes LF).bytes = first
  cases told : (s.br.readBytes LF).err with
  | some e =>
    obtain ⟨same, none⟩ := readBytes_told told
    refine ⟨(s.br.readBytes LF).left, Option.some e, by simp [none, lines], rfl, shorter, ?_, ?_⟩
    · intro e' here
      exact ⟨(Option.some.inj here).symm.trans same, none⟩
    · simp only [none, lines, List.takeWhile_nil, List.flatten_nil, List.append_nil]
      by_cases own : ours first s.id = true <;> simp [own]
  | none =>
    obtain ⟨bytes, left, err, short, ends⟩ := continuations_lines (Nat.le_refl (s.br.readBytes LF).left.rest.length)
    refine ⟨(continuations (s.br.readBytes LF).left.rest.length (s.br.readBytes LF).left).left,
      (continuations (s.br.readBytes LF).left.rest.length (s.br.readBytes LF).left).err, left, err,
      short.trans_lt shorter, ends, ?_⟩
    rw [← bytes]
    generalize continuations (s.br.readBytes LF).left.rest.length (s.br.readBytes LF).left = more
    by_cases own : ours (first ++ more.bytes) s.id = true <;> cases here : more.err <;> simp [own, here]

/-- One round: what there is to give stays the same, and the source gets shorter unless it has ended. -/
theorem fill_left (sound : s.Sound id err) (header : s.body = false) :
    s.fill.left = s.left ∧ s.fill.Sound id err ∧ (s.fill.err = none → s.fill.br.rest.length < s.br.rest.length) := by
  obtain ⟨rfl, rfl, told⟩ := sound
  by_cases ended : s.br.rest = []
  · rw [fill_ended ended]
    refine ⟨rfl, ⟨rfl, rfl, ?_⟩, by simp⟩
    rintro _ ⟨⟩
    exact ⟨rfl, ended⟩
  · have cut := readBytes_lines ended
    have shorter := readBytes_length ended
    have whole : (s.br.readBytes LF).bytes ++ (s.br.readBytes LF).left.rest = s.br.rest := firstLine_append LF s.br.rest
    cases text : blankLine (s.br.readBytes LF).bytes with
    | true =>
      rw [fill_blank ended text]
      refine ⟨?_, ⟨rfl, rfl, fun e here => absurd (told e here).2 ended⟩, fun _ => shorter⟩
      simp only [StripReader.left, header, stripped_blank cut text]
      rw [List.append_assoc]
      simpa using whole
    | false =>
      obtain ⟨br, ends, left, same, short, last, step⟩ := fill_field ended text
      rw [step]
      refine ⟨?_, ⟨rfl, same, ?_⟩, fun _ => short⟩
      · simp only [StripReader.left, header, stripped_line cut text left]
        simp
      · intro e here
        cases ends with
        | some e' => exact last e here
        | none => exact absurd (told e here).2 ended

theorem fillUp_left {n : Nat} (sound : s.Sound id err) (enough : s.br.rest.length < n) :
    (s.fillUp n).left = s.left ∧ (s.fillUp n).Sound id err ∧
      ((s.fillUp n).out ≠ [] ∨ (s.fillUp n).body = true ∨ (s.fillUp n).err ≠ none) := by
  induction n generalizing s with
  | zero => omega
  | succ n ih =>
    simp only [StripReader.fillUp]
    split
    · rename_i needs
      obtain ⟨left, sound', shorter⟩ := fill_left sound needs.2.1
      cases ended : s.fill.err with
      | none =>
        obtain ⟨same, further, ready⟩ := ih sound' (by have := shorter ended; omega)
        exact ⟨same.trans left, further, ready⟩
      | some e =>
        have stays : s.fill.fillUp n = s.fill := by cases n <;> simp [StripReader.fillUp, ended]
        rw [stays]
        exact ⟨left, sound', .inr (.inr (by simp [ended]))⟩
    · rename_i ready
      refine ⟨rfl, sound, ?_⟩
      simp only [not_and_or] at ready
      simpa using ready

theorem read_left (sound : s.Sound id err) (ask : Ask) :
    Reads StripReader.left err ask s (s.read ask) ∧ (s.read ask).left.Sound id err := by
  obtain ⟨left, sound', ready⟩ := fillUp_left sound (Nat.lt_succ_self s.br.rest.length)
  simp only [StripReader.read]
  generalize s.fillUp (s.br.rest.length + 1) = t at left sound' ready
  obtain ⟨rfl, rfl, told⟩ := sound'
  split
  · rename_i some
    refine ⟨⟨?_, by simp, ?_⟩, ⟨rfl, rfl, told⟩⟩
    · rw [← left]
      simp only [StripReader.left]
      rw [← List.append_assoc, List.take_append_drop]
    · intro room none
      rcases List.take_eq_nil_iff.mp none with zero | empty
      · omega
      · exact absurd empty some
  · rename_i empty
    rw [ne_eq, not_not] at empty
    cases ended : t.err with
    | some e =>
      obtain ⟨same, none⟩ := told e ended
      have gone : t.left = [] := by simp [StripReader.left, empty, none, stripped_nil]
      exact ⟨⟨by simp [← left, gone], by simp [same, gone], by simp [same]⟩, ⟨rfl, rfl, told⟩⟩
    | none =>
      have body : t.body = true := by simpa [empty, ended] using ready
      obtain ⟨bytes, last, moves⟩ := t.br.reads ask
      refine ⟨⟨?_, ?_, moves⟩, ⟨rfl, rfl, fun e here => by simp at here⟩⟩
      · rw [← left]
        simp only [StripReader.left, empty, body]
        simpa using bytes
      · intro e here
        obtain ⟨same, none⟩ := last e here
        refine ⟨same, ?_⟩
        simp only [StripReader.left, empty, body]
        simpa using none

end Filling

section Twice
variable {message : Bytes} {fields : List (List Bytes)} {rest : List Bytes} {id : Chars}

theorem stripped_of_fields (parts : Message message fields rest) (id : Chars) :
    stripped id message = ((fields.filter fun field => !ours field.flatten id).flatten ++ rest).flatten := by
  obtain ⟨same, same'⟩ := parts.unique blankLine_of_folded (fields_splitFields _)
  simp only [stripped, ← same, ← same', List.filter_map, List.flatten_append, List.flatten_flatten]
  rfl

theorem message_stripped (parts : Message message fields rest) (id : Chars) :
    Message (stripped id message) (fields.filter fun field => !ours field.flatten id) rest := by
  have within : ((fields.filter fun field => !ours field.flatten id).flatten ++ rest).Sublist (lines LF message) := by
    rw [parts.whole]
    exact List.filter_sublist.flatten.append (List.Sublist.refl _)
  rw [stripped_of_fields parts id, Message, lines_flatten_of_sublist within]
  exact parts.filter _

theorem stripped_stripped (id : Chars) (message : Bytes) : stripped id (stripped id message) = stripped id message := by
  obtain ⟨fields, rest, parts⟩ := exists_message message
  have once := stripped_of_fields parts id
  rw [stripped_of_fields (message_stripped parts id) id, List.filter_filter]
  simp only [Bool.and_self]
  exact once.symm

end Twice

namespace Stripped

variable {ε : Type}

def left : Stripped ε → Bytes
  | .through br => br.rest
  | .filtered s => s.left

def Sound (id : Chars) (err : ε) : Stripped ε → Prop
  | .through br => br.err = err
  | .filtered s => s.Sound id err

theorem reads {id : Chars} {err : ε} (s : Stripped ε) (ask : Ask) (sound : s.Sound id err) :
    Reads left err ask s (s.read ask) ∧ (s.read ask).left.Sound id err := by
  cases s with
  | through br =>
    obtain ⟨bytes, told, moves⟩ := br.reads ask
    cases sound
    exact ⟨⟨bytes, told, moves⟩, rfl⟩
  | filtered s =>
    obtain ⟨⟨bytes, told, moves⟩, further⟩ := read_left sound ask
    exact ⟨⟨bytes, told, moves⟩, further⟩

end Stripped

section Filter
variable [LowerCase] {ε : Type}

def withoutOwn (authservID : Chars) (message : Bytes) : Bytes :=
  let id := toLower (trimSpace authservID)
  if id = [] then message else stripped id message

theorem withoutOwn_yields (message : Bytes) (err : ε) (authservID : Chars) (asks : List Ask) :
    Yields asks (readAll Stripped.read asks (stripAuthResults ⟨message, err⟩ authservID))
      (withoutOwn authservID message) err := by
  simp only [withoutOwn, stripAuthResults]
  split
  · exact yields_of_reads (Stripped.Sound (toLower (trimSpace authservID)) err) Stripped.reads asks rfl
  · exact yields_of_reads (Stripped.Sound (toLower (trimSpace authservID)) err) Stripped.reads asks ⟨rfl, rfl, by simp⟩

theorem withoutOwn_twice (authservID : Chars) (message : Bytes) :
    withoutOwn authservID (withoutOwn authservID message) = withoutOwn authservID message := by
  simp only [withoutOwn]
  split
  · rfl
  · exact stripped_stripped _ message

theorem withoutOwn_of_fields {message : Bytes} {fields : List (List Bytes)} {rest : List Bytes}
    (parts : Message message fields rest) (authservID : Chars) :
    withoutOwn authservID message =
      ((fields.map List.flatten).filter fun field =>
        ¬ (toLower (trimSpace authservID) ≠ [] ∧ Bears (toLower (trimSpace authservID)) field)).flatten ++
          rest.flatten := by
  simp only [withoutOwn]
  split
  · rename_i none
    have whole := flatten_lines LF message
    rw [parts.whole] at whole
    simp [none, ← whole, List.flatten_flatten]
  · rename_i some
    rw [stripped_of_fields parts]
    have same (field : Bytes) : (!ours field (toLower (trimSpace authservID))) =
        decide (¬ (toLower (trimSpace authservID) ≠ [] ∧ Bears (toLower (trimSpace authservID)) field)) := by
      rw [Bool.eq_iff_iff]
      simp [some, ← ours_iff]
    simp only [same, List.filter_map, List.flatten_append, List.flatten_flatten]
    rfl

/-- What reads of the filter give is the message without the fields that record results under the
    gateway's name, and a second filter takes nothing more out of it. The name is taken without the white
    space around it and in lower case, and an empty one is nobody's. -/
theorem stripAuthResults_exact (message : Bytes) (err : ε) (authservID : Chars) :
    ∃ fields rest, Message message fields rest ∧
      let id := toLower (trimSpace authservID)
      let kept := ((fields.map List.flatten).filter fun field => ¬ (id ≠ [] ∧ Bears id field)).flatten ++ rest.flatten
      (∀ asks, Yields asks (readAll Stripped.read asks (stripAuthResults ⟨message, err⟩ authservID)) kept err) ∧
      ∀ asks, Yields asks (readAll Stripped.read asks (stripAuthResults ⟨kept, err⟩ authservID)) kept err := by
  obtain ⟨fields, rest, parts⟩ := exists_message message
  have kept := withoutOwn_of_fields parts authservID
  refine ⟨fields, rest, parts, ?_⟩
  dsimp only
  rw [← kept]
  refine ⟨withoutOwn_yields message err authservID, fun asks => ?_⟩
  have twice := withoutOwn_yields (withoutOwn authservID message) err authservID asks
  rwa [withoutOwn_twice] at twice

end Filter

end Folding

section Nobody
open scoped Text.Ascii Ascii

/-- Without a name of its own the gateway takes nothing out, not even what records results under no name. -/
theorem nobodys_field_stays :
    let field := Deliver.encode "Authentication-Results: .; none\r\n".toList
    Message (field ++ CRLF) [[field]] [CRLF] ∧ Bears [] field ∧
      readAll Stripped.read [⟨64, 64, false⟩] (stripAuthResults ⟨field ++ CRLF, ()⟩ []) = [(field ++ CRLF, none)] := by
  refine ⟨⟨by decide, ?_, by simp, by decide⟩, by decide, by decide⟩
  intro field member
  rw [List.mem_singleton.mp member]
  exact ⟨_, [], rfl, by decide, by simp⟩

end Nobody

end Mailgw.Msgauth
