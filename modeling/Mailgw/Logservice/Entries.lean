import Mailgw.GoJson.Exact
import Mailgw.Logservice.Build
import Mailgw.Text.Letters

namespace Mailgw.Logservice

open GoJson Json Numbers Text

structure Reading (allowed : List Chars) where
  conditions : List (Condition allowed)
  joiner : Joiner
  orders : List (Order allowed)
  window : Window

def Query.reading [Conversion] (q : Query) (allowed : List Chars) : Reading allowed where
  conditions := q.search.elements.filterMap (conditionOf allowed)
  joiner := joinerOf q.logic
  orders := q.sort.elements.filterMap (orderOf allowed)
  window := q.limitOffset

section EntryByEntry

def memberOf (t : Tree) (name : String) : Tree :=
  match t with
  | .obj ms => (valueUnder ms (unitsOf name.toList)).getD .null
  | _ => .null

def entriesOf (t : Tree) (name : String) : List Tree :=
  match memberOf t name with
  | .arr entries => entries
  | _ => []

def textIn : Tree → Chars
  | .str s => chars s
  | _ => []

def anyIn (t : Tree) : Any := (decodeAny t).getD .nil

def paramOf (e : Tree) : Param := ⟨textIn (memberOf e "field"), textIn (memberOf e "operator"), anyIn (memberOf e "value")⟩

def sortOf (e : Tree) : SortEntry := ⟨textIn (memberOf e "field"), textIn (memberOf e "direction")⟩

/-- A request in which every part is read from its own place. -/
def entryByEntry [Conversion] (allowed : List Chars) (t : Tree) : Reading allowed where
  conditions := (entriesOf t "search").filterMap fun e => conditionOf allowed (paramOf e)
  joiner := joinerOf (textIn (memberOf t "searchLogic"))
  orders := (entriesOf t "sort").filterMap fun e => orderOf allowed (sortOf e)
  window := Query.limitOffset { Query.zero with limit := anyIn (memberOf t "limit"), offset := anyIn (memberOf t "offset") }

end EntryByEntry

/-- The names in an object are spelled as the fields are, and none of them twice. -/
def SpelledIn {α : Type} (fields : List (StructField α)) (t : Tree) : Prop := ∀ ms, t = .obj ms → Spelled fields ms

section Fields
variable {e : Tree}

theorem reads_paramField : Reads paramFields "field".toList Param.field stringInto :=
  .own (fun _ _ => rfl) (.other (by decide) (fun _ _ => rfl) (.other (by decide) (fun _ _ => rfl) .nil))

theorem reads_paramOperator : Reads paramFields "operator".toList Param.operator stringInto :=
  .other (by decide) (fun _ _ => rfl) (.own (fun _ _ => rfl) (.other (by decide) (fun _ _ => rfl) .nil))

theorem reads_paramValue : Reads paramFields "value".toList Param.value anyInto :=
  .other (by decide) (fun _ _ => rfl) (.other (by decide) (fun _ _ => rfl) (.own (fun _ _ => rfl) .nil))

theorem reads_sortField : Reads sortFields "field".toList SortEntry.field stringInto :=
  .own (fun _ _ => rfl) (.other (by decide) (fun _ _ => rfl) .nil)

theorem reads_sortDirection : Reads sortFields "direction".toList SortEntry.direction stringInto :=
  .other (by decide) (fun _ _ => rfl) (.own (fun _ _ => rfl) .nil)

theorem reads_limit : Reads queryFields "limit".toList Query.limit anyInto :=
  .own (fun _ _ => rfl) (.other (by decide) (fun _ _ => rfl) (.other (by decide) (fun _ _ => rfl)
    (.other (by decide) (fun _ _ => rfl) (.other (by decide) (fun _ _ => rfl) .nil))))

theorem reads_offset : Reads queryFields "offset".toList Query.offset anyInto :=
  .other (by decide) (fun _ _ => rfl) (.own (fun _ _ => rfl) (.other (by decide) (fun _ _ => rfl)
    (.other (by decide) (fun _ _ => rfl) (.other (by decide) (fun _ _ => rfl) .nil))))

theorem reads_search : Reads queryFields "search".toList Query.search (sliceInto (structInto paramFields) .zero) :=
  .other (by decide) (fun _ _ => rfl) (.other (by decide) (fun _ _ => rfl) (.own (fun _ _ => rfl)
    (.other (by decide) (fun _ _ => rfl) (.other (by decide) (fun _ _ => rfl) .nil))))

theorem reads_searchLogic : Reads queryFields "searchLogic".toList Query.searchLogic stringInto :=
  .other (by decide) (fun _ _ => rfl) (.other (by decide) (fun _ _ => rfl)
    (.other (by decide) (fun _ _ => rfl) (.own (fun _ _ => rfl) (.other (by decide) (fun _ _ => rfl) .nil))))

theorem reads_sort : Reads queryFields "sort".toList Query.sort (sliceInto (structInto sortFields) .zero) :=
  .other (by decide) (fun _ _ => rfl) (.other (by decide) (fun _ _ => rfl)
    (.other (by decide) (fun _ _ => rfl) (.other (by decide) (fun _ _ => rfl) (.own (fun _ _ => rfl) .nil))))

end Fields

section Decoding
variable {α β : Type} {fields : List (StructField α)} {name : String} {e t : Tree} {zero y : α}

/-- A part of a struct that was decoded from a text is what the one member of its name is read as. -/
theorem part_of_spelled {view : α → β} {read : Tree → β → Option β} (reads : Reads fields name.toList view read)
    (own : (fieldOf fields (unitsOf name.toList)).map StructField.name = some name.toList) (spelled : SpelledIn fields e)
    (decoded : structInto fields e zero = some y) :
    (memberOf e name = .null ∧ view y = view zero) ∨ read (memberOf e name) (view zero) = some (view y) := by
  cases e with
  | null =>
    obtain rfl := Option.some.inj decoded
    exact .inl ⟨rfl, rfl⟩
  | obj ms =>
    obtain ⟨f, found, same⟩ := Option.map_eq_some_iff.mp own
    have once := spelled ms rfl f (List.mem_of_find?_eq_some found)
    rw [same] at once
    rcases field_of_spelled reads own once decoded with ⟨gone, kept⟩ | ⟨v, there, here⟩
    · exact .inl ⟨by rw [memberOf, gone]; rfl, kept⟩
    · exact .inr (by rw [memberOf, there]; exact here)
  | bool b => cases decoded
  | num token => cases decoded
  | str s => cases decoded
  | arr vs => cases decoded

theorem text_of_spelled {view : α → Chars} (reads : Reads fields name.toList view stringInto)
    (own : (fieldOf fields (unitsOf name.toList)).map StructField.name = some name.toList) (spelled : SpelledIn fields e)
    (empty : view zero = []) (decoded : structInto fields e zero = some y) : view y = textIn (memberOf e name) := by
  rcases part_of_spelled reads own spelled decoded with ⟨gone, kept⟩ | here
  · rw [gone, kept, empty]
    rfl
  · rw [empty] at here
    cases member : memberOf e name with
    | null =>
      rw [member] at here
      exact (Option.some.inj here).symm
    | str s =>
      rw [member] at here
      exact (Option.some.inj here).symm
    | bool b => rw [member] at here; cases here
    | num token => rw [member] at here; cases here
    | arr vs => rw [member] at here; cases here
    | obj ms => rw [member] at here; cases here

theorem any_of_spelled {view : α → Any} (reads : Reads fields name.toList view anyInto)
    (own : (fieldOf fields (unitsOf name.toList)).map StructField.name = some name.toList) (spelled : SpelledIn fields e)
    (empty : view zero = .nil) (decoded : structInto fields e zero = some y) :
    decodeAny (memberOf e name) = some (view y) ∧ view y = anyIn (memberOf e name) := by
  rcases part_of_spelled reads own spelled decoded with ⟨gone, kept⟩ | here
  · rw [gone, kept, empty]
    exact ⟨rfl, rfl⟩
  · rw [anyInto] at here
    rw [anyIn, here]
    exact ⟨rfl, rfl⟩

theorem entries_of_spelled {γ : Type} {element : Decoder γ} {zero' : γ} {view : α → Slice γ}
    (reads : Reads fields name.toList view (sliceInto element zero'))
    (own : (fieldOf fields (unitsOf name.toList)).map StructField.name = some name.toList) (spelled : SpelledIn fields t)
    (empty : view zero = .empty) (decoded : structInto fields t zero = some y) :
    List.Forall₂ (fun e x => element e zero' = some x) (entriesOf t name) (view y).elements := by
  unfold entriesOf
  rcases part_of_spelled reads own spelled decoded with ⟨gone, kept⟩ | here
  · rw [gone, kept, empty]
    exact .nil
  · rw [empty] at here
    rcases elements_of_fresh here with ⟨null, none⟩ | ⟨ts, array, each⟩
    · rw [null, none]
      exact .nil
    · rw [array]
      exact each

theorem paramOf_of_decoded {p : Param} (spelled : SpelledIn paramFields e) (decoded : structInto paramFields e .zero = some p) :
    decodeAny (memberOf e "value") = some p.value ∧ p = paramOf e := by
  have field : p.field = _ := text_of_spelled reads_paramField (by decide) spelled rfl decoded
  have operator : p.operator = _ := text_of_spelled reads_paramOperator (by decide) spelled rfl decoded
  obtain ⟨read, value⟩ := any_of_spelled reads_paramValue (by decide) spelled rfl decoded
  refine ⟨read, ?_⟩
  rw [paramOf, ← field, ← operator, ← value]

theorem sortOf_of_decoded {s : SortEntry} (spelled : SpelledIn sortFields e) (decoded : structInto sortFields e .zero = some s) :
    s = sortOf e := by
  have field : s.field = _ := text_of_spelled reads_sortField (by decide) spelled rfl decoded
  have direction : s.direction = _ := text_of_spelled reads_sortDirection (by decide) spelled rfl decoded
  rw [sortOf, ← field, ← direction]

end Decoding

/-- A request that decodes into its types, and in which every name is spelled as it is meant and stands once. -/
structure Regular (t : Tree) : Prop where
  decodes : ∀ ms, t = .obj ms → (structInto queryFields t .zero).isSome = true
  names : SpelledIn queryFields t
  filters : ∀ e ∈ entriesOf t "search", SpelledIn paramFields e
  sorts : ∀ e ∈ entriesOf t "sort", SpelledIn sortFields e

section Requests
variable {t : Tree} {raw : List UInt8} {allowed : List Chars} {q : Query}

theorem joinerOf_logic (q : Query) : joinerOf q.logic = joinerOf q.searchLogic := by
  have or : joinerOf "OR".toList = .or := by decide
  have and : joinerOf "AND".toList = .and := by decide
  rw [Query.logic, joinerOf.eq_def q.searchLogic]
  split
  · exact or
  · exact and

theorem filterMap_of_forall₂ {α β γ : Type} {as : List α} {bs : List β} {f : α → β} {g : β → Option γ}
    (each : List.Forall₂ (fun a b => b = f a) as bs) : bs.filterMap g = as.filterMap fun a => g (f a) := by
  induction each with
  | nil => rfl
  | cons same _ ih =>
    rw [List.filterMap_cons, List.filterMap_cons, same, ih]

theorem reading_of_decoded [Conversion] (regular : Regular t) (decoded : structInto queryFields t .zero = some q) :
    q.reading allowed = entryByEntry allowed t := by
  have logic : q.searchLogic = _ := text_of_spelled reads_searchLogic (by decide) regular.names rfl decoded
  have limit : q.limit = _ := (any_of_spelled reads_limit (by decide) regular.names rfl decoded).2
  have offset : q.offset = _ := (any_of_spelled reads_offset (by decide) regular.names rfl decoded).2
  have search := entries_of_spelled reads_search (by decide) regular.names rfl decoded
  have sort := entries_of_spelled reads_sort (by decide) regular.names rfl decoded
  have params := ((List.forall₂_and_left _ _).mpr ⟨regular.filters, search⟩).imp fun e p both =>
    (paramOf_of_decoded both.1 both.2).2
  have sorts := ((List.forall₂_and_left _ _).mpr ⟨regular.sorts, sort⟩).imp fun e s both => sortOf_of_decoded both.1 both.2
  have window : q.limitOffset = Query.limitOffset { Query.zero with limit := q.limit, offset := q.offset } := rfl
  rw [Query.reading, entryByEntry, filterMap_of_forall₂ params, filterMap_of_forall₂ sorts, joinerOf_logic, logic, window, limit,
    offset]

theorem reading_of_other [Conversion] (other : ∀ name, memberOf t name = .null) :
    Query.zero.reading allowed = entryByEntry allowed t := by
  have null : entryByEntry allowed t = entryByEntry allowed .null := by
    unfold entryByEntry entriesOf
    simp only [other]
    rfl
  have regular : Regular .null := by
    refine ⟨fun ms impossible => ?_, fun ms impossible => ?_, List.forall_mem_nil _, List.forall_mem_nil _⟩
    · cases impossible
    · cases impossible
  rw [null]
  exact reading_of_decoded regular rfl

theorem parse_of_tree (read : readTree raw = some t) :
    parse raw = if isMap t then (structInto queryFields t .zero).getD .zero else .zero := by
  have some_ : raw ≠ [] := by
    rintro rfl
    cases read
  rw [parse, if_neg some_, read]

-- One entry of another type, and the other entries are gone too.
example :
    let raw := "\x7b\"search\":[\x7b\"field\":\"id\",\"operator\":\"is\",\"value\":1\x7d,\x7b\"field\":2\x7d]\x7d"
    (parse (ascii raw.toList)).search.elements.length = 0 := by decide +kernel

theorem reading_of_regular [Conversion] (read : readTree raw = some t) (regular : Regular t) :
    (parse raw).reading allowed = entryByEntry allowed t := by
  rw [parse_of_tree read]
  cases t with
  | obj ms =>
    obtain ⟨q, decoded⟩ := Option.isSome_iff_exists.mp (regular.decodes ms rfl)
    rw [decoded]
    exact reading_of_decoded regular decoded
  | null => exact reading_of_other fun _ => rfl
  | bool b => exact reading_of_other fun _ => rfl
  | num token => exact reading_of_other fun _ => rfl
  | str s => exact reading_of_other fun _ => rfl
  | arr vs => exact reading_of_other fun _ => rfl

end Requests

end Mailgw.Logservice
