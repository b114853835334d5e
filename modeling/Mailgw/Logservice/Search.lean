import Mailgw.Logservice.Build
import Mailgw.Text.Decimal
import Mathlib.Algebra.BigOperators.Group.List.Basic

namespace Mailgw.Logservice

open GoJson Json Numbers Text

section Fields

def deliveryFields : List Chars :=
  ["id", "uuid", "dt", "sender", "rcpt_domain", "rcpt_list", "rcpt_accepted", "tls_forced", "tls", "auth", "host", "ip",
    "port", "response", "delay", "gateway", "route_rule"].map String.toList

def connectionFields : List Chars :=
  ["id", "uuid", "dt", "encoding", "hello_name", "remoteAddr", "remotePort", "remote_host", "remote_info",
    "remote_is_local", "remote_is_private", "using_tls", "tran_count", "rcpt_count_accept", "rcpt_count_tempfail",
    "rcpt_count_reject", "gateway"].map String.toList

def transactionFields : List Chars :=
  ["id", "uuid", "dt", "action", "encoding", "sender", "rcpt_list", "rcpt_count_accept", "rcpt_count_tempfail",
    "rcpt_count_reject", "delay_data_post", "data_bytes", "mime_part_count", "gateway"].map String.toList

def hashLookupFields : List Chars :=
  ["id", "txn_uuid", "md5", "contentType", "filename", "size", "action", "createdAt"].map String.toList

end Fields

structure Statement where
  sql : Chars
  args : List Arg

structure Statements where
  count : Statement
  page : Statement

def whereSql (w : Where) : Chars := if w.sql = [] then [] else " WHERE ".toList ++ w.sql

def searchTable [Conversion] (table : Chars) (allowed : List Chars) (q : Query) : Statements :=
  let w := buildWhere q.search.elements q.logic allowed []
  let window := q.limitOffset
  let orderBy := buildOrderBy q.sort.elements allowed "`id` DESC".toList []
  { count := ⟨"SELECT COUNT(*) FROM ".toList ++ quoteIdent table ++ whereSql w, w.values⟩
    page :=
      ⟨"SELECT * FROM ".toList ++ quoteIdent table ++ whereSql w ++ " ORDER BY ".toList ++ orderBy ++ " LIMIT ? OFFSET ?".toList,
        w.values ++ [.int window.limit, .int window.offset]⟩ }

def hashLookupFrom : Chars :=
  " FROM `HashLookups` `h` LEFT JOIN `Transaction` `t` ON `t`.`uuid` = `h`.`txn_uuid`".toList

def hashLookupSelect : Chars :=
  ["SELECT `h`.*, ", "`t`.`dt` AS `dt`, ", "`t`.`sender` AS `sender`, ", "`t`.`rcpt_list` AS `rcpt_list`, ",
    "`t`.`encoding` AS `encoding`, ", "`t`.`action` AS `txn_action`, ", "`t`.`rcpt_count_accept` AS `rcpt_count_accept`, ",
    "`t`.`rcpt_count_tempfail` AS `rcpt_count_tempfail`, ", "`t`.`rcpt_count_reject` AS `rcpt_count_reject`, ",
    "`t`.`delay_data_post` AS `delay_data_post`, ", "`t`.`data_bytes` AS `data_bytes`, ",
    "`t`.`mime_part_count` AS `mime_part_count`"].flatMap String.toList

def searchHashLookups [Conversion] (q : Query) : Statements :=
  let w := buildWhere q.search.elements q.logic hashLookupFields "h".toList
  let window := q.limitOffset
  let orderBy := buildOrderBy q.sort.elements hashLookupFields "`h`.`id` DESC".toList "h".toList
  { count := ⟨"SELECT COUNT(*)".toList ++ hashLookupFrom ++ whereSql w, w.values⟩
    page :=
      ⟨hashLookupSelect ++ hashLookupFrom ++ whereSql w ++ " ORDER BY ".toList ++ orderBy ++ " LIMIT ? OFFSET ?".toList,
        w.values ++ [.int window.limit, .int window.offset]⟩ }

inductive Search where
  | connection
  | delivery
  | transaction
  | hashLookups
  deriving DecidableEq

def Search.fields : Search → List Chars
  | .connection => connectionFields
  | .delivery => deliveryFields
  | .transaction => transactionFields
  | .hashLookups => hashLookupFields

def Search.statements [Conversion] (s : Search) (q : Query) : Statements :=
  match s with
  | .connection => searchTable "Connection".toList connectionFields q
  | .delivery => searchTable "Delivery".toList deliveryFields q
  | .transaction => searchTable "Transaction".toList transactionFields q
  | .hashLookups => searchHashLookups q

section Outline

/-- What a search is made of besides the values: nothing in it is taken from a request. -/
structure Outline (allowed : List Chars) where
  conditions : List (Column allowed × Comparison)
  joiner : Joiner
  order : List (Order allowed)

structure Frame where
  count : Chars
  page : Chars
  alias_ : Chars
  fallback : Chars

def Search.frame : Search → Frame
  | .connection => ⟨"SELECT COUNT(*) FROM `Connection`".toList, "SELECT * FROM `Connection`".toList, [], "`id` DESC".toList⟩
  | .delivery => ⟨"SELECT COUNT(*) FROM `Delivery`".toList, "SELECT * FROM `Delivery`".toList, [], "`id` DESC".toList⟩
  | .transaction => ⟨"SELECT COUNT(*) FROM `Transaction`".toList, "SELECT * FROM `Transaction`".toList, [], "`id` DESC".toList⟩
  | .hashLookups =>
    ⟨"SELECT COUNT(*)".toList ++ hashLookupFrom, hashLookupSelect ++ hashLookupFrom, "h".toList, "`h`.`id` DESC".toList⟩

variable {allowed : List Chars}

def Outline.whereText (o : Outline allowed) (alias_ : Chars) : Chars :=
  if o.conditions = [] then []
  else
    " WHERE ".toList ++
      (' ' :: (o.joiner.sql ++ [' '])).intercalate (o.conditions.map fun c => quoteCol c.1 alias_ ++ c.2.sql)

def Outline.countText (o : Outline allowed) (f : Frame) : Chars := f.count ++ o.whereText f.alias_

def Outline.pageText (o : Outline allowed) (f : Frame) : Chars :=
  f.page ++ o.whereText f.alias_ ++ " ORDER BY ".toList ++
    (if o.order = [] then f.fallback else ", ".toList.intercalate (o.order.map fun x => x.sql f.alias_)) ++
    " LIMIT ? OFFSET ?".toList

end Outline

def placeholders (sql : Chars) : Nat := sql.count '?'

/-- The statements are made of an outline, and of the values of its conditions in turn. -/
structure Parameterised {allowed : List Chars} (f : Frame) (st : Statements) (outline : Outline allowed)
    (conditions : List (Condition allowed)) (limit offset : Int) : Prop where
  outlined : outline.conditions = conditions.map fun c => (c.column, c.comparison)
  count : st.count = ⟨outline.countText f, conditions.flatMap Condition.values⟩
  page : st.page = ⟨outline.pageText f, conditions.flatMap Condition.values ++ [.int limit, .int offset]⟩
  each : ∀ c ∈ conditions, placeholders (c.sql f.alias_) = c.values.length
  counted : placeholders st.count.sql = st.count.args.length
  paged : placeholders st.page.sql = st.page.args.length
  limited : 0 ≤ limit ∧ limit ≤ 1000
  started : 0 ≤ offset

section Counting

theorem placeholders_append (s t : Chars) : placeholders (s ++ t) = placeholders s + placeholders t := List.count_append

theorem placeholders_intercalate {sep : Chars} (none : placeholders sep = 0) (parts : List Chars) :
    placeholders (sep.intercalate parts) = (parts.map placeholders).sum := by
  induction parts with
  | nil => rfl
  | cons t rest ih =>
    cases rest with
    | nil => simp [List.intercalate]
    | cons u rest =>
      have step : sep.intercalate (t :: u :: rest) = t ++ (sep ++ sep.intercalate (u :: rest)) := by simp [List.intercalate]
      rw [step, placeholders_append, placeholders_append, none, Nat.zero_add, ih, List.map_cons (l := u :: rest), List.sum_cons]

theorem placeholders_quoteIdent {name : Chars} (none : '?' ∉ name) : placeholders (quoteIdent name) = 0 := by
  apply List.count_eq_zero.mpr
  intro mark
  rcases List.mem_cons.mp mark with first | later
  · exact absurd first (by decide)
  rcases List.mem_append.mp later with inside | last
  · obtain ⟨c, member, here⟩ := List.mem_flatMap.mp inside
    split at here
    · exact absurd here (by decide)
    · rw [List.mem_singleton.mp here] at none
      exact none member
  · exact absurd last (by decide)

theorem Comparison.placeholders_sql (c : Comparison) : placeholders c.sql = c.arity := by
  cases c <;> decide

theorem Search.fields_plain (s : Search) : ∀ field ∈ s.fields, '?' ∉ field := by
  cases s <;> decide

theorem Search.alias_plain (s : Search) : '?' ∉ s.frame.alias_ := by
  cases s <;> decide

theorem placeholders_hashLookupFrom : placeholders hashLookupFrom = 0 := by decide +kernel

theorem placeholders_hashLookupSelect : placeholders hashLookupSelect = 0 := by decide +kernel

theorem Search.frame_plain (s : Search) :
    placeholders s.frame.count = 0 ∧ placeholders s.frame.page = 0 ∧ '?' ∉ s.frame.fallback := by
  cases s with
  | hashLookups =>
    have count := placeholders_append "SELECT COUNT(*)".toList hashLookupFrom
    have page := placeholders_append hashLookupSelect hashLookupFrom
    have words : placeholders "SELECT COUNT(*)".toList = 0 := by decide
    rw [placeholders_hashLookupFrom, words] at count
    rw [placeholders_hashLookupSelect, placeholders_hashLookupFrom] at page
    exact ⟨count, page, by decide⟩
  | _ => exact ⟨by decide, by decide, by decide⟩

end Counting

section Searches
variable {allowed : List Chars} {alias_ : Chars}

theorem placeholders_quoteCol {field : Chars} (plain : '?' ∉ field) (plain' : '?' ∉ alias_) :
    placeholders (quoteCol field alias_) = 0 := by
  unfold quoteCol
  split
  · exact placeholders_quoteIdent plain
  · rw [placeholders_append, placeholders_quoteIdent plain', Nat.zero_add]
    exact placeholders_quoteIdent plain

theorem Condition.placeholders_sql (c : Condition allowed) (plain : ∀ field ∈ allowed, '?' ∉ field) (plain' : '?' ∉ alias_) :
    placeholders (c.sql alias_) = c.values.length := by
  rw [Condition.sql, placeholders_append, placeholders_quoteCol (plain _ c.column.property) plain', Nat.zero_add,
    c.comparison.placeholders_sql, c.bound]

def outlineOf (allowed : List Chars) (q : Query) : Outline allowed where
  conditions := (q.search.elements.filterMap (conditionOf allowed)).map fun c => (c.column, c.comparison)
  joiner := joinerOf q.logic
  order := q.sort.elements.filterMap (orderOf allowed)

theorem intercalate_ne_nil {sep t : Chars} {rest : List Chars} (some_ : t ≠ []) : sep.intercalate (t :: rest) ≠ [] := by
  cases rest with
  | nil => simpa [List.intercalate] using some_
  | cons u rest => simp [List.intercalate, some_]

theorem quoteCol_ne_nil (field alias_ : Chars) : quoteCol field alias_ ≠ [] := by
  unfold quoteCol quoteIdent
  split <;> exact List.cons_ne_nil _ _

theorem whereSql_buildWhere (q : Query) (allowed : List Chars) (alias_ : Chars) :
    whereSql (buildWhere q.search.elements q.logic allowed alias_) = (outlineOf allowed q).whereText alias_ := by
  unfold buildWhere Outline.whereText outlineOf
  dsimp only
  cases q.search.elements.filterMap (conditionOf allowed) with
  | nil => rfl
  | cons c rest =>
    have some_ : c.sql alias_ ≠ [] := List.append_ne_nil_of_left_ne_nil (quoteCol_ne_nil _ _) _
    have outlined : (c :: rest).map (fun c => (c.column, c.comparison)) ≠ [] := List.cons_ne_nil _ _
    have text : (' ' :: ((joinerOf q.logic).sql ++ [' '])).intercalate ((c :: rest).map fun c => c.sql alias_) ≠ [] :=
      intercalate_ne_nil some_
    rw [if_neg (List.cons_ne_nil _ _), if_neg outlined, List.map_map, whereSql, if_neg text]
    rfl

theorem buildOrderBy_eq (q : Query) (allowed : List Chars) (fallback alias_ : Chars) :
    buildOrderBy q.sort.elements allowed fallback alias_ =
      if (outlineOf allowed q).order = [] then fallback
      else ", ".toList.intercalate ((outlineOf allowed q).order.map fun x => x.sql alias_) := rfl

theorem values_buildWhere (q : Query) (allowed : List Chars) (alias_ : Chars) :
    (buildWhere q.search.elements q.logic allowed alias_).values =
      (q.search.elements.filterMap (conditionOf allowed)).flatMap Condition.values := by
  unfold buildWhere
  dsimp only
  cases q.search.elements.filterMap (conditionOf allowed) with
  | nil => rfl
  | cons c rest => rw [if_neg (List.cons_ne_nil _ _)]

theorem placeholders_whereText (q : Query) (plain : ∀ field ∈ allowed, '?' ∉ field) (plain' : '?' ∉ alias_) :
    placeholders ((outlineOf allowed q).whereText alias_) =
      ((q.search.elements.filterMap (conditionOf allowed)).flatMap Condition.values).length := by
  unfold Outline.whereText outlineOf
  dsimp only
  generalize q.search.elements.filterMap (conditionOf allowed) = conditions
  have separator : placeholders (' ' :: ((joinerOf q.logic).sql ++ [' '])) = 0 := by
    cases joinerOf q.logic <;> decide
  have each : (conditions.map fun c => placeholders (c.sql alias_)) = conditions.map fun c => c.values.length :=
    List.map_congr_left fun c _ => c.placeholders_sql plain plain'
  split
  · rename_i none
    rw [List.map_eq_nil_iff.mp none]
    rfl
  · rw [placeholders_append, placeholders_intercalate separator, List.map_map, List.map_map, List.length_flatMap, ← each]
    exact Nat.zero_add _

theorem placeholders_orderText (q : Query) (plain : ∀ field ∈ allowed, '?' ∉ field) (plain' : '?' ∉ alias_)
    {fallback : Chars} (plain'' : '?' ∉ fallback) :
    placeholders (buildOrderBy q.sort.elements allowed fallback alias_) = 0 := by
  have each (o : Order allowed) : placeholders (o.sql alias_) = 0 := by
    have direction : placeholders (' ' :: o.2.sql) = 0 := by cases o.2 <;> decide
    rw [Order.sql, placeholders_append, placeholders_quoteCol (plain _ o.1.property) plain', direction]
  rw [buildOrderBy_eq]
  split
  · exact List.count_eq_zero.mpr plain''
  · rw [placeholders_intercalate (by decide), List.map_map]
    apply List.sum_eq_zero
    intro n member
    obtain ⟨o, -, rfl⟩ := List.mem_map.mp member
    exact each o

variable [Conversion]

def Outline.statements (o : Outline allowed) (f : Frame) (values : List Arg) (window : Window) : Statements where
  count := ⟨o.countText f, values⟩
  page := ⟨o.pageText f, values ++ [.int window.limit, .int window.offset]⟩

def boundValues (allowed : List Chars) (q : Query) : List Arg :=
  (q.search.elements.filterMap (conditionOf allowed)).flatMap Condition.values

theorem searchTable_eq (table : Chars) (q : Query) {f : Frame} (count : f.count = "SELECT COUNT(*) FROM ".toList ++ quoteIdent table)
    (page : f.page = "SELECT * FROM ".toList ++ quoteIdent table) (plain : f.alias_ = []) (fallback : f.fallback = "`id` DESC".toList) :
    searchTable table allowed q = (outlineOf allowed q).statements f (boundValues allowed q) q.limitOffset := by
  unfold searchTable Outline.statements Outline.countText Outline.pageText boundValues
  dsimp only
  rw [whereSql_buildWhere, values_buildWhere, buildOrderBy_eq, count, page, plain, fallback]

theorem Search.statements_eq (s : Search) (q : Query) :
    s.statements q = (outlineOf s.fields q).statements s.frame (boundValues s.fields q) q.limitOffset := by
  cases s with
  | connection => exact searchTable_eq _ q (by decide) (by decide) rfl rfl
  | delivery => exact searchTable_eq _ q (by decide) (by decide) rfl rfl
  | transaction => exact searchTable_eq _ q (by decide) (by decide) rfl rfl
  | hashLookups =>
    unfold Search.statements searchHashLookups Outline.statements Outline.countText Outline.pageText boundValues
    dsimp only
    rw [whereSql_buildWhere, values_buildWhere, buildOrderBy_eq]
    rfl

/-- No statement of a search has anything of a request in it but for values that are bound, every placeholder has its value,
    and the page is bounded. -/
theorem Search.statements_parameterised (s : Search) (raw : List UInt8) :
    ∃ (outline : Outline s.fields) (conditions : List (Condition s.fields)) (limit offset : Int),
      Parameterised s.frame (s.statements (parse raw)) outline conditions limit offset := by
  have plain := s.fields_plain
  have plain' := s.alias_plain
  obtain ⟨low, high, nonnegative⟩ := limitOffset_bounds (parse raw)
  obtain ⟨count, page, fallback⟩ := s.frame_plain
  have filters := placeholders_whereText (parse raw) plain plain'
  have order := placeholders_orderText (parse raw) plain plain' fallback
  refine ⟨outlineOf s.fields (parse raw), (parse raw).search.elements.filterMap (conditionOf s.fields),
    (parse raw).limitOffset.limit, (parse raw).limitOffset.offset, ?_⟩
  rw [s.statements_eq]
  refine ⟨rfl, rfl, rfl, fun c _ => c.placeholders_sql plain plain', ?_, ?_, ⟨low, high⟩, nonnegative⟩
  · dsimp only [Outline.statements, Outline.countText]
    rw [placeholders_append, count, Nat.zero_add]
    exact filters
  · dsimp only [Outline.statements, Outline.pageText]
    rw [buildOrderBy_eq] at order
    have keyword : placeholders " ORDER BY ".toList = 0 := by decide
    have window : placeholders " LIMIT ? OFFSET ?".toList = 2 := by decide
    rw [placeholders_append, placeholders_append, placeholders_append, placeholders_append, page, filters, order,
      List.length_append, keyword, window, Nat.zero_add, Nat.add_zero]
    rfl

end Searches

end Mailgw.Logservice
