import Mathlib.Data.Char
import Mailgw.Lists.Pages
import Mailgw.Logservice.Search

namespace Mailgw.Logservice

open GoJson Json Lists Numbers

structure Content (Row : Type) where
  rows : Where → List Row
  distinct : ∀ w, (rows w).Nodup
  column : Chars → Ranking Row

abbrev SortKey := Chars × Direction

def SortKey.sql (key : SortKey) (alias_ : Chars) : Chars := quoteCol key.1 alias_ ++ ' ' :: key.2.sql

def sortKeys (s : Search) (q : Query) : List SortKey :=
  let order := q.sort.elements.filterMap (orderOf s.fields)
  if order = [] then [("id".toList, .desc)] else order.map fun o => (o.1.val, o.2)

theorem orderBy_sortKeys (s : Search) (q : Query) :
    buildOrderBy q.sort.elements s.fields s.frame.fallback s.frame.alias_ =
      ", ".toList.intercalate ((sortKeys s q).map fun key => SortKey.sql key s.frame.alias_) := by
  unfold buildOrderBy sortKeys
  dsimp only
  split
  · cases s <;> decide
  · rw [List.map_map]
    rfl

/-- The body of an ORDER BY asks for these keys, columns of the table. -/
def Orders (s : Search) (orderBy : Chars) (keys : List SortKey) : Prop :=
  (∀ key ∈ keys, key.1 ∈ s.fields) ∧ orderBy = ", ".toList.intercalate (keys.map fun key => key.sql s.frame.alias_)

section Reading

theorem Search.fields_quotable (s : Search) : ∀ field ∈ s.fields, '`' ∉ field ∧ ',' ∉ field := by
  cases s <;> decide

theorem Search.alias_quotable (s : Search) : ',' ∉ s.frame.alias_ := by
  cases s <;> decide

theorem comma_not_mem_quoteIdent {name : Chars} (plain : ',' ∉ name) : ',' ∉ quoteIdent name := by
  have unquoted (c : Char) (member : c ∈ name) : ',' ∉ (if c = '`' then ['`', '`'] else [c]) := by
    split
    · decide
    · simpa [eq_comm] using ne_of_mem_of_not_mem member plain
  simpa [quoteIdent] using unquoted

theorem quoteIdent_inj {name name' : Chars} (plain : '`' ∉ name) (plain' : '`' ∉ name')
    (same : quoteIdent name = quoteIdent name') : name = name' := by
  have whole {name : Chars} (plain : '`' ∉ name) : quoteIdent name = '`' :: (name ++ ['`']) := by
    unfold quoteIdent
    rw [List.flatMap_congr fun c member => if_neg (ne_of_mem_of_not_mem member plain), List.flatMap_singleton']
    rfl
  rw [whole plain, whole plain'] at same
  exact List.append_cancel_right (List.cons.inj same).2

theorem quoteCol_inj {field field' alias_ : Chars} (plain : '`' ∉ field) (plain' : '`' ∉ field')
    (same : quoteCol field alias_ = quoteCol field' alias_) : field = field' := by
  unfold quoteCol at same
  split at same
  · exact quoteIdent_inj plain plain' same
  · exact quoteIdent_inj plain plain' (List.cons.inj (List.append_cancel_left same)).2

theorem SortKey.sql_inj {key key' : SortKey} {alias_ : Chars} (plain : '`' ∉ key.1) (plain' : '`' ∉ key'.1)
    (same : key.sql alias_ = key'.sql alias_) : key = key' := by
  obtain ⟨field, direction⟩ := key
  obtain ⟨field', direction'⟩ := key'
  simp only [SortKey.sql] at plain plain' same
  have ends := congrArg (fun text => text.reverse.take 3) same
  obtain rfl : direction = direction' := by
    cases direction <;> cases direction' <;> simp [Direction.sql] at ends ⊢
  rw [quoteCol_inj plain plain' (List.append_cancel_right same)]

theorem intercalate_spaced (text : Chars) (rest : List Chars) :
    ", ".toList.intercalate (text :: rest) = [','].intercalate (text :: rest.map fun later => ' ' :: later) := by
  induction rest generalizing text with
  | nil => simp
  | cons later rest ih =>
    rw [List.intercalate_cons_cons, ih, List.map_cons, List.intercalate_cons_cons]
    cases rest <;> simp [List.intercalate_cons_cons]

theorem intercalate_inj {texts texts' : List Chars} (plain : ∀ text ∈ texts, ',' ∉ text)
    (plain' : ∀ text ∈ texts', ',' ∉ text) (some_ : texts ≠ []) (some' : texts' ≠ [])
    (same : ", ".toList.intercalate texts = ", ".toList.intercalate texts') : texts = texts' := by
  obtain ⟨text, rest, rfl⟩ := List.exists_cons_of_ne_nil some_
  obtain ⟨text', rest', rfl⟩ := List.exists_cons_of_ne_nil some'
  have spaced {text : Chars} {rest : List Chars} (plain : ∀ t ∈ text :: rest, ',' ∉ t) :
      (", ".toList.intercalate (text :: rest)).splitOn ',' = text :: rest.map fun later => ' ' :: later := by
    rw [intercalate_spaced, List.splitOn_intercalate]
    · intro t member
      rcases List.mem_cons.mp member with rfl | later
      · exact plain t List.mem_cons_self
      · obtain ⟨u, within, rfl⟩ := List.mem_map.mp later
        simpa using plain u (List.mem_cons_of_mem _ within)
    · exact List.cons_ne_nil _ _
  have split := spaced plain
  rw [same, spaced plain'] at split
  obtain ⟨rfl, later⟩ := List.cons.inj split
  rw [List.map_injective_iff.mpr (fun _ _ same => (List.cons.inj same).2) later]

theorem map_inj_on {α β : Type} {f : α → β} {xs ys : List α} (inj : ∀ x ∈ xs, ∀ y ∈ ys, f x = f y → x = y)
    (same : xs.map f = ys.map f) : xs = ys := by
  induction xs generalizing ys with
  | nil => exact (List.map_eq_nil_iff.mp same.symm).symm
  | cons x xs ih =>
    cases ys with
    | nil => cases same
    | cons y ys =>
      obtain ⟨first, later⟩ := List.cons.inj same
      rw [inj x List.mem_cons_self y List.mem_cons_self first,
        ih (fun x' member y' member' => inj x' (List.mem_cons_of_mem _ member) y' (List.mem_cons_of_mem _ member')) later]

theorem orders_iff (s : Search) (q : Query) (keys : List SortKey) :
    Orders s (buildOrderBy q.sort.elements s.fields s.frame.fallback s.frame.alias_) keys ↔ keys = sortKeys s q := by
  have known : ∀ key ∈ sortKeys s q, key.1 ∈ s.fields := by
    intro key member
    unfold sortKeys at member
    dsimp only at member
    split at member
    · rw [List.mem_singleton.mp member]
      cases s <;> decide
    · obtain ⟨o, -, rfl⟩ := List.mem_map.mp member
      exact o.1.property
  have somewhere : sortKeys s q ≠ [] := by
    unfold sortKeys
    dsimp only
    split
    · exact List.cons_ne_nil _ _
    · rename_i some_
      simpa using some_
  rw [Orders, orderBy_sortKeys]
  constructor
  · rintro ⟨fields, same⟩
    have plain {keys : List SortKey} (fields : ∀ key ∈ keys, key.1 ∈ s.fields) :
        ∀ text ∈ keys.map fun key => SortKey.sql key s.frame.alias_, ',' ∉ text := by
      intro text member
      obtain ⟨⟨field, direction⟩, within, rfl⟩ := List.mem_map.mp member
      have column : ',' ∉ quoteCol field s.frame.alias_ := by
        have quoted := comma_not_mem_quoteIdent (s.fields_quotable field (fields _ within)).2
        unfold quoteCol
        split
        · exact quoted
        · simp [comma_not_mem_quoteIdent s.alias_quotable, quoted]
      cases direction <;> simp [SortKey.sql, Direction.sql, column]
    have some_ : keys ≠ [] := by
      rintro rfl
      obtain ⟨key, rest, first⟩ := List.exists_cons_of_ne_nil somewhere
      have written : SortKey.sql key s.frame.alias_ ≠ [] := by simp [SortKey.sql]
      rw [first] at same
      exact intercalate_ne_nil written same
    have texts := intercalate_inj (plain fields) (plain known) (by simpa using some_) (by simpa using somewhere) same.symm
    refine map_inj_on (fun key member key' member' => ?_) texts
    exact SortKey.sql_inj (s.fields_quotable _ (fields key member)).1 (s.fields_quotable _ (known key' member')).1
  · rintro rfl
    exact ⟨known, rfl⟩

end Reading

namespace Content

variable {Row : Type} (content : Content Row)

def sortedBy (key : SortKey) : Ranking Row :=
  match key.2 with
  | .asc => content.column key.1
  | .desc => (content.column key.1).flip

def ranking (keys : List SortKey) : Ranking Row := keys.foldr (fun key rest => (content.sortedBy key).andThen rest) .none

def matching (s : Search) (q : Query) : List Row := content.rows (buildWhere q.search.elements q.logic s.fields s.frame.alias_)

theorem nodup_matching (s : Search) (q : Query) : (content.matching s q).Nodup := content.distinct _

end Content

section Pages
variable [Conversion] {Row : Type}

/-- What the database may answer to the page statement of a query: it sorts by what the ORDER BY of the statement
    asks for, and rows that compare equal as it likes. -/
def Answer (content : Content Row) (s : Search) (q : Query) (rows : List Row) : Prop :=
  ∃ keys, Orders s (buildOrderBy q.sort.elements s.fields s.frame.fallback s.frame.alias_) keys ∧
    ∃ arr, Arranged (content.ranking keys) (content.matching s q) arr ∧
      rows = page arr q.limitOffset.offset.toNat q.limitOffset.limit.toNat

/-- Queries for the pages of one query, each of so many rows. -/
structure PageQueries (q : Query) (n m : Nat) (queries : Nat → Query) : Prop where
  search : ∀ k < m, (queries k).search = q.search
  logic : ∀ k < m, (queries k).searchLogic = q.searchLogic
  sort : ∀ k < m, (queries k).sort = q.sort
  limit : ∀ k < m, coerceInt (queries k).limit = some (n : Int)
  offset : ∀ k < m, coerceInt (queries k).offset = some ((k * n : Nat) : Int)

variable {content : Content Row} {s : Search} {q : Query} {n m k : Nat} {queries : Nat → Query}

theorem limitOffset_of_coerce {q : Query} {n offset : Nat} (limit : coerceInt q.limit = some (n : Int))
    (start : coerceInt q.offset = some (offset : Int)) :
    q.limitOffset.limit.toNat = min n 1000 ∧ q.limitOffset.offset.toNat = offset := by
  have greatest : maxLimit = 1000 := rfl
  unfold Query.limitOffset
  rw [limit, start]
  dsimp only
  rw [if_neg (Int.not_lt.mpr (Int.natCast_nonneg n)), if_neg (Int.not_lt.mpr (Int.natCast_nonneg offset))]
  refine ⟨?_, Int.toNat_natCast offset⟩
  split
  · dsimp only
    omega
  · dsimp only
    omega

theorem PageQueries.answer_iff (requests : PageQueries q n m queries) (inside : k < m) (rows : List Row) :
    Answer content s (queries k) rows ↔
      ∃ arr, Arranged (content.ranking (sortKeys s q)) (content.matching s q) arr ∧ rows = page arr (k * n) (min n 1000) := by
  have logic : (queries k).logic = q.logic := by
    rw [Query.logic, requests.logic k inside, Query.logic]
  obtain ⟨limit, offset⟩ := limitOffset_of_coerce (requests.limit k inside) (requests.offset k inside)
  rw [Answer, limit, offset, Content.matching, requests.search k inside, logic, requests.sort k inside]
  simp only [orders_iff, exists_eq_left]
  rfl

/-- Pages list every row once exactly if no rows that compare equal stand on both sides of a page boundary. A limit above
    the greatest leaves rows out. -/
theorem pages_complete_iff (content : Content Row) (s : Search) {q : Query} (positive : 0 < n) (requests : PageQueries q n m queries)
    (enough : (content.matching s q).length ≤ m * n) :
    (∀ pages : Nat → List Row, (∀ k < m, Answer content s (queries k) (pages k)) →
        ((List.range m).flatMap pages).Perm (content.matching s q)) ↔
      (n ≤ 1000 ∨ (content.matching s q).length ≤ 1000) ∧
        Apart (content.ranking (sortKeys s q)) (content.matching s q) n := by
  have fixed := pages_perm_iff (r := content.ranking (sortKeys s q)) (content.nodup_matching s q) (by omega : 0 < min n 1000)
    (Nat.min_le_left n 1000) enough
  have short : (min n 1000 = n ∨ (content.matching s q).length ≤ min n 1000) ↔ n ≤ 1000 ∨ (content.matching s q).length ≤ 1000 := by
    omega
  rw [← short, ← fixed]
  constructor
  · intro every choice arranged
    exact every (fun k => page (choice k) (k * n) (min n 1000)) fun k inside =>
      (requests.answer_iff inside _).mpr ⟨choice k, arranged k, rfl⟩
  · intro every pages answers
    have chosen (k : Nat) : ∃ arr, Arranged (content.ranking (sortKeys s q)) (content.matching s q) arr ∧
        (k < m → pages k = page arr (k * n) (min n 1000)) := by
      by_cases inside : k < m
      · obtain ⟨arr, arranged, same⟩ := (requests.answer_iff inside _).mp (answers k inside)
        exact ⟨arr, arranged, fun _ => same⟩
      · obtain ⟨arr, arranged⟩ := exists_arranged (content.ranking (sortKeys s q)) (content.matching s q)
        exact ⟨arr, arranged, fun below => absurd below inside⟩
    have listed := every (fun k => (chosen k).choose) fun k => (chosen k).choose_spec.1
    have same : (List.range m).flatMap pages = Lists.pages (fun k => (chosen k).choose) n (min n 1000) m := by
      apply List.flatMap_congr
      intro k member
      exact (chosen k).choose_spec.2 (List.mem_range.mp member)
    rw [same]
    exact listed

/-- Without a valid sort entry, rows with different ids do not compare equal. -/
theorem pages_complete_of_fallback (content : Content Row) (s : Search) {q : Query} (positive : 0 < n) (small : n ≤ 1000)
    (requests : PageQueries q n m queries) (enough : (content.matching s q).length ≤ m * n)
    (unsorted : q.sort.elements.filterMap (orderOf s.fields) = [])
    (ids : ∀ x y, (content.column "id".toList).ties x y = true → x = y) {pages : Nat → List Row}
    (answers : ∀ k < m, Answer content s (queries k) (pages k)) :
    ((List.range m).flatMap pages).Perm (content.matching s q) := by
  refine (pages_complete_iff content s positive requests enough).mpr ⟨.inl small, ?_⟩ pages answers
  apply apart_of_strict (content.distinct _)
  intro x y ties
  apply ids x y
  have keys : sortKeys s q = [("id".toList, .desc)] := if_pos unsorted
  rw [keys] at ties
  simpa [Content.ranking, Content.sortedBy, Ranking.ties, Ranking.andThen, Ranking.flip, Ranking.none, Bool.and_comm] using ties

end Pages

section Samples

theorem zero_fits : -2 ^ 63 ≤ (0 : Int) ∧ (0 : Int) < 2 ^ 63 := by decide

local instance zeroConversion : Conversion := ⟨fun _ => ⟨0, zero_fits⟩⟩

theorem idOrder_total (x y : Bool) : (!x || y) = true ∨ (!y || x) = true := by
  cases x <;> cases y <;> decide

theorem idOrder_trans (x y z : Bool) (first : (!x || y) = true) (second : (!y || z) = true) : (!x || z) = true := by
  revert first second
  cases x <;> cases y <;> cases z <;> decide

theorem nodup_twoRows : [false, true].Nodup := by decide

def twoRows : Content Bool where
  rows _ := [false, true]
  distinct _ := nodup_twoRows
  column name := if name = "id".toList then ⟨fun x y => !x || y, idOrder_total, idOrder_trans⟩ else .none

def pageQuery (columns : List String) (limit offset : Nat) : Query :=
  ⟨.string (Nat.toDigits 10 limit), .string (Nat.toDigits 10 offset), .empty, [],
    ⟨columns.map fun column => ⟨column.toList, "asc".toList⟩, columns.length, by simp⟩⟩

theorem pageQueries_one (columns : List String) : PageQueries (pageQuery columns 1 0) 1 2 (pageQuery columns 1) := by
  have known : ∀ k < 2, coerceInt (.string (Nat.toDigits 10 k)) = some ((k * 1 : Nat) : Int) := by decide
  have one : coerceInt (.string (Nat.toDigits 10 1)) = some ((1 : Nat) : Int) := by decide
  exact ⟨fun _ _ => rfl, fun _ _ => rfl, fun _ _ => rfl, fun _ _ => one, known⟩

/-- The id tells two mails of one sender apart. -/
theorem pages_complete_iff_sample :
    (∀ k < 2, Answer twoRows .delivery (pageQuery ["sender", "id"] 1 k) [decide (k = 1)]) ∧
    ∀ pages : Nat → List Bool, (∀ k < 2, Answer twoRows .delivery (pageQuery ["sender", "id"] 1 k) (pages k)) →
      ((List.range 2).flatMap pages).Perm [false, true] := by
  have keys : sortKeys .delivery (pageQuery ["sender", "id"] 1 0) = [("sender".toList, .asc), ("id".toList, .asc)] := by
    decide
  constructor
  · intro k inside
    apply ((pageQueries_one ["sender", "id"]).answer_iff inside _).mpr
    rw [keys]
    refine ⟨[false, true], ⟨List.Perm.refl _, ?_⟩, ?_⟩
    · decide
    · rcases Nat.lt_succ_iff_lt_or_eq.mp inside with first | rfl
      · obtain rfl := Nat.lt_one_iff.mp first
        rfl
      · rfl
  · refine (pages_complete_iff twoRows .delivery Nat.one_pos (pageQueries_one ["sender", "id"]) (Nat.le_refl 2)).mpr
      ⟨.inl (by decide), apart_of_strict nodup_twoRows ?_ 1⟩
    rw [keys]
    decide

/-- Two mails of one sender: the first is on both pages, the second on none. -/
theorem equal_senders_torn :
    ¬ ∀ pages : Nat → List Bool, (∀ k < 2, Answer twoRows .delivery (pageQuery ["sender"] 1 k) (pages k)) →
      ((List.range 2).flatMap pages).Perm (twoRows.matching .delivery (pageQuery ["sender"] 1 0)) := by
  intro every
  have keys : sortKeys .delivery (pageQuery ["sender"] 1 0) = [("sender".toList, .asc)] := by decide
  have ties (x y : Bool) : (twoRows.ranking [("sender".toList, .asc)]).le x y = true := rfl
  have answers : ∀ k < 2, Answer twoRows .delivery (pageQuery ["sender"] 1 k) [false] := by
    intro k inside
    apply ((pageQueries_one ["sender"]).answer_iff inside _).mpr
    rw [keys]
    have swapped : [true, false].Perm [false, true] := by decide
    rcases Nat.lt_succ_iff_lt_or_eq.mp inside with first | rfl
    · obtain rfl := Nat.lt_one_iff.mp first
      exact ⟨[false, true], ⟨List.Perm.refl _, List.pairwise_of_forall ties⟩, rfl⟩
    · exact ⟨[true, false], ⟨swapped, List.pairwise_of_forall ties⟩, rfl⟩
  exact absurd (every (fun _ => [false]) answers) (by decide)

end Samples

end Mailgw.Logservice
