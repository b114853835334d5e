import Mailgw.Js.Value
import Mailgw.Lists.Ranked
import Mailgw.Lists.Table

namespace Mailgw.Central

open Js Json Lists Numbers

section Printing

/-- `JSON.stringify` on a value that is no object. It returns nothing for undefined. -/
def stringify : Value → Option Chars
  | .undefined => none
  | .null => some "null".toList
  | .boolean b => some (if b then "true".toList else "false".toList)
  | .number (.finite x) => some x.text
  | .number _ => some "null".toList
  | .string s => some (quote s)
  | .array _ => none
  | .object _ => none

def keyOrder (key : Units) : List Nat := key.map UInt16.toNat

def join (texts : List Chars) : Chars := [','].intercalate texts

mutual
def stableStringify : Value → Chars
  | .array elements => '[' :: (join (stableElements elements) ++ [']'])
  | .object members =>
    let entries := ranked (fun e => keyOrder e.1) (stableMembers members)
    '{' :: (join (entries.map fun e => quote e.1 ++ ':' :: e.2) ++ ['}'])
  | value => (stringify value).getD "null".toList

def stableElements : List Value → List Chars
  | [] => []
  | v :: rest => stableStringify v :: stableElements rest

def stableMembers : List (Units × Value) → List (Units × Chars)
  | [] => []
  | (_, .undefined) :: rest => stableMembers rest
  | (key, v) :: rest => (key, stableStringify v) :: stableMembers rest
end

theorem ranked_map {α β : Type} (f : β → List Nat) (g : α → β) (xs : List α) :
    ranked f (xs.map g) = (ranked (fun x => f (g x)) xs).map g := by
  unfold ranked
  exact (List.map_insertionSort _ _ g xs fun _ _ _ _ => Iff.rfl).symm

def isDefined : Value → Bool
  | .undefined => false
  | _ => true

theorem stableMembers_filter (ms : List (Units × Value)) :
    stableMembers ms = (ms.filter fun m => isDefined m.2).map fun m => (m.1, stableStringify m.2) := by
  induction ms with
  | nil => rfl
  | cons m rest ih =>
    obtain ⟨key, v⟩ := m
    cases v with
    | undefined => exact ih
    | _ => exact congrArg (List.cons _) ih

theorem stableStringify_object (ms : List (Units × Value)) :
    stableStringify (.object ms) =
      '{' :: (join ((ranked (fun m => keyOrder m.1) (ms.filter fun m => isDefined m.2)).map
        fun m => quote m.1 ++ ':' :: stableStringify m.2) ++ ['}']) := by
  rw [stableStringify, stableMembers_filter, ranked_map, List.map_map]
  rfl

end Printing

mutual
/-- What is printed: members that are undefined are left out, the others are in the order of their keys. -/
def normal : Value → Tree
  | .undefined => .null
  | .null => .null
  | .boolean b => .bool b
  | .number (.finite x) => .num ⟨x.text, isSome_read_text x⟩
  | .number _ => .null
  | .string s => .str s
  | .array elements => .arr (normalElements elements)
  | .object members => .obj (ranked (fun e => keyOrder e.1) (normalMembers members))

def normalElements : List Value → List Tree
  | [] => []
  | v :: rest => normal v :: normalElements rest

def normalMembers : List (Units × Value) → List (Units × Tree)
  | [] => []
  | (_, .undefined) :: rest => normalMembers rest
  | (key, v) :: rest => (key, normal v) :: normalMembers rest
end

section Joined

theorem join_cons (t : Chars) (texts : List Chars) :
    join (t :: texts) = t ++ texts.flatMap fun u => ',' :: u := by
  induction texts generalizing t with
  | nil => simp [join]
  | cons u rest ih =>
    have step : join (t :: u :: rest) = t ++ ',' :: join (u :: rest) := by simp [join, List.intercalate]
    rw [step, ih, List.flatMap_cons, List.cons_append]

theorem printMoreElements_eq (vs : List Tree) :
    printMoreElements vs = ((vs.map print).flatMap fun u => ',' :: u) ++ [']'] := by
  induction vs with
  | nil => rfl
  | cons v rest ih => rw [printMoreElements, ih, List.map_cons, List.flatMap_cons, List.append_assoc, List.cons_append]

theorem printElements_eq (vs : List Tree) : printElements vs = join (vs.map print) ++ [']'] := by
  cases vs with
  | nil => rfl
  | cons v rest => rw [printElements, printMoreElements_eq, List.map_cons, join_cons, List.append_assoc]

def entryText (e : Units × Chars) : Chars := quote e.1 ++ ':' :: e.2

theorem printMoreMembers_eq (ms : List (Units × Tree)) :
    printMoreMembers ms = ((ms.map fun m => entryText (m.1, print m.2)).flatMap fun u => ',' :: u) ++ ['}'] := by
  induction ms with
  | nil => rfl
  | cons m rest ih =>
    obtain ⟨key, v⟩ := m
    rw [printMoreMembers, ih, List.map_cons, List.flatMap_cons, entryText]
    simp only [List.append_assoc, List.cons_append]

theorem printMembers_eq (ms : List (Units × Tree)) :
    printMembers ms = join (ms.map fun m => entryText (m.1, print m.2)) ++ ['}'] := by
  cases ms with
  | nil => rfl
  | cons m rest =>
    obtain ⟨key, v⟩ := m
    rw [printMembers, printMoreMembers_eq, List.map_cons, join_cons, entryText]
    simp only [List.append_assoc, List.cons_append]

end Joined

section Normal
variable {ms ns : List (Units × Value)} {vs : List Value} {key : Units}

theorem normalElements_eq (vs : List Value) : normalElements vs = vs.map normal := by
  induction vs with
  | nil => rfl
  | cons v rest ih => rw [normalElements, ih, List.map_cons]

theorem stableElements_eq (vs : List Value) : stableElements vs = vs.map stableStringify := by
  induction vs with
  | nil => rfl
  | cons v rest ih => rw [stableElements, ih, List.map_cons]

theorem stableMembers_eq (printed : ∀ m ∈ ms, stableStringify m.2 = print (normal m.2)) :
    stableMembers ms = (normalMembers ms).map fun m => (m.1, print m.2) := by
  induction ms with
  | nil => rfl
  | cons m rest ih =>
    obtain ⟨here, there⟩ := List.forall_mem_cons.mp printed
    have below := ih there
    obtain ⟨key, v⟩ := m
    cases v with
    | undefined => exact below
    | _ => rw [stableMembers, normalMembers, below, here, List.map_cons] <;> exact Value.noConfusion

theorem stableStringify_eq (v : Value) : stableStringify v = print (normal v) := by
  induction v using Value.induct with
  | undefined => rfl
  | null => rfl
  | boolean b => rfl
  | number x => cases x <;> rfl
  | string s => rfl
  | array vs ih =>
    have elements : vs.map stableStringify = (vs.map normal).map print := by
      rw [List.map_map]
      exact List.map_congr_left ih
    rw [stableStringify, stableElements_eq, elements, normal, normalElements_eq, print, printElements_eq]
  | object ms ih =>
    rw [stableStringify, stableMembers_eq ih, normal, print, printMembers_eq, ranked_map, List.map_map]
    rfl

theorem normalMembers_keys (ms : List (Units × Value)) : ((normalMembers ms).map Prod.fst).Sublist (ms.map Prod.fst) := by
  induction ms with
  | nil => exact List.Sublist.refl _
  | cons m rest ih =>
    obtain ⟨key, v⟩ := m
    cases v with
    | undefined => exact ih.cons key
    | _ => exact ih.cons_cons key

theorem keyOrder_injective : Function.Injective keyOrder := List.map_injective_iff.mpr fun _ _ => UInt16.toNat_inj.mp

def printed : Value → Option Tree
  | .undefined => none
  | v => some (normal v)

def find (ts : List (Units × Tree)) (key : Units) : Option Tree := (ts.find? fun t => t.1 = key).map Prod.snd

theorem printed_of_json {v : Value} (json : IsJson v) : printed v = some (normal v) := by
  cases v with
  | undefined => exact json.elim
  | _ => rfl

theorem normalMembers_cons (name : Units) (v : Value) (rest : List (Units × Value)) :
    normalMembers ((name, v) :: rest) =
      ((printed v).map fun t => (name, t)).toList ++ normalMembers rest := by
  cases v <;> rfl

theorem find_cons (name : Units) (t : Tree) (ts : List (Units × Tree)) (key : Units) :
    find ((name, t) :: ts) key = if name = key then some t else find ts key := by
  unfold find
  by_cases here : name = key <;> simp [here]

theorem member_cons (name : Units) (v : Value) (ms : List (Units × Value)) (key : Units) :
    member ((name, v) :: ms) key = if name = key then v else member ms key := by
  unfold member
  by_cases here : name = key <;> simp [here]

theorem find_of_absent {ts : List (Units × Tree)} (absent : key ∉ ts.map Prod.fst) : find ts key = none := by
  unfold find
  rw [List.find?_eq_none.mpr, Option.map_none]
  intro t there named
  exact absent (List.mem_map.mpr ⟨t, there, of_decide_eq_true named⟩)

theorem find_normalMembers (distinct : (ms.map Prod.fst).Nodup) (key : Units) :
    find (normalMembers ms) key = printed (member ms key) := by
  induction ms with
  | nil => rfl
  | cons m rest ih =>
    obtain ⟨fresh, distinct⟩ := List.nodup_cons.mp distinct
    have below := ih distinct
    obtain ⟨name, v⟩ := m
    have absent : name ∉ (normalMembers rest).map Prod.fst := fun there => fresh ((normalMembers_keys rest).subset there)
    rw [normalMembers_cons, member_cons]
    by_cases here : name = key
    · rw [if_pos here, ← here]
      cases printed v with
      | none => exact find_of_absent absent
      | some t => exact (find_cons name t _ name).trans (if_pos rfl)
    · rw [if_neg here, ← below]
      cases printed v with
      | none => rfl
      | some t => exact (find_cons name t _ key).trans (if_neg here)

theorem find_ranked {ts : List (Units × Tree)} (distinct : (ts.map Prod.fst).Nodup) (key : Units) :
    find (ranked (fun e => keyOrder e.1) ts) key = find ts key := by
  unfold find
  rw [find_key_perm (ranked_perm (fun e : Units × Tree => keyOrder e.1) ts).symm distinct]

theorem normalMembers_nodup (distinct : (ms.map Prod.fst).Nodup) : ((normalMembers ms).map Prod.fst).Nodup :=
  (normalMembers_keys ms).nodup distinct

theorem normal_object_iff (distinct : (ms.map Prod.fst).Nodup) (distinct' : (ns.map Prod.fst).Nodup) :
    normal (.object ms) = normal (.object ns) ↔ ∀ key, printed (member ms key) = printed (member ns key) := by
  have nodup := normalMembers_nodup distinct
  have nodup' := normalMembers_nodup distinct'
  rw [normal, normal, Tree.obj.injEq]
  constructor
  · intro same key
    rw [← find_normalMembers distinct, ← find_normalMembers distinct', ← find_ranked nodup, same, find_ranked nodup']
  · intro same
    have perm : (normalMembers ms).Perm (normalMembers ns) := by
      apply @Table.entries_perm _ _ _ ⟨normalMembers ms, nodup⟩ ⟨normalMembers ns, nodup'⟩
      intro key
      have here := same key
      rwa [← find_normalMembers distinct, ← find_normalMembers distinct'] at here
    have sorted := map_ranked_perm (f := fun e : Units × Tree => keyOrder e.1) perm id fun x member y member' rank =>
      List.inj_on_of_nodup_map nodup member member' (keyOrder_injective rank)
    rwa [List.map_id, List.map_id] at sorted

theorem printed_eq_none {v : Value} : printed v = none ↔ v = .undefined := by
  cases v <;> simp [printed]

theorem same_of_normal {a b : Value} (json : IsJson a) (json' : IsJson b) (alike : normal a = normal b) : Same a b := by
  induction a using Value.induct generalizing b with
  | undefined => exact json.elim
  | null =>
    cases b with
    | null => exact .null
    | undefined => exact json'.elim
    | number x =>
      obtain ⟨d, rfl⟩ := json'
      cases alike
    | _ => cases alike
  | boolean flag =>
    cases b with
    | boolean flag' =>
      cases alike
      exact .boolean flag
    | number x => cases x <;> cases alike
    | _ => cases alike
  | number x =>
    obtain ⟨d, rfl⟩ := json
    cases b with
    | number y =>
      obtain ⟨d', rfl⟩ := json'
      rw [normal, normal, Tree.num.injEq, Subtype.mk.injEq] at alike
      exact .number (text_eq_iff.mp alike)
    | _ => cases alike
  | string s =>
    cases b with
    | string t =>
      cases alike
      exact .string s
    | number x => cases x <;> cases alike
    | _ => cases alike
  | array vs ih =>
    cases b with
    | array ws =>
      rw [normal, normal, normalElements_eq, normalElements_eq, Tree.arr.injEq] at alike
      have length : vs.length = ws.length := by simpa using congrArg List.length alike
      refine .array length fun i v w here there => ?_
      have lists := congrArg (fun ts => ts[i]?) alike
      simp only [List.getElem?_map, here, there, Option.map_some, Option.some.injEq] at lists
      exact ih v (List.mem_of_getElem? here) (allJson_iff.mp json v (List.mem_of_getElem? here))
        (allJson_iff.mp json' w (List.mem_of_getElem? there)) lists
    | number x => cases x <;> cases alike
    | _ => cases alike
  | object ms ih =>
    cases b with
    | object ns =>
      have each := (normal_object_iff json.1 json'.1).mp alike
      refine .object fun key => ?_
      have here := each key
      rcases member_json json'.2 key with missing | json''
      · have missing' : printed (member ms key) = none := here.trans (printed_eq_none.mpr missing)
        rw [missing, printed_eq_none.mp missing']
        exact .undefined
      · rw [printed_of_json json''] at here
        rcases member_eq_or ms key with none | ⟨m, there, -, same⟩
        · rw [none] at here
          cases here
        · rw [← same] at here ⊢
          rcases membersJson_iff.mp json.2 m there with none | defined
          · rw [none] at here
            cases here
          · rw [printed_of_json defined] at here
            exact ih m there defined json'' (Option.some.inj here)
    | number x => cases x <;> cases alike
    | _ => cases alike

theorem normal_of_same {a b : Value} (same : Same a b) (json : IsJson a) (json' : IsJson b) : normal a = normal b := by
  induction same with
  | undefined => rfl
  | null => rfl
  | boolean flag => rfl
  | number equal =>
    rw [normal, normal, Tree.num.injEq, Subtype.mk.injEq]
    exact text_eq_iff.mpr equal
  | string s => rfl
  | @array vs ws length each ih =>
    rw [normal, normal, normalElements_eq, normalElements_eq, Tree.arr.injEq]
    apply List.ext_getElem (by rw [List.length_map, List.length_map, length])
    intro i here there
    rw [List.getElem_map, List.getElem_map]
    rw [List.length_map] at here there
    exact ih i vs[i] ws[i] (List.getElem?_eq_getElem here) (List.getElem?_eq_getElem there)
      (allJson_iff.mp json _ (List.getElem_mem here)) (allJson_iff.mp json' _ (List.getElem_mem there))
  | @object ms ns each ih =>
    apply (normal_object_iff json.1 json'.1).mpr
    intro key
    rcases member_json json.2 key with none | json
    · rw [none, (each key).undefined_left none]
    · rcases member_json json'.2 key with none | json'
      · rw [none, (each key).undefined_right none]
      · rw [printed_of_json json, printed_of_json json', ih key json json']

theorem normal_eq_iff {a b : Value} (json : IsJson a) (json' : IsJson b) : normal a = normal b ↔ Same a b :=
  ⟨same_of_normal json json', fun same => normal_of_same same json json'⟩

theorem normalMembers_of_json {f : Tree → Value} {ts : List (Units × Tree)} (json : ∀ t ∈ ts, IsJson (f t.2)) :
    normalMembers (ts.map fun t => (t.1, f t.2)) = ts.map fun t => (t.1, normal (f t.2)) := by
  induction ts with
  | nil => rfl
  | cons t rest ih =>
    obtain ⟨here, there⟩ := List.forall_mem_cons.mp json
    rw [List.map_cons, normalMembers_cons, printed_of_json here, ih there]
    rfl

theorem mem_normalMembers {t : Units × Tree} (there : t ∈ normalMembers ms) :
    ∃ m ∈ ms, printed m.2 = some t.2 := by
  induction ms with
  | nil => cases there
  | cons m rest ih =>
    obtain ⟨name, v⟩ := m
    rw [normalMembers_cons] at there
    rcases List.mem_append.mp there with here | below
    · cases same : printed v with
      | none =>
        rw [same] at here
        cases here
      | some u =>
        rw [same, Option.map_some, Option.toList_some, List.mem_singleton] at here
        exact ⟨(name, v), List.mem_cons_self, by rw [same, here]⟩
    · obtain ⟨m, member, same⟩ := ih below
      exact ⟨m, List.mem_cons_of_mem _ member, same⟩

theorem normal_ofTree {v : Value} (json : IsJson v) : IsJson (ofTree (normal v)) ∧ normal (ofTree (normal v)) = normal v := by
  induction v using Value.induct with
  | undefined => exact json.elim
  | null => exact ⟨trivial, rfl⟩
  | boolean flag => exact ⟨trivial, rfl⟩
  | string s => exact ⟨trivial, rfl⟩
  | number x =>
    obtain ⟨d, rfl⟩ := json
    obtain ⟨z, number, equal⟩ := number_text d
    have back : ofTree (normal (.number (.finite d))) = .number (.finite z) := congrArg Value.number number
    rw [back]
    refine ⟨⟨z, rfl⟩, ?_⟩
    rw [normal, normal, Tree.num.injEq, Subtype.mk.injEq]
    exact text_eq_iff.mpr equal
  | array vs ih =>
    have elements := allJson_iff.mp json
    have back : ofTree (normal (.array vs)) = .array (vs.map fun v => ofTree (normal v)) := by
      rw [normal, normalElements_eq, ofTree, ofTrees_eq, List.map_map]
      rfl
    rw [back]
    constructor
    · apply allJson_iff.mpr
      intro v member
      obtain ⟨w, there, rfl⟩ := List.mem_map.mp member
      exact (ih w there (elements w there)).1
    · rw [normal, normal, normalElements_eq, normalElements_eq, List.map_map, Tree.arr.injEq]
      exact List.map_congr_left fun v there => (ih v there (elements v there)).2
  | object ms ih =>
    have distinct := normalMembers_nodup json.1
    let ts := ranked (fun e : Units × Tree => keyOrder e.1) (normalMembers ms)
    have nodup : (ts.map Prod.fst).Nodup := ((ranked_perm _ _).map Prod.fst).nodup_iff.mpr distinct
    have back : ofTree (normal (.object ms)) = .object (ts.map fun t => (t.1, ofTree t.2)) := by
      rw [normal, ofTree, @ofMembers_eq [] _ nodup, List.nil_append]
    have each : ∀ t ∈ ts, IsJson (ofTree t.2) ∧ normal (ofTree t.2) = t.2 := by
      intro t there
      obtain ⟨m, member, same⟩ := mem_normalMembers (mem_ranked.mp there)
      rcases membersJson_iff.mp json.2 m member with missing | defined
      · rw [printed_eq_none.mpr missing] at same
        cases same
      · rw [printed_of_json defined] at same
        rw [← Option.some.inj same]
        exact ih m member defined
    rw [back]
    refine ⟨⟨?_, ?_⟩, ?_⟩
    · rw [List.map_map]
      exact nodup
    · apply membersJson_iff.mpr
      intro m member
      obtain ⟨t, there, rfl⟩ := List.mem_map.mp member
      exact .inr (each t there).1
    · rw [normal, normal, normalMembers_of_json fun t there => (each t there).1, Tree.obj.injEq]
      have same : (ts.map fun t => (t.1, normal (ofTree t.2))) = ts := by
        calc ts.map (fun t => (t.1, normal (ofTree t.2))) = ts.map id := List.map_congr_left fun t there => Prod.ext rfl (each t there).2
          _ = ts := List.map_id ts
      rw [same]
      exact ranked_of_pairwise (ranked_pairwise _ _)

/-- Values print alike if they are the same, and what is printed is read back as the same value. -/
theorem stableStringify_canonical (a b : JsonValue) :
    (stableStringify a = stableStringify b ↔ Same a b) ∧ ∃ v : JsonValue, parseJson (stableStringify a) = some v.val ∧ Same v a := by
  constructor
  · rw [stableStringify_eq, stableStringify_eq, print_injective.eq_iff]
    exact normal_eq_iff a.property b.property
  · obtain ⟨json, same⟩ := normal_ofTree a.property
    refine ⟨⟨_, json⟩, ?_, same_of_normal json a.property same⟩
    rw [parseJson, stableStringify_eq, parse_print, Option.map_some]

end Normal

end Mailgw.Central
