import Mailgw.GoJson.Places
import Mathlib.Data.List.Dedup

namespace GoJson

open Json Raw

variable {v w : Raw} {vs : List Raw} {ms : Members} {p q : Place} {s : Literal} {indent : Nat}

section Shows

/-- A text that shows a string in the midst of what does not depend on it. -/
def Shows (f : Literal → Bytes) : Prop := ∃ front back, ∀ s, f s = front ++ escapeHTML s.val ++ back

variable {f : Literal → Bytes}

theorem Shows.around (shows : Shows f) (x y : Bytes) : Shows fun s => x ++ f s ++ y := by
  obtain ⟨front, back, text⟩ := shows
  refine ⟨x ++ front, back ++ y, fun s => ?_⟩
  simp only [text, List.append_assoc]

theorem intercalate_middle (sep : Bytes) (front back : List Bytes) : ∃ x y, ∀ item,
    sep.intercalate (front ++ item :: back) = x ++ item ++ y := by
  induction front with
  | nil =>
    cases back with
    | nil => exact ⟨[], [], fun item => by simp [List.intercalate]⟩
    | cons b back => exact ⟨[], sep ++ sep.intercalate (b :: back), fun item => by simp [List.intercalate]⟩
  | cons a front ih =>
    obtain ⟨x, y, text⟩ := ih
    refine ⟨a ++ sep ++ x, y, fun item => ?_⟩
    have step (items : List Bytes) (some_ : items ≠ []) : sep.intercalate (a :: items) = a ++ sep ++ sep.intercalate items := by
      cases items with
      | nil => exact absurd rfl some_
      | cons b items => simp [List.intercalate]
    rw [List.cons_append, step _ (by simp), text]
    simp only [List.append_assoc]

theorem Shows.block (shows : Shows f) (openByte closeByte : UInt8) (indent : Nat) (front back : List Bytes) :
    Shows fun s => block openByte closeByte indent (front ++ f s :: back) := by
  obtain ⟨x, y, text⟩ := intercalate_middle (0x2c :: newline (indent + 1)) front back
  have whole (item : Bytes) : GoJson.block openByte closeByte indent (front ++ item :: back) =
      (openByte :: newline (indent + 1) ++ x) ++ item ++ (y ++ newline indent ++ [closeByte]) := by
    have some_ : front ++ item :: back ≠ [] := by simp
    rw [GoJson.block.eq_def]
    split
    · rename_i empty
      exact absurd empty some_
    · rw [text]
      simp only [List.cons_append, List.append_assoc]
  simp only [whole]
  exact shows.around _ _

theorem Shows.other (shows : Shows f) (t : Bytes) : ∃ s, f s ≠ t := by
  obtain ⟨front, back, text⟩ := shows
  have plain (n : Nat) : isBody (List.replicate n 0x78) = true := by
    apply isBody_plain
    intro b member
    rw [List.eq_of_mem_replicate member]
    decide
  have escaped (n : Nat) : escapeHTML (List.replicate n 0x78) = List.replicate n 0x78 := by
    induction n with
    | zero => rfl
    | succ n ih =>
      rw [List.replicate_succ, escapeHTML, ih]
      · rfl
      · intro b rest first
        exact absurd first (by decide)
  refine ⟨⟨List.replicate (t.length + 1) 0x78, plain _⟩, fun same => ?_⟩
  have lengths := congrArg List.length same
  rw [text, escaped, List.length_append, List.length_append, List.length_replicate] at lengths
  omega

theorem indentedElements_eq (indent : Nat) (vs : List Raw) : indentedElements indent vs = vs.map (indented indent) := by
  induction vs with
  | nil => rfl
  | cons v vs ih => rw [indentedElements, ih, List.map_cons]

def indentedMember (indent : Nat) (m : Literal × Raw) : Bytes :=
  wrapped (escapeHTML m.1.val) ++ 0x3a :: 0x20 :: indented indent m.2

theorem indentedMembers_eq (indent : Nat) (ms : Members) : indentedMembers indent ms = ms.map (indentedMember indent) := by
  induction ms with
  | nil => rfl
  | cons m ms ih =>
    obtain ⟨key, v⟩ := m
    rw [indentedMembers, ih, List.map_cons]
    rfl

theorem Shows.element {g : Literal → Raw} (shows : ∀ indent, Shows fun s => indented indent (g s)) (front back : List Raw)
    (indent : Nat) : Shows fun s => indented indent (.arr (front ++ g s :: back)) := by
  have whole := (shows (indent + 1)).block 0x5b 0x5d indent (front.map (indented (indent + 1))) (back.map (indented (indent + 1)))
  simpa only [indented, indentedElements_eq, List.map_append, List.map_cons] using whole

theorem Shows.member {g : Literal → Raw} (shows : ∀ indent, Shows fun s => indented indent (g s)) (front back : Members)
    (key : Literal) (indent : Nat) : Shows fun s => indented indent (.obj (front ++ (key, g s) :: back)) := by
  have line : Shows fun s => indentedMember (indent + 1) (key, g s) := by
    have text := (shows (indent + 1)).around (wrapped (escapeHTML key.val) ++ [0x3a, 0x20]) []
    simpa only [indentedMember, List.append_nil, List.append_assoc, List.cons_append, List.nil_append] using text
  have whole := line.block 0x7b 0x7d indent (front.map (indentedMember (indent + 1))) (back.map (indentedMember (indent + 1)))
  simpa only [indented, indentedMembers_eq, List.map_append, List.map_cons] using whole

end Shows

/-- A change of a value hides what stands at the places that are covered, and shows every other string. Which places are
    covered does not depend on the strings. -/
structure Judges (f : Raw → Raw) (covered : Raw → Place → Prop) : Prop where
  hides : ∀ v p s, covered v p → f (v.replace s p) = f v
  shows : ∀ v p, (v.stringAt p).isSome = true → ¬ covered v p → ∀ indent, Shows fun s => indented indent (f (v.replace s p))
  stable : ∀ v q s p, covered (v.replace s q) p ↔ covered v p

theorem judges_keep : Judges (fun v => v) fun _ _ => False where
  hides _ _ _ impossible := impossible.elim
  shows := by
    intro v p stands _
    induction p generalizing v with
    | nil =>
      cases v with
      | str t =>
        intro indent
        exact ⟨[quoteByte], [quoteByte], fun s => rfl⟩
      | null => cases stands
      | bool b => cases stands
      | num text => cases stands
      | arr vs => cases stands
      | obj ms => cases stands
    | cons i p ih =>
      cases v with
      | arr vs =>
        cases here : vs[i]? with
        | none => simp [stringAt, here] at stands
        | some w =>
          have inner : (w.stringAt p).isSome = true := by simpa [stringAt, here] using stands
          intro indent
          simpa only [replace, modify_at here] using Shows.element (ih w inner) (vs.take i) (vs.drop (i + 1)) indent
      | obj ms =>
        cases here : ms[i]? with
        | none => simp [stringAt, here] at stands
        | some m =>
          have inner : (m.2.stringAt p).isSome = true := by simpa [stringAt, here] using stands
          intro indent
          simpa only [replace, modify_at here] using Shows.member (ih m.2 inner) (ms.take i) (ms.drop (i + 1)) m.1 indent
      | null => cases stands
      | bool b => cases stands
      | num text => cases stands
      | str t => cases stands
  stable _ _ _ _ := Iff.rfl

theorem judges_erase (t : Raw) : Judges (fun _ => t) fun _ _ => True where
  hides _ _ _ _ := rfl
  shows _ _ _ impossible := (impossible trivial).elim
  stable _ _ _ _ := Iff.rfl

section Combining
variable {f g : Raw → Raw} {covered covered' : Raw → Place → Prop}

theorem Judges.ite {c : Prop} [Decidable c] (first : Judges f covered) (second : Judges g covered') :
    Judges (fun v => if c then f v else g v) fun v p => if c then covered v p else covered' v p := by
  by_cases holds : c
  · simpa only [if_pos holds] using first
  · simpa only [if_neg holds] using second

theorem Judges.when {form : Raw → Bool} (formed : ∀ v q s, form (v.replace s q) = form v) (judges : Judges f covered) :
    Judges (fun v => if form v then f v else v) fun v p => form v = true ∧ covered v p where
  hides v p s cover := by
    rw [formed, if_pos cover.1, if_pos cover.1]
    exact judges.hides v p s cover.2
  shows v p stands open_ indent := by
    simp only [formed]
    by_cases holds : form v = true
    · simp only [if_pos holds]
      exact judges.shows v p stands (fun cover => open_ ⟨holds, cover⟩) indent
    · simp only [if_neg holds]
      exact judges_keep.shows v p stands (fun impossible => impossible) indent
  stable v q s p := by rw [formed, judges.stable]

def mapArr (f : Raw → Raw) : Raw → Raw
  | .arr vs => .arr (vs.map f)
  | v => v

def InArr (covered : Raw → Place → Prop) : Raw → Place → Prop
  | .arr vs, i :: p => ∃ v, vs[i]? = some v ∧ covered v p
  | _, _ => False

theorem Judges.mapArr (judges : Judges f covered) : Judges (mapArr f) (InArr covered) where
  hides v p s cover := by
    cases v with
    | arr vs =>
      cases p with
      | nil => cases cover
      | cons i p =>
        obtain ⟨w, here, cover⟩ := cover
        have whole := split_at here
        simp only [replace, GoJson.mapArr, modify_at here, List.map_append, List.map_cons, judges.hides w p s cover]
        rw [← List.map_cons, ← List.map_append, ← whole]
    | null => cases cover
    | bool b => cases cover
    | num text => cases cover
    | str t => cases cover
    | obj ms => cases cover
  shows v p stands open_ indent := by
    cases v with
    | arr vs =>
      cases p with
      | nil => cases stands
      | cons i p =>
        cases here : vs[i]? with
        | none => simp [stringAt, here] at stands
        | some w =>
          have inner : (w.stringAt p).isSome = true := by simpa [stringAt, here] using stands
          have shows := judges.shows w p inner fun cover => open_ ⟨w, here, cover⟩
          simpa only [replace, GoJson.mapArr, modify_at here, List.map_append, List.map_cons]
            using Shows.element shows ((vs.take i).map f) ((vs.drop (i + 1)).map f) indent
    | null => cases p <;> cases stands
    | bool b => cases p <;> cases stands
    | num text => cases p <;> cases stands
    | str t =>
      cases p with
      | nil => exact judges_keep.shows (.str t) [] stands (fun impossible => impossible) indent
      | cons i p => cases stands
    | obj ms =>
      cases p with
      | nil => cases stands
      | cons i p => exact judges_keep.shows (.obj ms) (i :: p) stands (fun impossible => impossible) indent
  stable v q s p := by
    cases q with
    | nil => cases v <;> exact Iff.rfl
    | cons j q =>
      cases v with
      | arr vs =>
        cases p with
        | nil => exact Iff.rfl
        | cons i p =>
          simp only [replace, InArr, List.getElem?_modify]
          cases vs[i]? with
          | none => simp
          | some w =>
            by_cases same : j = i
            · simp [same, judges.stable]
            · simp [same]
      | null => exact Iff.rfl
      | bool b => exact Iff.rfl
      | num text => exact Iff.rfl
      | str t => exact Iff.rfl
      | obj ms => exact Iff.rfl

end Combining

section Objects
variable {f : Chars → Raw → Raw} {covered : Chars → Raw → Place → Prop}

theorem keysOf_modify (ms : Members) (i : Nat) (f : Raw → Raw) : keysOf (ms.modify i fun m => (m.1, f m.2)) = keysOf ms := by
  cases here : ms[i]? with
  | none => rw [modify_none here]
  | some m =>
    have whole := split_at here
    rw [modify_at here, keysOf, List.map_append, List.map_cons]
    conv_rhs => rw [whole, keysOf, List.map_append, List.map_cons]

theorem rebuild_congr {ms ns : Members} (keys : keysOf ms = keysOf ns)
    (values : ∀ k, (valueOf ms k).map (f k) = (valueOf ns k).map (f k)) : rebuild f ms = rebuild f ns := by
  have entries (k : Chars) : ((valueOf ms k).map fun v => (keyLiteral k, f k v)) = (valueOf ns k).map fun v => (keyLiteral k, f k v) := by
    have pair := congrArg (Option.map (Prod.mk (keyLiteral k))) (values k)
    rw [Option.map_map, Option.map_map] at pair
    exact pair
  rw [rebuild, rebuild, keys]
  simp only [entries]

def mapObj (f : Chars → Raw → Raw) : Raw → Raw
  | .obj ms => rebuild f ms
  | v => v

/-- A place in a map is covered if a later member has the same key, or by what its value is changed to. -/
def InObj (covered : Chars → Raw → Place → Prop) : Raw → Place → Prop
  | .obj ms, i :: p => ∃ m, ms[i]? = some m ∧ (m.1.key ∈ keysOf (ms.drop (i + 1)) ∨ covered m.1.key m.2 p)
  | _, _ => False

theorem rebuild_modify {ms : Members} {i : Nat} {m : Literal × Raw} (here : ms[i]? = some m)
    (last : m.1.key ∉ keysOf (ms.drop (i + 1))) :
    ∃ front back, ∀ w, rebuild f (ms.take i ++ (m.1, w) :: ms.drop (i + 1)) =
      .obj (front ++ (keyLiteral m.1.key, f m.1.key w) :: back) := by
  have whole := split_at here
  have keys (w : Raw) : keysOf (ms.take i ++ (m.1, w) :: ms.drop (i + 1)) = keysOf ms := by
    conv_rhs => rw [whole]
    simp [keysOf]
  have member : m.1.key ∈ Lists.ranked id (keysOf ms).dedup := by
    rw [Lists.mem_ranked, List.mem_dedup, whole]
    simp [keysOf]
  have distinct : (Lists.ranked id (keysOf ms).dedup).Nodup := (Lists.ranked_perm id _).nodup_iff.mpr (List.nodup_dedup _)
  obtain ⟨before, behind, order⟩ := List.append_of_mem member
  rw [order] at distinct
  have apart : m.1.key ∉ before ∧ m.1.key ∉ behind := by
    constructor
    · intro inside
      exact List.disjoint_of_nodup_append distinct inside List.mem_cons_self
    · exact (List.nodup_cons.mp (List.nodup_append.mp distinct).2.1).1
  have others (w : Raw) (k : Chars) (other : m.1.key ≠ k) :
      valueOf (ms.take i ++ (m.1, w) :: ms.drop (i + 1)) k = (valueOf (ms.drop (i + 1)) k).or (valueOf (ms.take i) k) := by
    rw [valueOf_append, if_neg other]
  have own (w : Raw) : valueOf (ms.take i ++ (m.1, w) :: ms.drop (i + 1)) m.1.key = some w := by
    rw [valueOf_append, if_pos rfl, valueOf_eq_none.mpr last, Option.none_or]
  let rest (ks : List Chars) : Members :=
    ks.filterMap fun k => ((valueOf (ms.drop (i + 1)) k).or (valueOf (ms.take i) k)).map fun v => (keyLiteral k, f k v)
  have entries (ks : List Chars) (w : Raw) (none_ : m.1.key ∉ ks) :
      (ks.filterMap fun k => (valueOf (ms.take i ++ (m.1, w) :: ms.drop (i + 1)) k).map fun v => (keyLiteral k, f k v)) = rest ks := by
    apply List.filterMap_congr
    intro k inside
    rw [others w k fun same => none_ (same ▸ inside)]
  refine ⟨rest before, rest behind, fun w => ?_⟩
  rw [rebuild, keys, order, List.filterMap_append, List.filterMap_cons, own, entries before w apart.1, entries behind w apart.2]
  rfl

theorem Judges.mapObj (judges : ∀ k, Judges (f k) (covered k)) : Judges (mapObj f) (InObj covered) where
  hides v p s cover := by
    cases v with
    | obj ms =>
      cases p with
      | nil => cases cover
      | cons i p =>
        obtain ⟨m, here, cover⟩ := cover
        apply rebuild_congr (keysOf_modify ms i (replace s p))
        intro k
        rw [modify_at here, valueOf_append]
        conv_rhs => rw [split_at here, valueOf_append]
        by_cases same : m.1.key = k
        · subst same
          rw [if_pos rfl, if_pos rfl]
          rcases cover with later | cover
          · cases found : valueOf (ms.drop (i + 1)) m.1.key with
            | none => exact absurd later (valueOf_eq_none.mp found)
            | some w => rfl
          · cases valueOf (ms.drop (i + 1)) m.1.key with
            | none => exact congrArg some ((judges m.1.key).hides m.2 p s cover)
            | some w => rfl
        · rw [if_neg same, if_neg same]
    | null => cases cover
    | bool b => cases cover
    | num text => cases cover
    | str t => cases cover
    | arr vs => cases cover
  shows v p stands open_ indent := by
    cases v with
    | obj ms =>
      cases p with
      | nil => cases stands
      | cons i p =>
        cases here : ms[i]? with
        | none => simp [stringAt, here] at stands
        | some m =>
          have inner : (m.2.stringAt p).isSome = true := by simpa [stringAt, here] using stands
          have last : m.1.key ∉ keysOf (ms.drop (i + 1)) := fun later => open_ ⟨m, here, .inl later⟩
          have shows := (judges m.1.key).shows m.2 p inner fun cover => open_ ⟨m, here, .inr cover⟩
          obtain ⟨front, back, built⟩ := rebuild_modify (f := f) here last
          simpa only [replace, GoJson.mapObj, modify_at here, built] using Shows.member shows front back _ indent
    | null => cases p <;> cases stands
    | bool b => cases p <;> cases stands
    | num text => cases p <;> cases stands
    | str t =>
      cases p with
      | nil => exact judges_keep.shows (.str t) [] stands (fun impossible => impossible) indent
      | cons i p => cases stands
    | arr vs =>
      cases p with
      | nil => cases stands
      | cons i p => exact judges_keep.shows (.arr vs) (i :: p) stands (fun impossible => impossible) indent
  stable v q s p := by
    cases q with
    | nil => cases v <;> exact Iff.rfl
    | cons j q =>
      cases v with
      | obj ms =>
        cases p with
        | nil => exact Iff.rfl
        | cons i p =>
          have keys : keysOf ((ms.modify j fun m => (m.1, replace s q m.2)).drop (i + 1)) = keysOf (ms.drop (i + 1)) := by
            have same := congrArg (List.drop (i + 1)) (keysOf_modify ms j (replace s q))
            rw [keysOf, keysOf, ← List.map_drop, ← List.map_drop] at same
            exact same
          simp only [replace, InObj, keys, List.getElem?_modify]
          cases ms[i]? with
          | none => simp
          | some m =>
            by_cases same : j = i
            · simp [same, (judges _).stable]
            · simp [same]
      | null => exact Iff.rfl
      | bool b => exact Iff.rfl
      | num text => exact Iff.rfl
      | str t => exact Iff.rfl
      | arr vs => exact Iff.rfl

end Objects

end GoJson
