import Mailgw.Lists.Checked
import Mailgw.Rules.Compile

namespace Mailgw.Rules

open Lists Queue

def Value.scalars : Value → List Scalar
  | .missing => []
  | .one v => [v]
  | .many elems => elems

/-- A list some of whose elements are empty and some are not. -/
def Value.Mixed (v : Value) : Prop :=
  ∃ elems, v = .many elems ∧ (∃ s ∈ elems, s.nonEmpty = true) ∧ ∃ s ∈ elems, s.nonEmpty = false

/-- A comparison holds of a value if it holds of one of its scalars. -/
theorem testValue_any {op : Op} (fills : op ≠ .empty) (fn : Scalar → Bool) (v : Value) :
    testValue op false fn v = v.scalars.any (testScalar op fn) := by
  cases v with
  | missing => simp [testValue, Value.scalars, fills]
  | one s => simp [testValue, Value.scalars]
  | many elems => cases elems <;> simp [testValue, Value.scalars, fills]

theorem testValue_empty (fn : Scalar → Bool) (v : Value) :
    testValue .empty false fn v = (v.scalars.isEmpty || v.scalars.any (testScalar .empty fn)) := by
  cases v with
  | missing => simp [testValue, Value.scalars]
  | one s => simp [testValue, Value.scalars]
  | many elems => cases elems <;> simp [testValue, Value.scalars]

theorem mixed_iff (v : Value) :
    v.Mixed ↔ (∃ s ∈ v.scalars, s.nonEmpty = true) ∧ ∃ s ∈ v.scalars, s.nonEmpty = false := by
  cases v with
  | missing => simp [Value.Mixed, Value.scalars]
  | one s => simp [Value.Mixed, Value.scalars]
  | many elems => simp [Value.Mixed, Value.scalars]

section Conditions
variable [Text.LowerCase] [CaseFolding] [Patterns]

def presentPred (name : Name) : Pred := .field { field := name, op := some .present }

def emptyPred (name : Name) : Pred := .field { field := name, op := some .empty }

variable {name path : Name} {f : Field}

theorem compile_presentPred (found : Field.lookup name = some f) :
    compilePred path (presentPred name) = .ok (.leaf f .present false fun _ => false) := by
  simp [presentPred, compilePred, compileLeaf, found]

theorem compile_emptyPred (found : Field.lookup name = some f) :
    compilePred path (emptyPred name) = .ok (.leaf f .empty false fun _ => false) := by
  simp [emptyPred, compilePred, compileLeaf, found]

/-- Of the two conditions on a field at least one holds, and both do exactly if the field holds a list in which
    some elements are empty and some are not. -/
theorem present_or_empty (name path : Name) (f : Field) (found : Field.lookup name = some f) :
    ∃ there gone, compilePred path (presentPred name) = .ok there ∧ compilePred path (emptyPred name) = .ok gone ∧
      ∀ e : Env, (there.eval e = true ∨ gone.eval e = true) ∧
        ((there.eval e = true ∧ gone.eval e = true) ↔ (e.lookup f).Mixed) := by
  refine ⟨_, _, compile_presentPred found, compile_emptyPred found, fun e => ?_⟩
  have filled : (Matcher.leaf f .present false fun _ => false).eval e = true ↔
      ∃ s ∈ (e.lookup f).scalars, s.nonEmpty = true := by
    rw [Matcher.eval, testValue_any (by decide), List.any_eq_true]
    rfl
  have blank : (Matcher.leaf f .empty false fun _ => false).eval e = true ↔
      (e.lookup f).scalars = [] ∨ ∃ s ∈ (e.lookup f).scalars, s.nonEmpty = false := by
    rw [Matcher.eval, testValue_empty]
    simp [testScalar]
  rw [filled, blank, mixed_iff]
  constructor
  · by_cases none : (e.lookup f).scalars = []
    · exact .inr (.inl none)
    · obtain ⟨s, rest, listed⟩ := List.exists_cons_of_ne_nil none
      have first : s ∈ (e.lookup f).scalars := by simp [listed]
      cases full : s.nonEmpty with
      | true => exact .inl ⟨s, first, full⟩
      | false => exact .inr (.inr ⟨s, first, full⟩)
  · constructor
    · intro ⟨⟨s, member, full⟩, gone⟩
      refine ⟨⟨s, member, full⟩, gone.resolve_left ?_⟩
      intro none
      rw [none] at member
      cases member
    · intro ⟨there, gone⟩
      exact ⟨there, .inr gone⟩

end Conditions

section Sample
open scoped Ascii

def filenames : Name := "attachment.filename".toList

theorem filenames_known : Field.lookup filenames = some .attachmentFilename := by decide +kernel

def attaching (names : List Name) : Env where
  stage := .data
  msg := some { attachments := names.map fun filename =>
    { filename, contentType := [], md5 := [], disposition := [], size := 0 } }

theorem present_or_empty_unnamed : ∃ there gone, compilePred [] (presentPred filenames) = .ok there ∧
    compilePred [] (emptyPred filenames) = .ok gone ∧ ¬ (there.eval (attaching [[]]) = true ∧ gone.eval (attaching [[]]) = true) := by
  obtain ⟨there, gone, compiled, compiled', law⟩ := present_or_empty filenames [] .attachmentFilename filenames_known
  refine ⟨there, gone, compiled, compiled', fun both => ?_⟩
  obtain ⟨⟨s, member, full⟩, _⟩ := (mixed_iff _).mp ((law (attaching [[]])).2.mp both)
  have blank : ∀ s ∈ ((attaching [[]]).lookup .attachmentFilename).scalars, s.nonEmpty = false := by decide
  rw [blank s member] at full
  cases full

/-- One attachment has a name and one has none: the field is there, and it is empty. -/
theorem present_and_empty : ¬ ∀ (name path : Name) (f : Field) (there gone : Matcher), Field.lookup name = some f →
    compilePred path (presentPred name) = .ok there → compilePred path (emptyPred name) = .ok gone →
      ∀ e : Env, (there.eval e = true ∧ gone.eval e = false) ∨ (there.eval e = false ∧ gone.eval e = true) := by
  intro either
  have one := either filenames [] .attachmentFilename _ _ filenames_known (compile_presentPred filenames_known)
    (compile_emptyPred filenames_known) (attaching [[], "a.exe".toList])
  have both : (Matcher.leaf .attachmentFilename .present false fun _ => false).eval (attaching [[], "a.exe".toList]) = true ∧
      (Matcher.leaf .attachmentFilename .empty false fun _ => false).eval (attaching [[], "a.exe".toList]) = true := by
    decide
  rw [both.1, both.2] at one
  simp at one

end Sample

theorem testScalar_eq {op : Op} (compares : op ≠ .present ∧ op ≠ .empty) (fn : Scalar → Bool) : testScalar op fn = fn := by
  ext s
  cases op <;> first | rfl | exact absurd rfl compares.1 | exact absurd rfl compares.2

section Literals
variable {β : Type} [DecidableEq β] {parse : Literal → Except BadOperand β} {get : Scalar → β} {raws : List Literal}
  {fn : Comparator}

def lookupAmong (parse : Literal → Except BadOperand β) (get : Scalar → β) (raws : List Literal) :
    Except BadOperand Comparator := do
  let set ← raws.mapM parse
  return fun v => get v ∈ set

def compareWith (parse : Literal → Except BadOperand β) (get : Scalar → β) (raw : Literal) :
    Except BadOperand Comparator := do
  let lit ← parse raw
  return fun v => get v == lit

theorem compareWith_ok {lit : β} {raw : Literal} (read : parse raw = .ok lit) :
    compareWith parse get raw = .ok fun v => get v == lit := by
  rw [compareWith, read]
  rfl

variable (parse) in
/-- Literals that are accepted together are accepted one by one, and a value is found among them if it is equal to
    one of them. -/
theorem lookupAmong_ok (accepted : lookupAmong parse get raws = .ok fn) :
    (∀ raw ∈ raws, ∃ eq, compareWith parse get raw = .ok eq) ∧
      ∀ s, fn s = true ↔ ∃ raw ∈ raws, ∃ eq, compareWith parse get raw = .ok eq ∧ eq s = true := by
  unfold lookupAmong at accepted
  cases literals : raws.mapM parse with
  | error problem =>
    rw [literals] at accepted
    cases accepted
  | ok set =>
    rw [literals] at accepted
    cases accepted
    constructor
    · intro raw member
      obtain ⟨lit, read⟩ := ok_of_mapM literals raw member
      exact ⟨_, compareWith_ok read⟩
    · intro s
      have among := mem_mapM literals (get s)
      simp only [decide_eq_true_eq, among]
      constructor
      · intro ⟨raw, member, read⟩
        exact ⟨raw, member, _, compareWith_ok read, beq_self_eq_true _⟩
      · intro ⟨raw, member, eq, compiled, holds⟩
        obtain ⟨lit, read⟩ := ok_of_mapM literals raw member
        rw [compareWith_ok read] at compiled
        cases compiled
        rw [eq_of_beq holds]
        exact ⟨raw, member, read⟩

end Literals

theorem map_eq_map_iff_zip {α β : Type} (f : α → β) (s t : List α) :
    s.map f = t.map f ↔ s.length = t.length ∧ ∀ p ∈ s.zip t, f p.1 = f p.2 := by
  induction s generalizing t with
  | nil => cases t <;> simp
  | cons c s ih =>
    cases t with
    | nil => simp
    | cons d t =>
      simp only [List.map_cons, List.cons.injEq, ih, List.length_cons, Nat.add_right_cancel_iff, List.zip_cons_cons,
        List.forall_mem_cons]
      exact and_left_comm

section Comparisons
variable [Text.LowerCase] [CaseFolding] [Patterns]

/-- Characters of one lower case that do not fold together, or that do in two lower cases. -/
def Misjudged (c d : Char) : Prop :=
  ¬ (Text.LowerCase.lowerChar c = Text.LowerCase.lowerChar d ↔ CaseFolding.fold c = CaseFolding.fold d)

instance (c d : Char) : Decidable (Misjudged c d) := inferInstanceAs (Decidable ¬ _)

/-- Texts that are alike letter by letter in one of the two ways, and not in the other one. -/
def Confused (s t : Name) : Prop :=
  s.length = t.length ∧
    ((∀ p ∈ s.zip t, Text.LowerCase.lowerChar p.1 = Text.LowerCase.lowerChar p.2) ∨
      ∀ p ∈ s.zip t, CaseFolding.fold p.1 = CaseFolding.fold p.2) ∧
    ∃ p ∈ s.zip t, Misjudged p.1 p.2

instance (s t : Name) : Decidable (Confused s t) := inferInstanceAs (Decidable (_ ∧ _))

def Unconfused (field : FieldDef) (ci : Bool) (raws : List Literal) (v : Value) : Prop :=
  field.kind = .string → ci = true → ∀ s ∈ v.scalars, ∀ raw ∈ raws, ¬ Confused s.asStr raw.toStr

omit [Patterns] in
theorem confused_iff (s t : Name) : Confused s t ↔ ¬ (Text.toLower s = Text.toLower t ↔ equalFold s t = true) := by
  rw [Text.toLower, Text.toLower, equalFold_iff, map_eq_map_iff_zip, map_eq_map_iff_zip]
  constructor
  · rintro ⟨long, lower | folds, p, member, misjudged⟩ alike
    · have folds := (alike.mp ⟨long, lower⟩).2
      exact misjudged (iff_of_true (lower p member) (folds p member))
    · have lower := (alike.mpr ⟨long, folds⟩).2
      exact misjudged (iff_of_true (lower p member) (folds p member))
  · intro apart
    by_contra clear
    have agree : ∀ p ∈ s.zip t, s.length = t.length →
        ((∀ p ∈ s.zip t, Text.LowerCase.lowerChar p.1 = Text.LowerCase.lowerChar p.2) ∨
          ∀ p ∈ s.zip t, CaseFolding.fold p.1 = CaseFolding.fold p.2) →
        (Text.LowerCase.lowerChar p.1 = Text.LowerCase.lowerChar p.2 ↔ CaseFolding.fold p.1 = CaseFolding.fold p.2) := by
      intro p member long one
      by_contra misjudged
      exact clear ⟨long, one, p, member, misjudged⟩
    apply apart
    constructor
    · rintro ⟨long, lower⟩
      exact ⟨long, fun p member => (agree p member long (.inl lower)).mp (lower p member)⟩
    · rintro ⟨long, folds⟩
      exact ⟨long, fun p member => (agree p member long (.inr folds)).mpr (folds p member)⟩

variable {raws : List Literal} {field : FieldDef} {ci : Bool} {fn : Comparator}

theorem compileEq_of_in (accepted : compileIn raws field ci = .ok fn) :
    ∀ raw ∈ raws, ∃ eq, compileEq raw field ci = .ok eq := by
  unfold compileIn at accepted
  unfold compileEq
  cases kind : field.kind <;> rw [kind] at accepted
  case string => exact fun _ _ => ⟨_, rfl⟩
  case bool => cases accepted
  case int => exact (lookupAmong_ok Literal.toInt accepted).1
  case ip => exact (lookupAmong_ok Literal.toIP accepted).1

/-- But for texts whose case is folded, `in` holds of a scalar if `eq` holds of it for one of the literals. -/
theorem compileIn_exact (accepted : compileIn raws field ci = .ok fn) (plain : field.kind = .string → ci = false)
    (s : Scalar) : fn s = true ↔ ∃ raw ∈ raws, ∃ eq, compileEq raw field ci = .ok eq ∧ eq s = true := by
  unfold compileIn at accepted
  unfold compileEq
  cases kind : field.kind <;> rw [kind] at accepted plain
  case string =>
    cases accepted
    rw [plain rfl]
    simp only [caseOf, Bool.false_eq_true, if_false, decide_eq_true_eq, List.mem_map]
    constructor
    · intro ⟨raw, member, same⟩
      exact ⟨raw, member, _, rfl, by simp [same]⟩
    · intro ⟨raw, member, eq, compiled, holds⟩
      cases compiled
      exact ⟨raw, member, (eq_of_beq holds).symm⟩
  case bool => cases accepted
  case int => exact (lookupAmong_ok Literal.toInt accepted).2 s
  case ip => exact (lookupAmong_ok Literal.toIP accepted).2 s

omit [CaseFolding] in
theorem compileIn_folded (accepted : compileIn raws field true = .ok fn) (text : field.kind = .string) (s : Scalar) :
    fn s = true ↔ ∃ raw ∈ raws, Text.toLower s.asStr = Text.toLower raw.toStr := by
  unfold compileIn at accepted
  rw [text] at accepted
  cases accepted
  simp only [caseOf, if_true, decide_eq_true_eq, List.mem_map]
  constructor
  · intro ⟨raw, member, same⟩
    exact ⟨raw, member, same.symm⟩
  · intro ⟨raw, member, same⟩
    exact ⟨raw, member, same.symm⟩

omit [Text.LowerCase] in
theorem compileEq_folded (raw : Literal) (text : field.kind = .string) :
    compileEq raw field true = .ok fun v => equalFold v.asStr raw.toStr := by
  unfold compileEq
  rw [text]
  rfl

def inPred (name : Name) (ci : Option Bool) (raws : List Literal) : Pred :=
  .field { field := name, op := some .isIn, values := some raws, ci }

def eqPred (name : Name) (ci : Option Bool) (raw : Literal) : Pred :=
  .field { field := name, op := some .eq, value := some raw, ci }

variable {name path : Name} {f : Field} {given : Option Bool} {m : Matcher}

theorem compile_inPred (found : Field.lookup name = some f) (compiled : compilePred path (inPred name given raws) = .ok m) :
    ∃ fn, compileIn raws f.info (given.getD f.info.ci) = .ok fn ∧ m = .leaf f .isIn false fn := by
  simp only [inPred, compilePred, compileLeaf, found, compileOperand, compileOp, Bool.false_and, Bool.false_eq_true,
    if_false, Option.getD_some, Option.isSome_none] at compiled
  split at compiled
  · cases compiled
  · split at compiled
    · cases compiled
    · rename_i fn accepted
      cases compiled
      exact ⟨fn, accepted, rfl⟩

theorem compile_eqPred (found : Field.lookup name = some f) (raw : Literal) :
    ∀ m', compilePred path (eqPred name given raw) = .ok m' ↔
      ∃ eq, compileEq raw f.info (given.getD f.info.ci) = .ok eq ∧ m' = .leaf f .eq false eq := by
  intro m'
  simp only [eqPred, compilePred, compileLeaf, found, compileOperand, compileOp, Bool.false_and, Bool.false_eq_true,
    if_false, Option.getD_some, Option.isNone_some, Option.isSome_none]
  split
  · rename_i problem refused
    simp [refused, fail]
  · rename_i eq accepted
    simp [accepted, eq_comm]

theorem eval_inPred (found : Field.lookup name = some f) (compiled : compilePred path (inPred name given raws) = .ok m)
    (e : Env) : ∃ fn, compileIn raws f.info (given.getD f.info.ci) = .ok fn ∧
      (m.eval e = true ↔ ∃ s ∈ (e.lookup f).scalars, fn s = true) := by
  obtain ⟨fn, accepted, rfl⟩ := compile_inPred found compiled
  refine ⟨fn, accepted, ?_⟩
  rw [Matcher.eval, testValue_any (by decide), testScalar_eq (by decide), List.any_eq_true]

theorem eval_eqPreds (found : Field.lookup name = some f) (e : Env) :
    (∃ raw ∈ raws, ∃ m', compilePred path (eqPred name given raw) = .ok m' ∧ m'.eval e = true) ↔
      ∃ s ∈ (e.lookup f).scalars, ∃ raw ∈ raws, ∃ eq, compileEq raw f.info (given.getD f.info.ci) = .ok eq ∧ eq s = true := by
  constructor
  · intro ⟨raw, member, m', compiled, holds⟩
    obtain ⟨eq, accepted, rfl⟩ := (compile_eqPred found raw m').mp compiled
    rw [Matcher.eval, testValue_any (by decide), testScalar_eq (by decide), List.any_eq_true] at holds
    obtain ⟨s, among, equal⟩ := holds
    exact ⟨s, among, raw, member, eq, accepted, equal⟩
  · intro ⟨s, among, raw, member, eq, accepted, equal⟩
    refine ⟨raw, member, _, (compile_eqPred found raw _).mpr ⟨eq, accepted, rfl⟩, ?_⟩
    rw [Matcher.eval, testValue_any (by decide), testScalar_eq (by decide), List.any_eq_true]
    exact ⟨s, among, equal⟩

theorem anyOf_cases (found : Field.lookup name = some f) (compiled : compilePred path (inPred name given raws) = .ok m)
    (e : Env) :
    (f.info.kind = .string ∧ given.getD f.info.ci = true) ∧
      (m.eval e = true ↔
        ∃ s ∈ (e.lookup f).scalars, ∃ raw ∈ raws, Text.toLower s.asStr = Text.toLower raw.toStr) ∧
      ((∃ raw ∈ raws, ∃ m', compilePred path (eqPred name given raw) = .ok m' ∧ m'.eval e = true) ↔
        ∃ s ∈ (e.lookup f).scalars, ∃ raw ∈ raws, equalFold s.asStr raw.toStr = true) ∨
    ¬ (f.info.kind = .string ∧ given.getD f.info.ci = true) ∧
      (m.eval e = true ↔ ∃ raw ∈ raws, ∃ m', compilePred path (eqPred name given raw) = .ok m' ∧ m'.eval e = true) := by
  obtain ⟨fn, accepted, holds⟩ := eval_inPred found compiled e
  rw [holds, eval_eqPreds found e]
  by_cases folded : f.info.kind = .string ∧ given.getD f.info.ci = true
  · left
    rw [folded.2] at accepted ⊢
    simp only [compileIn_folded accepted folded.1, compileEq_folded _ folded.1, folded.1, Except.ok.injEq,
      exists_eq_left', and_self]
  · right
    have plain : f.info.kind = .string → given.getD f.info.ci = false := by
      intro text
      by_contra folds
      exact folded ⟨text, by simpa using folds⟩
    simp only [compileIn_exact accepted plain, folded, not_false_eq_true, and_self]

/-- Whatever literals `in` accepts, `eq` accepts each of them, and `in` holds exactly where one of the conditions `eq`
    does unless case is folded and a text of the value is confused with a literal. Of one text and one literal the
    two conditions differ if these are confused. -/
theorem in_anyOf_eq_iff (name path : Name) (f : Field) (given : Option Bool) (raws : List Literal) (m : Matcher)
    (found : Field.lookup name = some f) (compiled : compilePred path (inPred name given raws) = .ok m) :
    (∀ raw ∈ raws, ∃ m', compilePred path (eqPred name given raw) = .ok m') ∧
    (∀ e : Env, Unconfused f.info (given.getD f.info.ci) raws (e.lookup f) → (m.eval e = true ↔
      ∃ raw ∈ raws, ∃ m', compilePred path (eqPred name given raw) = .ok m' ∧ m'.eval e = true)) ∧
    ∀ e : Env, (∃ s raw, (e.lookup f).scalars = [s] ∧ raws = [raw]) → ((m.eval e = true ↔
        ∃ raw ∈ raws, ∃ m', compilePred path (eqPred name given raw) = .ok m' ∧ m'.eval e = true) ↔
      Unconfused f.info (given.getD f.info.ci) raws (e.lookup f)) := by
  refine ⟨?_, ?_, ?_⟩
  · obtain ⟨fn, accepted, _⟩ := compile_inPred found compiled
    intro raw member
    obtain ⟨eq, compiledEq⟩ := compileEq_of_in accepted raw member
    exact ⟨_, (compile_eqPred found raw _).mpr ⟨eq, compiledEq, rfl⟩⟩
  · intro e unconfused
    rcases anyOf_cases found compiled e with ⟨⟨text, folds⟩, isIn, isEq⟩ | ⟨-, same⟩
    · rw [isIn, isEq]
      have alike : ∀ s ∈ (e.lookup f).scalars, ∀ raw ∈ raws,
          (Text.toLower s.asStr = Text.toLower raw.toStr ↔ equalFold s.asStr raw.toStr = true) := by
        intro s among raw member
        by_contra apart
        exact unconfused text folds s among raw member ((confused_iff _ _).mpr apart)
      constructor
      · rintro ⟨s, among, raw, member, lower⟩
        exact ⟨s, among, raw, member, (alike s among raw member).mp lower⟩
      · rintro ⟨s, among, raw, member, equal⟩
        exact ⟨s, among, raw, member, (alike s among raw member).mpr equal⟩
    · exact same
  · rintro e ⟨s, raw, one, rfl⟩
    rcases anyOf_cases found compiled e with ⟨⟨text, folds⟩, isIn, isEq⟩ | ⟨plain, same⟩
    · rw [isIn, isEq, Unconfused, one]
      simp only [List.mem_singleton, exists_eq_left, forall_eq, text, folds, forall_const, confused_iff, not_not]
    · refine iff_of_true same ?_
      intro text folds
      exact absurd ⟨text, folds⟩ plain

end Comparisons

section Sample

local instance greekLower : Text.LowerCase := ⟨Char.toLower⟩
local instance greekFolding : CaseFolding := ⟨fun c => if c = 'ς' then 'σ' else c.toLower⟩
local instance greekPatterns : Patterns := ⟨fun _ _ _ => none, fun _ => none, fun _ => none, fun _ => none⟩

def authUserName : Name := "auth.user".toList

def users : List Literal := [.str "root".toList, .str "νικος".toList]

def usersMatcher : Matcher :=
  .leaf .authUser .isIn false fun v => decide (caseOf true v.asStr ∈ users.map fun raw => caseOf true raw.toStr)

def asUser (user : Name) : Env where
  stage := .mail
  helo := some { authUser := user }

theorem in_anyOf_eq_root : usersMatcher.eval (asUser "ROOT".toList) = true ∧ ∃ raw ∈ users, ∃ m',
    compilePred [] (eqPred authUserName none raw) = .ok m' ∧ m'.eval (asUser "ROOT".toList) = true := by
  have clear : Unconfused Field.authUser.info true users ((asUser "ROOT".toList).lookup .authUser) := by
    intro _ _
    decide
  have found : usersMatcher.eval (asUser "ROOT".toList) = true := by decide
  exact ⟨found, ((in_anyOf_eq_iff authUserName [] .authUser none users usersMatcher (by decide) (by rfl)).2.1
    (asUser "ROOT".toList) clear).mp found⟩

/-- A name with the other sigma at its end is one of the users for `eq`, and none for `in`. -/
theorem in_misses_sigma : ¬ ∀ (name path : Name) (f : Field) (given : Option Bool) (raws : List Literal) (m : Matcher),
    Field.lookup name = some f → compilePred path (inPred name given raws) = .ok m → ∀ e : Env,
      (m.eval e = true ↔ ∃ raw ∈ raws, ∃ m', compilePred path (eqPred name given raw) = .ok m' ∧ m'.eval e = true) := by
  intro anyOf
  have law := anyOf authUserName [] .authUser none users usersMatcher (by decide) (by rfl) (asUser "νικοσ".toList)
  have missed : usersMatcher.eval (asUser "νικοσ".toList) = false := by decide
  have equal : (Matcher.leaf .authUser .eq false fun v => equalFold v.asStr "νικος".toList).eval (asUser "νικοσ".toList) = true := by
    decide
  have found := law.mpr ⟨.str "νικος".toList, by decide, _, by rfl, equal⟩
  rw [missed] at found
  cases found

end Sample

end Mailgw.Rules
