import Mailgw.Rules.Compile

namespace Mailgw.Rules

open Queue

namespace Tags

@[simp] theorem get_nil (key : Name) : get [] key = none := rfl

@[simp] theorem get_cons (k v : Name) (rest : Tags) (key : Name) :
    get ((k, v) :: rest) key = if key = k then some v else rest.get key := by
  by_cases same : key = k
  · simp [get, same]
  · have differ : (key == k) = false := by simpa using same
    simp [get, List.lookup_cons, same, differ]

@[simp] theorem get_set (tags : Tags) (key value key' : Name) :
    (tags.set key value).get key' = if key' = key then some value else tags.get key' := by
  induction tags with
  | nil => simp [set]
  | cons entry rest ih =>
    obtain ⟨k, v⟩ := entry
    by_cases found : k = key
    · subst found
      by_cases same : key' = k <;> simp [set, same]
    · by_cases same : key' = k
      · subst same
        simp [set, found]
      · simp [set, found, same, ih]

end Tags

section Agreement
variable [Text.LowerCase] {s s' : Stage} {e e' e'' : Env}

/-- Nothing that is known at the stage tells the two environments apart. -/
def Env.Agree (s : Stage) (e e' : Env) : Prop := ∀ f : Field, f.stage ≤ s → e.lookup f = e'.lookup f

namespace Env.Agree

theorem refl (s : Stage) (e : Env) : e.Agree s e := fun _ _ => rfl

theorem symm (agree : e.Agree s e') : e'.Agree s e := fun f known => (agree f known).symm

theorem trans (first : e.Agree s e') (second : e'.Agree s e'') : e.Agree s e'' :=
  fun f known => (first f known).trans (second f known)

theorem mono (agree : e.Agree s' e') (le : s ≤ s') : e.Agree s e' := fun f known => agree f (known.trans le)

theorem tags (agree : e.Agree s e') (key : Name) : e.tags.get key = e'.tags.get key := by
  have same := agree (.tag key) (by rw [Stage.le_iff]; exact Nat.zero_le _)
  simp only [Env.lookup] at same
  cases here : e.tags.get key <;> cases there : e'.tags.get key <;> simp_all

theorem setTag (agree : e.Agree s e') (key value : Name) : (e.setTag key value).Agree s (e'.setTag key value) := by
  intro f known
  have same := agree f known
  cases f with
  | tag k =>
    have here := agree.tags k
    simp only [Env.lookup, Env.setTag, Tags.get_set, here]
  | _ => exact same

end Env.Agree

theorem Env.agree_of_tags (s : Stage) (facts : e' = { e with tags := e'.tags })
    (tags : ∀ key, e.tags.get key = e'.tags.get key) : e.Agree s e' := by
  intro f _
  rw [facts]
  cases f with
  | tag key => simp only [lookup, tags key]
  | _ => rfl

def Env.atData (e : Env) (m : MsgEnv) : Env := { e with stage := .data, msg := some m }

theorem Env.agree_atData (e : Env) (m : MsgEnv) (early : s < .data) : e.Agree s (e.atData m) := by
  intro f known
  have before : f.stage < .data := lt_of_le_of_lt known early
  cases f <;> first | rfl | exact absurd before (lt_irrefl _)

omit [Text.LowerCase] in
mutual
theorem stage_of_mem_fields {f : Field} : ∀ m : Matcher, f ∈ m.fields → f.stage ≤ m.stage
  | .const b, member => by cases member
  | .all ms, member => stage_of_mem_fieldsOf ms member
  | .any ms, member => stage_of_mem_fieldsOf ms member
  | .not m, member => stage_of_mem_fields m member
  | .leaf field op universal fn, member => by
    rw [List.mem_singleton.mp member]
    exact le_refl _

theorem stage_of_mem_fieldsOf {f : Field} : ∀ ms : List Matcher, f ∈ Matcher.fieldsOf ms → f.stage ≤ Matcher.stageOf ms
  | [], member => by cases member
  | m :: ms, member => by
    rcases List.mem_append.mp member with here | later
    · exact le_max_of_le_left (stage_of_mem_fields m here)
    · exact le_max_of_le_right (stage_of_mem_fieldsOf ms later)
end

def Value.Alike (v v' : Value) : Prop :=
  ∀ (op : Op) (universal : Bool) (fn : Scalar → Bool), testValue op universal fn v = testValue op universal fn v'

mutual
theorem eval_alike : ∀ m : Matcher, (∀ f ∈ m.fields, (e.lookup f).Alike (e'.lookup f)) → m.eval e = m.eval e'
  | .const b, _ => rfl
  | .all ms, alike => by
    simp only [Matcher.eval]
    exact evalAll_alike ms alike
  | .any ms, alike => by
    simp only [Matcher.eval]
    exact evalAny_alike ms alike
  | .not m, alike => by
    simp only [Matcher.eval]
    rw [eval_alike m alike]
  | .leaf field op universal fn, alike => by
    simp only [Matcher.eval]
    exact alike field (List.mem_singleton_self field) op universal fn

theorem evalAll_alike : ∀ ms : List Matcher, (∀ f ∈ Matcher.fieldsOf ms, (e.lookup f).Alike (e'.lookup f)) →
    Matcher.evalAll e ms = Matcher.evalAll e' ms
  | [], _ => rfl
  | m :: ms, alike => by
    have here := eval_alike m fun f member => alike f (List.mem_append_left _ member)
    have later := evalAll_alike ms fun f member => alike f (List.mem_append_right _ member)
    simp only [Matcher.evalAll]
    rw [here, later]

theorem evalAny_alike : ∀ ms : List Matcher, (∀ f ∈ Matcher.fieldsOf ms, (e.lookup f).Alike (e'.lookup f)) →
    Matcher.evalAny e ms = Matcher.evalAny e' ms
  | [], _ => rfl
  | m :: ms, alike => by
    have here := eval_alike m fun f member => alike f (List.mem_append_left _ member)
    have later := evalAny_alike ms fun f member => alike f (List.mem_append_right _ member)
    simp only [Matcher.evalAny]
    rw [here, later]
end

theorem eval_congr (m : Matcher) (same : ∀ f ∈ m.fields, e.lookup f = e'.lookup f) : m.eval e = m.eval e' := by
  apply eval_alike m
  intro f member
  rw [same f member]
  exact fun _ _ _ => rfl

/-- A predicate reads nothing that is not known at its stage. -/
theorem eval_agree (agree : e.Agree s e') (m : Matcher) (known : m.stage ≤ s) : m.eval e = m.eval e' := by
  apply eval_congr m
  intro f member
  exact agree f ((stage_of_mem_fields m member).trans known)

theorem applies_agree (agree : e.Agree s e') (r : CompiledRule) (reached : r.stage ≤ s) :
    r.applies e = r.applies e' :=
  eval_agree agree r.pred (r.known.trans reached)

end Agreement

theorem applyActions_fst (actions : List Action) (e : Env) (headers headers' : List Header) :
    (applyActions actions e headers).1 = (applyActions actions e headers').1 := by
  induction actions generalizing e headers headers' with
  | nil => rfl
  | cons a rest ih => cases a <;> first | rfl | exact ih _ _ _

theorem applyActions_snd (actions : List Action) (e e' : Env) (headers : List Header) :
    (applyActions actions e headers).2 = (applyActions actions e' headers).2 := by
  induction actions generalizing e e' headers with
  | nil => rfl
  | cons a rest ih => cases a <;> first | rfl | exact ih _ _ _

theorem applyActions_action (actions : List Action) (e e' : Env) (headers headers' : List Header) :
    (applyActions actions e headers).2.2 = (applyActions actions e' headers').2.2 := by
  induction actions generalizing e e' headers headers' with
  | nil => rfl
  | cons a rest ih => cases a <;> first | rfl | exact ih _ _ _ _

theorem applyActions_agree [Text.LowerCase] {s : Stage} {e e' : Env} (agree : e.Agree s e') (actions : List Action)
    (headers headers' : List Header) :
    (applyActions actions e headers).1.Agree s (applyActions actions e' headers').1 := by
  induction actions generalizing e e' headers headers' with
  | nil => exact agree
  | cons a rest ih =>
    cases a with
    | tag key value => exact ih (agree.setTag key value) _ _
    | addHeader name value => exact ih agree _ _
    | _ => exact agree

theorem applyActions_atData (actions : List Action) (e : Env) (m : MsgEnv) (headers headers' : List Header) :
    (applyActions actions (e.atData m) headers).1 = (applyActions actions e headers').1.atData m := by
  induction actions generalizing e headers headers' with
  | nil => rfl
  | cons a rest ih =>
    cases a with
    | tag key value => exact ih (e.setTag key value) _ _
    | addHeader name value => exact ih e _ _
    | _ => rfl

theorem applyActions_get (actions : List Action) (key : Name) :
    (∃ value, ∀ e headers, (applyActions actions e headers).1.tags.get key = some value) ∨
      ∀ e headers, (applyActions actions e headers).1.tags.get key = e.tags.get key := by
  induction actions with
  | nil => exact .inr fun _ _ => rfl
  | cons a rest ih =>
    cases a with
    | tag k value =>
      rcases ih with ⟨written, gives⟩ | keeps
      · exact .inl ⟨written, fun e headers => gives _ _⟩
      · by_cases same : key = k
        · refine .inl ⟨value, fun e headers => (keeps _ _).trans ?_⟩
          simp [Env.setTag, same]
        · refine .inr fun e headers => (keeps _ _).trans ?_
          simp [Env.setTag, same]
    | addHeader name value =>
      rcases ih with ⟨written, gives⟩ | keeps
      · exact .inl ⟨written, fun e headers => gives _ _⟩
      · exact .inr fun e headers => keeps _ _
    | _ => exact .inr fun _ _ => rfl

theorem applyActions_env (actions : List Action) (e : Env) (headers : List Header) :
    (applyActions actions e headers).1 = { e with tags := (applyActions actions e headers).1.tags } := by
  induction actions generalizing e headers with
  | nil => rfl
  | cons a rest ih =>
    cases a with
    | tag key value => exact ih _ _
    | addHeader name value => exact ih _ _
    | _ => rfl

structure Env.Shared (s : Stage) (e e' : Env) : Prop where
  conn : e.conn = e'.conn
  helo : .helo ≤ s → e.helo = e'.helo
  mail : .mail ≤ s → e.mail = e'.mail
  rcpt : .rcpt ≤ s → e.rcpt = e'.rcpt
  msg : .data ≤ s → e.msg = e'.msg
  tags : ∀ key, e.tags.get key = e'.tags.get key

section Lookups
variable [Text.LowerCase] {s : Stage} {e e' : Env}

theorem Env.Shared.agree (shared : e.Shared s e') : e.Agree s e' := by
  intro f known
  have helo : Stage.helo ≤ f.stage → e.helo = e'.helo := fun reads => shared.helo (reads.trans known)
  have mail : Stage.mail ≤ f.stage → e.mail = e'.mail := fun reads => shared.mail (reads.trans known)
  have rcpt : Stage.rcpt ≤ f.stage → e.rcpt = e'.rcpt := fun reads => shared.rcpt (reads.trans known)
  have msg : Stage.data ≤ f.stage → e.msg = e'.msg := fun reads => shared.msg (reads.trans known)
  cases f with
  | tag key => simp only [lookup, shared.tags key]
  | connRemoteIP | connRemotePort | connLocalIP | connLocalPort | connIsPrivate | connIsLoopback =>
    simp only [lookup, ofConn, shared.conn]
  | heloName | connTLS | connTLSVersion | connTLSCipher | authAuthenticated | authUser | authMechanism =>
    simp only [lookup, ofHelo, helo (by decide)]
  | mailFrom | mailFromLocal | mailFromDomain | mailIsNullSender | mailIsDSN | mailSizeDeclared | mailBody
  | mailSMTPUTF8 | mailRequireTLS | spfResult | spfDomain =>
    simp only [lookup, ofMail, mail (by decide)]
  | rcptTo | rcptLocal | rcptDomain | rcptIndex | txnRcptCountSoFar =>
    simp only [lookup, ofRcpt, rcpt (by decide)]
  | _ => simp only [lookup, attachStrings, ofMsg, msg (by exact le_refl Stage.data)]

theorem Env.lookup_rcpt (e : Env) (r r' : Option RcptEnv) {f : Field} (other : f.stage ≠ .rcpt) :
    ({ e with rcpt := r } : Env).lookup f = ({ e with rcpt := r' } : Env).lookup f := by
  cases f <;> first | rfl | exact absurd rfl other

omit [Text.LowerCase] in
mutual
theorem stage_of_not_usesRcpt {f : Field} : ∀ m : Matcher, m.usesRcpt = false → f ∈ m.fields → f.stage ≠ .rcpt
  | .const b, _, member => by cases member
  | .all ms, free, member => stage_of_not_usesRcptOf ms free member
  | .any ms, free, member => stage_of_not_usesRcptOf ms free member
  | .not m, free, member => stage_of_not_usesRcpt m free member
  | .leaf field op universal fn, free, member => by
    rw [List.mem_singleton.mp member]
    exact of_decide_eq_false free

theorem stage_of_not_usesRcptOf {f : Field} : ∀ ms : List Matcher, Matcher.usesRcptOf ms = false →
    f ∈ Matcher.fieldsOf ms → f.stage ≠ .rcpt
  | [], _, member => by cases member
  | m :: ms, free, member => by
    have both := Bool.or_eq_false_iff.mp free
    rcases List.mem_append.mp member with here | later
    · exact stage_of_not_usesRcpt m both.1 here
    · exact stage_of_not_usesRcptOf ms both.2 later
end

theorem eval_rcpt (m : Matcher) (free : m.usesRcpt = false) (e : Env) (r r' : Option RcptEnv) :
    m.eval { e with rcpt := r } = m.eval { e with rcpt := r' } := by
  apply eval_congr m
  intro f member
  exact e.lookup_rcpt r r' (stage_of_not_usesRcpt m free member)

end Lookups

section Compiled
variable [Text.LowerCase] [CaseFolding] [Patterns]

/-- The stage of a compiled condition, and whether it reads the recipient, say what its verdict depends on:
    on the fields that are known at the stage, read one by one or part by part, and on the recipient
    only if it is marked so. -/
theorem compilePred_sound (path : Name) (p : Pred) (m : Matcher) (_ : compilePred path p = .ok m) :
    (∀ e e' : Env, e.Agree m.stage e' → m.eval e = m.eval e') ∧
      (∀ e e' : Env, e.Shared m.stage e' → m.eval e = m.eval e') ∧
      (m.usesRcpt = false → ∀ (e : Env) (r r' : Option RcptEnv), m.eval { e with rcpt := r } = m.eval { e with rcpt := r' }) := by
  have agreed : ∀ e e' : Env, e.Agree m.stage e' → m.eval e = m.eval e' := by
    intro e e' agree
    exact eval_agree agree m (le_refl _)
  refine ⟨agreed, ?_, eval_rcpt m⟩
  intro e e' shared
  exact agreed e e' shared.agree

end Compiled

section Sample
open scoped Ascii

def senderNamed : Pred := .any [
  .field { field := "auth.user".toList, op := some .present },
  .not (.field { field := "mail.from".toList, op := some .empty })]

def senderNamedMatcher : Matcher := .any [
  .leaf .authUser .present false fun _ => false,
  .not (.leaf .mailFrom .empty false fun _ => false)]

def atMail : Env where
  stage := .mail
  mail := some { fromAddr := "sender@example.com".toList }

def namedRcpt : RcptEnv where
  toAddr := "rcpt@example.com".toList
  index := 1
  countSoFar := 0

theorem compilePred_sound_sample :
    senderNamedMatcher.eval { atMail with msg := some {} } = senderNamedMatcher.eval atMail ∧
      senderNamedMatcher.eval { atMail with rcpt := some namedRcpt } = senderNamedMatcher.eval { atMail with rcpt := none } := by
  have compiled : compilePred [] senderNamed = .ok senderNamedMatcher := by rfl
  obtain ⟨_, shared, free⟩ := compilePred_sound [] senderNamed senderNamedMatcher compiled
  have early : ¬ Stage.data ≤ senderNamedMatcher.stage := by decide
  refine ⟨shared _ _ ?_, free (by decide) atMail (some namedRcpt) none⟩
  exact ⟨rfl, fun _ => rfl, fun _ => rfl, fun _ => rfl, fun late => absurd late early, fun _ => rfl⟩

end Sample

end Mailgw.Rules
