import Mailgw.Smtp.Conversation

namespace Mailgw.Smtp

open Queue Rules Calls

section History
variable [Text.LowerCase]

namespace Session

omit [Text.LowerCase] in
theorem foldl_setTag (tags : Tags) (e : Env) :
    (tags.foldl (fun e tag => e.setTag tag.1 tag.2) e).tags = e.tags.write tags := by
  induction tags generalizing e with
  | nil => rfl
  | cons tag rest ih => exact ih _

omit [Text.LowerCase] in
/-- The tags a recipient is evaluated with at DATA are those it left RCPT with, over the session's. -/
theorem dataEnvFor_tags (s : Session) (rs : RcptState) : (s.dataEnvFor rs).tags = s.env.tags.write rs.tags :=
  foldl_setTag _ _

end Session

namespace Conversation

omit [Text.LowerCase] in
/-- A tag that has been written at DATA reads, for a recipient, as what was written, and any other
    tag as the recipient's own last value, unless the tag has a value of the recipient's own. -/
theorem get_overlay {before own data : Writes} (earlier : before <+: own) (key : Name) :
    ((Tags.write [] (before ++ data)).write (Tags.write [] own)).get key =
      (own.latest key).or (data.latest key) := by
  obtain ⟨more, rfl⟩ := earlier
  have empty : Tags.Distinct [] := List.nodup_nil
  have distinct := empty.write (before ++ more)
  rw [Tags.get_write, distinct.latest]
  simp only [Tags.get_write, Writes.latest_append, Tags.get_nil, Option.or_none]
  cases Writes.latest more key <;> cases Writes.latest before key <;> simp

variable [AuthTexts] [CaseFolding]

/-- The tags of a recipient that is evaluated at DATA are the last values written to them along its
    history exactly when no tag written at DATA has another value of the recipient's from RCPT. -/
theorem latest_tag_iff (b : Backend) {connUUID hostname : Name} {tls : Option TLSState} {conn : ConnEnv}
    {rules : Option Ruleset} {c₀ c : Conversation} (greeted : greet connUUID hostname tls conn rules = .ok c₀)
    (run : Reachable (next b) (fun _ _ => True) c₀ c) (w : World) (bodyName : Name) (scan : Scan) {s' : Session}
    {result : SplitResult} (judged : c.session.judge b w bodyName scan = (s', .sorted result)) (i : Nat)
    {rs : RcptState} (accepted : c.session.rcpts[i]? = some rs) :
    ∃ writes, c.named[i]? = some writes ∧
      ((∀ key, (s'.dataEnvFor rs).tags.get key = (writes ++ c.session.dataWrites b w scan).latest key) ↔
        ∀ key value value', (c.session.dataWrites b w scan).latest key = some value → rs.tags.get key = some value' →
          value' = value) := by
  have recorded := recorded_run (recorded_greet greeted) run
  have written := (Session.judge_facts b w bodyName scan c.session).2
  rw [judged, recorded.tags, ← Tags.write_append] at written
  have same := congrArg (fun tags => tags[i]?) recorded.named
  simp only [List.getElem?_map, accepted, Option.map_some] at same
  obtain ⟨writes, history, tags⟩ := Option.map_eq_some_iff.mp same.symm
  refine ⟨writes, history, ?_⟩
  have earlier := recorded.before writes (List.mem_of_getElem? history)
  have own (key : Name) : rs.tags.get key = writes.latest key := by
    rw [← tags, Tags.get_write]
    simp
  have seen (key : Name) : (s'.dataEnvFor rs).tags.get key =
      (writes.latest key).or ((c.session.dataWrites b w scan).latest key) := by
    rw [Session.dataEnvFor_tags, written, ← tags]
    exact get_overlay earlier key
  simp only [seen, Writes.latest_append, own]
  constructor
  · intro latest key value value' data old
    have same := latest key
    rw [data, old] at same
    simpa using same
  · intro agree key
    cases data : Writes.latest (c.session.dataWrites b w scan) key with
    | none => simp
    | some value =>
      cases old : Writes.latest writes key with
      | none => rfl
      | some value' => simp [agree key value value' data old]

end Conversation

end History

section Sample

open Ascii

def tagging (first second : String) : Rules.File where
  policy := [
    { name := "first".toList, stage := first.toList, pred := .always true, actions := [.tag "k".toList "old".toList] },
    { name := "second".toList, stage := second.toList, pred := .always true, actions := [.tag "k".toList "new".toList] }]
  routes := [{ name := "out".toList, pred := .always true, actions := [.relay "out".toList] }]

def plainBackend : Backend := { hostname := "mx.example.com".toList }

namespace Conversation

def tagAtData (c : Conversation) : Option (Option Name × Option Name) :=
  match c.session.judge plainBackend {} "C.1.eml".toList emptyBody, c.session.rcpts[0]?, c.named[0]? with
  | (s', .sorted _), some rs, some writes =>
    some ((s'.dataEnvFor rs).tags.get "k".toList,
      (writes ++ c.session.dataWrites plainBackend {} emptyBody).latest "k".toList)
  | _, _, _ => none

/-- A rule at DATA rewrites a tag, and the recipient still sees what the tag was at RCPT. -/
theorem older_tag_wins : ∃ (rs : Ruleset) (c₀ c : Conversation) (s' : Session) (result : SplitResult) (r : RcptState)
    (writes : Writes), compile (tagging "mail" "data") none = .ok rs ∧
    greet "C".toList "client".toList none {} (some rs) = .ok c₀ ∧
    Reachable (next plainBackend) (fun _ _ => True) c₀ c ∧
    c.session.judge plainBackend {} "C.1.eml".toList emptyBody = (s', .sorted result) ∧
    c.session.rcpts[0]? = some r ∧ c.named[0]? = some writes ∧
    ¬ ∀ key, (s'.dataEnvFor r).tags.get key = (writes ++ c.session.dataWrites plainBackend {} emptyBody).latest key := by
  have ended : ((talk plainBackend (tagging "mail" "data") toOne).bind tagAtData) =
      some (some "old".toList, some "new".toList) := by decide
  obtain ⟨c, talked, facts⟩ := Option.bind_eq_some_iff.mp ended
  obtain ⟨rs, c₀, compiled, greeted, run⟩ := talk_reached talked
  unfold tagAtData at facts
  split at facts
  · rename_i s' result r writes judged accepted history
    simp only [Option.some.injEq, Prod.mk.injEq] at facts
    refine ⟨rs, c₀, c, s', result, r, writes, compiled, greeted, run, judged, accepted, history, ?_⟩
    intro latest
    have same := latest "k".toList
    rw [facts.1, facts.2] at same
    exact absurd same (by decide)
  · cases facts

theorem latest_tag_sample : ∃ (c : Conversation) (s' : Session) (result : SplitResult) (r : RcptState) (writes : Writes),
    c.session.judge plainBackend {} "C.1.eml".toList emptyBody = (s', .sorted result) ∧ c.named[0]? = some writes ∧
    (s'.dataEnvFor r).tags.get "k".toList = some "new".toList ∧
    ((∀ key, (s'.dataEnvFor r).tags.get key = (writes ++ c.session.dataWrites plainBackend {} emptyBody).latest key) ↔
      ∀ key value value', (c.session.dataWrites plainBackend {} emptyBody).latest key = some value →
        r.tags.get key = some value' → value' = value) := by
  have ended : ((talk plainBackend (tagging "connect" "mail") toOne).bind tagAtData) =
      some (some "new".toList, some "new".toList) := by decide
  obtain ⟨c, talked, facts⟩ := Option.bind_eq_some_iff.mp ended
  obtain ⟨rs, c₀, -, greeted, run⟩ := talk_reached talked
  unfold tagAtData at facts
  split at facts
  · rename_i s' result r writes judged accepted history
    simp only [Option.some.injEq, Prod.mk.injEq] at facts
    obtain ⟨writes', history', law⟩ := latest_tag_iff plainBackend greeted run {} "C.1.eml".toList emptyBody judged 0 accepted
    rw [history] at history'
    cases history'
    exact ⟨c, s', result, r, writes, judged, history, facts.1, law⟩
  · cases facts

end Conversation

end Sample

end Mailgw.Smtp
