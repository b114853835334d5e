import Mailgw.Smtp.Grouping
import Mailgw.Smtp.Isolation

namespace Mailgw.Smtp

open Queue Rules

/-- The same recipient at a place that may be another one, unless a rule reads it. -/
def RcptState.Moved (rules : Option Ruleset) (r r' : RcptState) : Prop :=
  r' = { r with index := r'.index } ∧ (r'.index = r.index ∨ ∀ rs ∈ rules, rs.Placeless)

def Regiven (rules : Option Ruleset) (rcpts rcpts' : List RcptState) : Prop :=
  ∃ order, order.Perm rcpts ∧ List.Forall₂ (RcptState.Moved rules) order rcpts'

section Orders
variable {rules : Option Ruleset} {rcpts rcpts' : List RcptState}

theorem RcptState.Moved.refl (rules : Option Ruleset) (r : RcptState) : r.Moved rules r := ⟨rfl, .inl rfl⟩

theorem Regiven.of_perm (same : rcpts'.Perm rcpts) : Regiven rules rcpts rcpts' :=
  ⟨rcpts', same, List.forall₂_same.mpr fun r _ => .refl rules r⟩

theorem map_moved {α : Type} {order : List RcptState} {f g : RcptState → α}
    (moved : List.Forall₂ (RcptState.Moved rules) order rcpts) (each : ∀ r r', r.Moved rules r' → g r' = f r) :
    rcpts.map g = order.map f := by
  induction moved with
  | nil => rfl
  | cons first _ ih => rw [List.map_cons, List.map_cons, each _ _ first, ih]

theorem Regiven.addrs (regiven : Regiven rules rcpts rcpts') : (rcpts'.map RcptState.addr).Perm (rcpts.map RcptState.addr) := by
  obtain ⟨order, same, moved⟩ := regiven
  have own : rcpts'.map RcptState.addr = order.map RcptState.addr := map_moved moved fun r r' first => by rw [first.1]
  rw [own]
  exact same.map _

end Orders

section Domains
variable [Text.LowerCase]

def domainKey (addr : Name) : Name := Text.toLower (domain addr)

theorem collected_domains (rcpts : List RcptState) (seen : List Name) (nodup : seen.Nodup) :
    (rcpts.foldl (fun seen rs =>
      let d := Text.toLower (domain rs.addr)
      if d = [] ∨ d ∈ seen then seen else seen ++ [d]) seen).Nodup ∧
    ∀ d, d ∈ rcpts.foldl (fun seen rs =>
      let d := Text.toLower (domain rs.addr)
      if d = [] ∨ d ∈ seen then seen else seen ++ [d]) seen ↔
        d ∈ seen ∨ d ≠ [] ∧ d ∈ (rcpts.map RcptState.addr).map domainKey := by
  induction rcpts generalizing seen with
  | nil => simp [nodup]
  | cons rs rcpts ih =>
    rw [List.foldl_cons]
    dsimp only
    split
    · rename_i known
      obtain ⟨each, all⟩ := ih seen nodup
      refine ⟨each, fun d => ?_⟩
      rw [all]
      simp only [List.map_cons, List.mem_cons, domainKey]
      constructor
      · tauto
      · intro either
        rcases either with old | ⟨some_, rfl | later⟩
        · exact .inl old
        · exact .inl (known.resolve_left some_)
        · exact .inr ⟨some_, later⟩
    · rename_i fresh
      rw [not_or] at fresh
      have grown : (seen ++ [Text.toLower (domain rs.addr)]).Nodup := by
        apply List.nodup_append.mpr ⟨nodup, List.nodup_singleton _, ?_⟩
        intro d old d' new same
        rw [same, List.mem_singleton.mp new] at old
        exact fresh.2 old
      obtain ⟨each, all⟩ := ih _ grown
      refine ⟨each, fun d => ?_⟩
      rw [all]
      simp only [List.map_cons, List.mem_cons, List.mem_append, List.not_mem_nil, or_false, domainKey]
      constructor
      · intro either
        rcases either with (old | rfl) | ⟨some_, later⟩
        · exact .inl old
        · exact .inr ⟨fresh.1, .inl rfl⟩
        · exact .inr ⟨some_, .inr later⟩
      · tauto

namespace Session

theorem rcptDomains_perm {s s' : Session} (same : (s'.rcpts.map RcptState.addr).Perm (s.rcpts.map RcptState.addr)) :
    s'.rcptDomains.Perm s.rcptDomains := by
  obtain ⟨nodup, all⟩ := collected_domains s.rcpts [] List.nodup_nil
  obtain ⟨nodup', all'⟩ := collected_domains s'.rcpts [] List.nodup_nil
  apply (List.perm_ext_iff_of_nodup nodup' nodup).mpr
  intro d
  rw [all', all, (same.map domainKey).mem_iff]

/-- The change of the facts about the message when its recipients are given in another order. -/
def reorder (s : Session) (rcpts : List RcptState) : Shift where
  rcptDomains names := if names = s.rcptDomains then Session.rcptDomains { s with rcpts } else names

variable {s : Session} {rcpts : List RcptState}

theorem reorder_perm (regiven : Regiven s.rules s.rcpts rcpts) (names : List Name) :
    ((s.reorder rcpts).rcptDomains names).Perm names := by
  simp only [reorder]
  split
  · rename_i own
    rw [own]
    exact rcptDomains_perm regiven.addrs
  · exact .refl names

theorem reorder_unmoved (regiven : Regiven s.rules s.rcpts rcpts) : ∀ rs ∈ s.rules, rs.Unmoved (s.reorder rcpts) :=
  fun _ _ => Ruleset.unmoved_of_perm rfl (reorder_perm regiven) (.inl ⟨rfl, rfl⟩)

theorem arrive_regiven (regiven : Regiven s.rules s.rcpts rcpts) (scan : Scan) :
    Session.arrive { s with rcpts } scan = (s.arrive scan).shift (s.reorder rcpts) rcpts s.rcptAccept := by
  have count : rcpts.length = s.rcpts.length := by simpa using regiven.addrs.length_eq
  simp only [arrive, shift, Env.shift, reorder, MsgEnv.shift, Option.map_some, if_true, count]
  cases s.env.rcpt <;> rfl

theorem settle_moved {o : Shift} {r r' : RcptState} {all : List RcptState} {n : Nat} (moved : r.Moved s.rules r')
    (place : o.index = id ∧ o.countSoFar = id) (count : o.rcptCount = id) (domains : ∀ names, (o.rcptDomains names).Perm names)
    (msgDrop : Option Drop) : (s.shift o all n).settle msgDrop r' = s.settle msgDrop r := by
  obtain ⟨own, either⟩ := moved
  rw [own]
  rcases either with same | placeless
  · have at_ : o.At o r.index r'.index := by
      rw [same]
      exact ⟨by rw [place.1]; rfl, by rw [place.2]; rfl, rfl, rfl⟩
    exact settle_shift at_ msgDrop fun _ _ => Ruleset.unmoved_of_perm count domains (.inl place)
  · have at_ : Shift.At { o with index := fun _ => (r'.index : Int), countSoFar := fun _ => (r'.index : Int) - 1 } o r.index r'.index :=
      ⟨rfl, rfl, rfl, rfl⟩
    exact settle_shift at_ msgDrop fun rs member => Ruleset.unmoved_of_perm count domains (.inr (placeless rs member))

def receivedOf (s : Session) (named : List (Name × Option RcptOptions)) : List RcptState :=
  named.filterMap fun r => (s.receive r.1 r.2).toOption

theorem nameAll_received (placeless : ∀ rs ∈ s.rules, rs.Placeless) (named : List (Name × Option RcptOptions))
    (all : List RcptState) (n : Nat) : ∃ fresh, List.Forall₂ (RcptState.Moved s.rules) (s.receivedOf named) fresh ∧
      Session.nameAll named { s with rcpts := all, rcptAccept := n } =
        { s with rcpts := all ++ fresh, rcptAccept := n + (s.receivedOf named).length } := by
  induction named generalizing all n with
  | nil => exact ⟨[], .nil, by simp [nameAll, receivedOf]⟩
  | cons r named ih =>
    obtain ⟨toAddr, opts⟩ := r
    have alone : Session.receive { s with rcpts := all, rcptAccept := n } toAddr opts = _ := receive_others toAddr opts
      fun rs member => Ruleset.unmoved_of_perm rfl (fun _ => .refl _) (.inr (placeless rs member))
    rw [nameAll, rcpt_receive, alone]
    cases received : s.receive toAddr opts with
    | error reply =>
      obtain ⟨fresh, moved, rest⟩ := ih all n
      have skipped : s.receivedOf ((toAddr, opts) :: named) = s.receivedOf named := by
        simp [receivedOf, received, Except.toOption]
      rw [skipped]
      exact ⟨fresh, moved, rest⟩
    | ok st =>
      obtain ⟨fresh, moved, rest⟩ := ih (all ++ [{ st with index := all.length + 1 }]) (n + 1)
      have kept : s.receivedOf ((toAddr, opts) :: named) = st :: s.receivedOf named := by
        simp [receivedOf, received, Except.toOption]
      rw [kept]
      refine ⟨{ st with index := all.length + 1 } :: fresh, .cons ⟨rfl, .inr placeless⟩ moved, ?_⟩
      rw [List.length_cons]
      simp only [Except.map]
      rw [rest]
      simp [Nat.add_assoc, Nat.add_comm 1]

omit [Text.LowerCase] in
theorem moved_right {rules : Option Ruleset} (placeless : ∀ rs ∈ rules, rs.Placeless) {order fresh fresh' : List RcptState}
    (first : List.Forall₂ (RcptState.Moved rules) order fresh) (second : List.Forall₂ (RcptState.Moved rules) order fresh') :
    List.Forall₂ (RcptState.Moved rules) fresh fresh' := by
  induction first generalizing fresh' with
  | nil =>
    cases second
    exact .nil
  | @cons r r' _ _ own _ ih =>
    cases second with
    | @cons _ r'' _ _ own' rest =>
      refine .cons ⟨?_, .inr placeless⟩ (ih rest)
      rw [own.1, own'.1]

theorem nameAll_regiven (placeless : ∀ rs ∈ s.rules, rs.Placeless) {named named' : List (Name × Option RcptOptions)}
    (same : named'.Perm named) : ∃ rcpts', s.nameAll named' = { s.nameAll named with rcpts := rcpts' } ∧
      Regiven s.rules (s.nameAll named).rcpts rcpts' := by
  obtain ⟨fresh, moved, first⟩ := nameAll_received placeless named s.rcpts s.rcptAccept
  obtain ⟨fresh', moved', second⟩ := nameAll_received placeless named' s.rcpts s.rcptAccept
  have received : (s.receivedOf named').Perm (s.receivedOf named) := same.filterMap _
  obtain ⟨between, across, ordered⟩ := List.perm_comp_forall₂ received moved
  refine ⟨s.rcpts ++ fresh', ?_, s.rcpts ++ between, ?_, ?_⟩
  · rw [second]
    change _ = { Session.nameAll named { s with rcpts := s.rcpts, rcptAccept := s.rcptAccept } with rcpts := s.rcpts ++ fresh' }
    rw [first, received.length_eq]
  · rw [first]
    exact ordered.append_left _
  · apply List.rel_append (List.forall₂_same.mpr fun r _ => .refl s.rules r)
    exact moved_right placeless across moved'

variable [AuthTexts] [CaseFolding]

theorem judge_regiven {b : Backend} {w : World} {bodyName : Name} {scan : Scan} {s₁ : Session} {msgDrop : Option Drop}
    (examined : (s.arrive scan).examine b w = (s₁, .ok msgDrop)) {order : List RcptState} (same : order.Perm s.rcpts)
    (moved : List.Forall₂ (RcptState.Moved s.rules) order rcpts) :
    ∃ s₂, Session.judge b w bodyName scan { s with rcpts } = (s₂, .sorted (s₂.split bodyName scan.size w.now msgDrop)) ∧
      s₂.rcpts.map (s₂.settle msgDrop) = order.map (s₁.settle msgDrop) := by
  have regiven : Regiven s.rules s.rcpts rcpts := ⟨order, same, moved⟩
  have keeps := examine_keeps b w (s.arrive scan)
  rw [examined] at keeps
  have rules : s₁.rules = s.rules := keeps.rules
  have unmoved : ∀ rs ∈ (s.arrive scan).rules, rs.Unmoved (s.reorder rcpts) := reorder_unmoved regiven
  have verdict : ((s.arrive scan).shift (s.reorder rcpts) rcpts s.rcptAccept).examine b w = _ := examine_shift b w unmoved
  rw [examined, ← arrive_regiven regiven] at verdict
  refine ⟨s₁.shift (s.reorder rcpts) rcpts s.rcptAccept, ?_, ?_⟩
  · rw [judge_examine, verdict]
  · rw [← rules] at moved
    exact map_moved moved fun r r' first => settle_moved first ⟨rfl, rfl⟩ rfl (reorder_perm regiven) msgDrop

end Session

end Domains

end Mailgw.Smtp
