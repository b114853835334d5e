import Mailgw.Lists.Checked
import Mailgw.Rules.Membership
import Mailgw.Rules.Operators

namespace Mailgw.Config

open Lists Queue Rules

/-- The standard library's readers of blocks and addresses. A block in a condition is masked when it is
    compiled, and is never written without a slash. -/
class Netip extends Patterns where
  readPrefix : Name → Option Prefix
  parsePrefix_eq : ∀ s, parsePrefix s = (readPrefix s).map fun p => p.masked.contains
  slash : ∀ s p, readPrefix s = some p → '/' ∈ s

inductive EntryProblem where
  | empty | notPrefix (text : Name) | notAddr (text : Name)
  deriving Repr, DecidableEq

inductive AllowProblem where
  | entry (index : Nat) (text : Name) (problem : EntryProblem) | nothingAllowed
  deriving Repr, DecidableEq

structure Allowlist where
  prefixes : List Prefix := []
  allowAll : Bool := false
  deriving Repr, DecidableEq

/-- Whether an address may open a session. A mapped one is taken for the IPv4 address it is. -/
def Allowlist.allowed (a : Allowlist) (addr : Addr) : Bool :=
  if a.allowAll then true
  else if addr = .invalid then false
  else a.prefixes.any fun p => p.contains addr.unmap

section Parsing
variable [Netip]

def parseEntry (s : Name) : Except EntryProblem Prefix :=
  let s := Text.trimSpace s
  if s = [] then .error .empty
  else if '/' ∈ s then
    match Netip.readPrefix s with
    | some p => .ok (normalizePrefix p.masked)
    | none => .error (.notPrefix s)
  else
    match (Patterns.parseAddr s).map Addr.unmap with
    | some (.v4 bits) => .ok (.v4 bits 32 (le_refl 32))
    | some (.v6 bits _) => .ok (.v6 bits 128 (le_refl 128))
    | _ => .error (.notAddr s)

def parseEntries (i : Nat) : List Name → Except AllowProblem (List Prefix)
  | [] => .ok []
  | e :: rest =>
    match parseEntry e with
    | .error problem => .error (.entry i e problem)
    | .ok p => do
      let ps ← parseEntries (i + 1) rest
      return p :: ps

def parseAllowlist (entries : List Name) (allowAll : Bool) : Except AllowProblem Allowlist := do
  let prefixes ← parseEntries 0 entries
  if prefixes = [] ∧ allowAll = false then .error .nothingAllowed else return { prefixes, allowAll }

def blocks (raws : List Literal) : List Prefix := raws.filterMap fun raw => Netip.readPrefix (Text.trimSpace raw.toStr)

/-- The address is in a block of mapped addresses, read as one of IPv4, and in none of the others. -/
def Overlooked (raws : List Literal) (addr : Addr) : Prop :=
  (∃ p ∈ blocks raws, p.Mapped ∧ (normalizePrefix p.masked).contains addr.unmap = true) ∧
    ∀ p ∈ blocks raws, ¬ p.Mapped → p.masked.contains addr.unmap = false

theorem parseEntry_block {s : Name} {p : Prefix} (read : Netip.readPrefix (Text.trimSpace s) = some p) :
    parseEntry s = .ok (normalizePrefix p.masked) := by
  have slash := Netip.slash _ _ read
  have some_ : Text.trimSpace s ≠ [] := List.ne_nil_of_mem slash
  rw [parseEntry, if_neg some_, if_pos slash, read]

theorem parseEntries_blocks (i : Nat) (raws : List Literal)
    (read : ∀ raw ∈ raws, ∃ p, Netip.readPrefix (Text.trimSpace raw.toStr) = some p) :
    parseEntries i (raws.map Literal.toStr) = .ok ((blocks raws).map fun p => normalizePrefix p.masked) := by
  induction raws generalizing i with
  | nil => rfl
  | cons raw rest ih =>
    rw [List.forall_mem_cons] at read
    obtain ⟨p, first⟩ := read.1
    rw [List.map_cons, parseEntries, parseEntry_block first, ih (i + 1) read.2, blocks, blocks, List.filterMap_cons, first]
    rfl

theorem blocks_ne_nil {raws : List Literal} (some_ : raws ≠ [])
    (read : ∀ raw ∈ raws, ∃ p, Netip.readPrefix (Text.trimSpace raw.toStr) = some p) : blocks raws ≠ [] := by
  obtain ⟨raw, rest, rfl⟩ := List.exists_cons_of_ne_nil some_
  obtain ⟨p, first⟩ := read raw (List.mem_cons_self ..)
  rw [blocks, List.filterMap_cons, first]
  exact List.cons_ne_nil _ _

def inCIDRPred (name : Name) (raws : List Literal) : Pred :=
  .field { field := name, op := some .inCIDR, values := some raws }

variable {name path : Name} {f : Field} {raws : List Literal} {m : Matcher}

def netOf (raw : Literal) : Except BadOperand (Addr → Bool) :=
  match Patterns.parsePrefix (Text.trimSpace raw.toStr) with
  | some net => .ok net
  | none => .error (.notCIDR raw.toStr)

theorem netOf_ok_iff (raw : Literal) (net : Addr → Bool) :
    netOf raw = .ok net ↔ ∃ p, Netip.readPrefix (Text.trimSpace raw.toStr) = some p ∧ net = p.masked.contains := by
  unfold netOf
  rw [Netip.parsePrefix_eq]
  cases read : Netip.readPrefix (Text.trimSpace raw.toStr) with
  | none => simp
  | some p => simp [eq_comm]

variable [Text.LowerCase] [CaseFolding]

theorem compileOp_inCIDR {raw : Literal} {field : FieldDef} {ci : Bool} {fn : Comparator}
    (accepted : compileOp .inCIDR raw raws field ci = .ok fn) :
    (∀ raw ∈ raws, ∃ p, Netip.readPrefix (Text.trimSpace raw.toStr) = some p) ∧
      ∀ v, fn v = true ↔ ∃ p ∈ blocks raws, p.masked.contains v.asIP.unmap = true := by
  have read : ∃ nets, raws.mapM netOf = .ok nets ∧ fn = fun v => nets.any fun net => net v.asIP.unmap := by
    unfold compileOp at accepted
    by_cases ip : field.kind = .ip
    · have reads : (do let nets ← raws.mapM netOf; return fun v => nets.any fun net => net v.asIP.unmap) = Except.ok fn := by
        rw [← accepted]
        simp only [ip, ne_eq, not_true_eq_false, if_false]
        rfl
      cases literals : raws.mapM netOf with
      | error problem =>
        rw [literals] at reads
        cases reads
      | ok nets =>
        rw [literals] at reads
        cases reads
        exact ⟨nets, rfl, rfl⟩
    · simp [ip, throw, throwThe, MonadExceptOf.throw, bind, Except.bind] at accepted
  obtain ⟨nets, literals, rfl⟩ := read
  constructor
  · intro raw member
    obtain ⟨net, got⟩ := ok_of_mapM literals raw member
    obtain ⟨p, block, _⟩ := (netOf_ok_iff raw net).mp got
    exact ⟨p, block⟩
  · intro v
    simp only [List.any_eq_true, mem_mapM literals, netOf_ok_iff, blocks, List.mem_filterMap]
    constructor
    · intro ⟨net, ⟨raw, member, p, block, same⟩, inside⟩
      exact ⟨p, ⟨raw, member, block⟩, same ▸ inside⟩
    · intro ⟨p, ⟨raw, member, block⟩, inside⟩
      exact ⟨_, ⟨raw, member, p, block, rfl⟩, inside⟩

theorem compile_inCIDRPred (found : Field.lookup name = some f) (compiled : compilePred path (inCIDRPred name raws) = .ok m) :
    raws ≠ [] ∧ ∃ raw fn, compileOp .inCIDR raw raws f.info f.info.ci = .ok fn ∧ m = .leaf f .inCIDR false fn := by
  simp only [inCIDRPred, compilePred, compileLeaf, found, compileOperand, Bool.false_and, Bool.false_eq_true, if_false,
    Option.getD_some, Option.getD_none, Option.isSome_none] at compiled
  split at compiled
  · cases compiled
  · rename_i some_
    split at compiled
    · cases compiled
    · rename_i fn accepted
      cases compiled
      exact ⟨by simpa using some_, _, fn, accepted, rfl⟩

theorem eval_inCIDR (found : Field.lookup name = some f) (compiled : compilePred path (inCIDRPred name raws) = .ok m)
    {e : Env} {addr : Addr} (reads : e.lookup f = Value.ofAddr addr) :
    m.eval e = true ↔ addr ≠ .invalid ∧ ∃ p ∈ blocks raws, ¬ p.Mapped ∧ p.masked.contains addr.unmap = true := by
  obtain ⟨_, raw, fn, accepted, rfl⟩ := compile_inCIDRPred found compiled
  have holds := (compileOp_inCIDR accepted).2
  have plain : (∃ p ∈ blocks raws, p.masked.contains addr.unmap = true) ↔
      ∃ p ∈ blocks raws, ¬ p.Mapped ∧ p.masked.contains addr.unmap = true := by
    constructor
    · intro ⟨p, member, inside⟩
      refine ⟨p, member, ?_, inside⟩
      intro mapped
      rw [p.masked_of_mapped mapped] at inside
      cases inside
    · intro ⟨p, member, _, inside⟩
      exact ⟨p, member, inside⟩
  rw [Matcher.eval, testValue_any (by decide), testScalar_eq (by decide), reads, ← plain]
  unfold Value.ofAddr
  by_cases invalid : addr = .invalid
  · simp [invalid, Value.scalars]
  · simp [invalid, Value.scalars, holds, Scalar.asIP]

omit [Text.LowerCase] [CaseFolding] in
/-- The allowlist of the same literals takes the address if one of the blocks contains it in its plain form. -/
theorem allowed_blocks (raws : List Literal) (addr : Addr) :
    (Allowlist.mk ((blocks raws).map fun p => normalizePrefix p.masked) false).allowed addr = true ↔
      addr ≠ .invalid ∧ ((∃ p ∈ blocks raws, ¬ p.Mapped ∧ p.masked.contains addr.unmap = true) ∨
        ∃ p ∈ blocks raws, p.Mapped ∧ (normalizePrefix p.masked).contains addr.unmap = true) := by
  have split : (∃ p ∈ blocks raws, (normalizePrefix p.masked).contains addr.unmap = true) ↔
      (∃ p ∈ blocks raws, ¬ p.Mapped ∧ p.masked.contains addr.unmap = true) ∨
        ∃ p ∈ blocks raws, p.Mapped ∧ (normalizePrefix p.masked).contains addr.unmap = true := by
    constructor
    · intro ⟨p, member, inside⟩
      by_cases mapped : p.Mapped
      · exact .inr ⟨p, member, mapped, inside⟩
      · rw [p.normalizePrefix_masked mapped] at inside
        exact .inl ⟨p, member, mapped, inside⟩
    · intro either
      rcases either with ⟨p, member, plain, inside⟩ | ⟨p, member, _, inside⟩
      · exact ⟨p, member, by rw [p.normalizePrefix_masked plain]; exact inside⟩
      · exact ⟨p, member, inside⟩
  rw [← split]
  unfold Allowlist.allowed
  by_cases invalid : addr = .invalid
  · simp [invalid]
  · simp [invalid]

/-- Blocks that a condition takes make an allowlist, and the two agree on an address unless it is overlooked. -/
theorem inCIDR_allowed_iff (name path : Name) (f : Field) (raws : List Literal) (m : Matcher)
    (found : Field.lookup name = some f) (compiled : compilePred path (inCIDRPred name raws) = .ok m) :
    ∃ list, parseAllowlist (raws.map Literal.toStr) false = .ok list ∧
      ∀ (e : Env) (addr : Addr), e.lookup f = Value.ofAddr addr →
        ((m.eval e = true ↔ list.allowed addr = true) ↔ ¬ Overlooked raws addr) := by
  obtain ⟨some_, raw, fn, accepted, _⟩ := compile_inCIDRPred found compiled
  have read := (compileOp_inCIDR accepted).1
  refine ⟨{ prefixes := (blocks raws).map fun p => normalizePrefix p.masked }, ?_, ?_⟩
  · rw [parseAllowlist, parseEntries_blocks 0 raws read]
    have filled : ((blocks raws).map fun p => normalizePrefix p.masked) ≠ [] := by simpa using blocks_ne_nil some_ read
    simp only [bind, Except.bind, filled, false_and, if_false]
    rfl
  · intro e addr reads
    rw [eval_inCIDR found compiled reads, allowed_blocks]
    have none : (∀ p ∈ blocks raws, ¬ p.Mapped → p.masked.contains addr.unmap = false) ↔
        ¬ ∃ p ∈ blocks raws, ¬ p.Mapped ∧ p.masked.contains addr.unmap = true := by simp
    unfold Overlooked
    rw [none]
    by_cases invalid : addr = .invalid
    · have outside : ∀ p : Prefix, p.contains Addr.invalid.unmap = false := by
        intro p
        cases p <;> rfl
      rw [invalid]
      simp [outside]
    · simp only [ne_eq, invalid, not_false_eq_true, true_and]
      by_cases plain : ∃ p ∈ blocks raws, ¬ p.Mapped ∧ p.masked.contains addr.unmap = true
      · simp only [plain, true_or, not_true_eq_false, and_false, not_false_eq_true]
      · simp only [plain, false_or, not_false_eq_true, and_true, false_iff]

end Parsing

section Sample

local instance asciiLower : Text.LowerCase := ⟨Char.toLower⟩
local instance asciiFolding : CaseFolding := ⟨Char.toLower⟩

def mappedTen : Name := "::ffff:10.0.0.0/104".toList

def docNet : Name := "192.0.2.0/24".toList

def readTwo (s : Name) : Option Prefix :=
  if s = mappedTen then some (.v6 0xffff0a000000#128 104 (by omega))
  else if s = docNet then some (.v4 0xc0000200#32 24 (by omega))
  else none

theorem readTwo_slash (s : Name) (p : Prefix) (read : readTwo s = some p) : '/' ∈ s := by
  unfold readTwo at read
  split at read
  · rename_i same
    rw [same]
    decide
  · split at read
    · rename_i same
      rw [same]
      decide
    · cases read

local instance twoBlocks : Netip where
  compileGlob _ _ _ := none
  compileRegex _ := none
  parseAddr _ := none
  parsePrefix s := (readTwo s).map fun p => p.masked.contains
  readPrefix := readTwo
  parsePrefix_eq _ := rfl
  slash := readTwo_slash

def remoteIP : Name := "conn.remote_ip".toList

def twoLiterals : List Literal := [.str mappedTen, .str docNet]

def client (addr : Addr) : Env where
  stage := .connect
  conn := some { remoteIP := addr }

def inTwo : Except CompileError Matcher := compilePred [] (inCIDRPred remoteIP twoLiterals)

theorem remoteIP_known : Field.lookup remoteIP = some .connRemoteIP := by decide

theorem inTwo_ok : inTwo.isOk = true := by decide

def allowTwo : Except AllowProblem Allowlist := parseAllowlist (twoLiterals.map Literal.toStr) false

theorem inCIDR_allowed_documentation : ∃ m list, inTwo = .ok m ∧ allowTwo = .ok list ∧
    (m.eval (client (.v4 0xc0000207#32)) = true ↔ list.allowed (.v4 0xc0000207#32) = true) := by
  cases compiled : inTwo with
  | error problem =>
    have ok := inTwo_ok
    rw [compiled] at ok
    cases ok
  | ok m =>
    obtain ⟨list, parsed, agree⟩ := inCIDR_allowed_iff remoteIP [] .connRemoteIP twoLiterals m remoteIP_known compiled
    have inside : ¬ Overlooked twoLiterals (.v4 0xc0000207#32) := by
      intro overlooked
      have outside := overlooked.2 (.v4 0xc0000200#32 24 (by omega)) (by decide) (by decide)
      revert outside
      decide
    exact ⟨m, list, rfl, parsed, (agree (client (.v4 0xc0000207#32)) (.v4 0xc0000207#32) (by decide)).mpr inside⟩

def verdicts (addr : Addr) : Option (Bool × Bool) :=
  match inTwo, allowTwo with
  | .ok m, .ok list => some (m.eval (client addr), list.allowed addr)
  | _, _ => none

/-- A client of the block that is written in mapped form is let in, but the condition does not see it. -/
theorem inCIDR_misses_mapped : ¬ ∀ (name path : Name) (f : Field) (raws : List Literal) (m : Matcher) (list : Allowlist),
    Field.lookup name = some f → compilePred path (inCIDRPred name raws) = .ok m →
      parseAllowlist (raws.map Literal.toStr) false = .ok list →
        ∀ (e : Env) (addr : Addr), e.lookup f = Value.ofAddr addr → (m.eval e = true ↔ list.allowed addr = true) := by
  intro agree
  have differ : verdicts (.v4 0x0a010203#32) = some (false, true) := by decide
  unfold verdicts at differ
  split at differ
  · rename_i m list compiled parsed
    have same := agree remoteIP [] .connRemoteIP twoLiterals m list remoteIP_known compiled parsed
      (client (.v4 0x0a010203#32)) (.v4 0x0a010203#32) (by decide)
    simp only [Option.some.injEq, Prod.mk.injEq] at differ
    rw [differ.1, differ.2] at same
    simp at same
  · cases differ

end Sample

end Mailgw.Config
