import Mathlib.Data.Char
import Mathlib.Data.List.TakeWhile
import Mailgw.Domains.Organizational
import Mailgw.Queue.Envelope
import Mailgw.Text.Letters
import Mailgw.Text.Paths

namespace Mailgw.Msgauth

open Domains
open Queue (trimSuffix)
open Text (LowerCase toLower trimSpace)

inductive Result where
  | unchecked
  | none
  | neutral
  | pass
  | fail
  | softFail
  | tempError
  | permError
  deriving Repr, DecidableEq

inductive AlignmentMode where
  | relaxed
  | strict
  deriving Repr, DecidableEq

structure Record where
  policy : List Char
  subdomainPolicy : List Char
  spfAlignment : AlignmentMode
  dkimAlignment : AlignmentMode
  deriving Repr, DecidableEq

inductive Lookup where
  | record (r : Record)
  | noPolicy
  | tempFail (reason : List Char)
  | permFail (reason : List Char)
  deriving Repr, DecidableEq

abbrev Published := List Char → Lookup

structure SPFResult where
  value : Result
  domain : List Char

structure DKIMResult where
  value : Result
  domains : List (List Char)

structure DMARCResult where
  value : Result := .unchecked
  policy : List Char := []
  fromDomain : List Char
  spfAligned : Bool := false
  dkimAligned : Bool := false
  reason : List Char := []

def parentDomain (d : List Char) : List Char := (d.dropWhile (· ≠ '.')).tail

/-- Looks for the record of a domain, and for that of its parent if the parent has a parent too. -/
def lookupDMARC (published : Published) (domain : List Char) : Lookup × List Char :=
  match published domain with
  | .record r => (.record r, domain)
  | .noPolicy =>
    let parent := parentDomain domain
    if parent.count '.' < 1 then (.noPolicy, [])
    else
      match published parent with
      | .record r => (.record r, parent)
      | failed => (failed, [])
  | failed => (failed, [])

section Evaluation
variable [LowerCase]

def normal (d : List Char) : List Char := toLower (trimSuffix ['.'] d)

def aligned (authDomain fromDomain : List Char) (mode : AlignmentMode) : Bool :=
  let a := normal authDomain
  let f := normal fromDomain
  if a = [] ∨ f = [] then false
  else if a = f then true
  else if mode = .strict then false
  else decide ('.' :: f <:+ a ∨ '.' :: a <:+ f)

def dmarcReason (spf : SPFResult) (dk : DKIMResult) : List Char :=
  if spf.value = .pass ∧ 0 < dk.domains.length then "neither SPF nor DKIM identifier is aligned with the From domain".toList
  else if spf.value = .pass then "SPF passed but is not aligned with the From domain".toList
  else if 0 < dk.domains.length then "DKIM passed but no signature is aligned with the From domain".toList
  else "no aligned authenticated identifier".toList

def readDomain (fromDomain : List Char) : List Char := normal (trimSpace fromDomain)

def applyRecord (out : DMARCResult) (r : Record) (owner : List Char) (spf : SPFResult) (dk : DKIMResult) : DMARCResult :=
  let policy := if owner ≠ out.fromDomain ∧ r.subdomainPolicy ≠ [] then r.subdomainPolicy else r.policy
  let spfAligned := spf.value = .pass && aligned spf.domain out.fromDomain r.spfAlignment
  let dkimAligned := dk.domains.any fun d => aligned d out.fromDomain r.dkimAlignment
  if spfAligned || dkimAligned then { out with value := .pass, policy, spfAligned, dkimAligned }
  else { out with value := .fail, policy, reason := dmarcReason spf dk }

def evaluateDMARC (published : Published) (fromDomain : List Char) (spf : SPFResult) (dk : DKIMResult) : DMARCResult :=
  let out : DMARCResult := { fromDomain := readDomain fromDomain }
  if out.fromDomain = [] then { out with value := .none, reason := "no From domain".toList }
  else
    match lookupDMARC published out.fromDomain with
    | (.noPolicy, _) => { out with value := .none }
    | (.tempFail reason, _) => { out with value := .tempError, reason }
    | (.permFail reason, _) => { out with value := .permError, reason }
    | (.record r, owner) => applyRecord out r owner spf dk

end Evaluation

section Standard
variable (psl : SuffixList) (published : Published)

/-- The record that the standard applies: that of the domain, or else that of its organizational domain. -/
def discovered (f : List Char) : Option Record :=
  match published f with
  | .record r => some r
  | .noPolicy =>
    let organizational := domainOf (psl.organizational (labels f))
    if organizational = f then none
    else
      match published organizational with
      | .record r => some r
      | _ => none
  | _ => none

/-- Alignment by the standard: of equal domains, or else of those with one organizational domain. -/
def StandardAligned (mode : AlignmentMode) (a f : List Char) : Prop :=
  a ≠ [] ∧ match mode with
    | .strict => a = f
    | .relaxed => psl.organizational (labels a) = psl.organizational (labels f)

def StandardPass [LowerCase] (f : List Char) (spf : SPFResult) (dk : DKIMResult) : Prop :=
  ∃ r, discovered psl published f = some r ∧
    (spf.value = .pass ∧ StandardAligned psl r.spfAlignment (normal spf.domain) (normal f) ∨
      ∃ d ∈ dk.domains, StandardAligned psl r.dkimAlignment (normal d) (normal f))

def Related (a f : List Char) : Prop := labels f <:+ labels a ∨ labels a <:+ labels f

/-- A domain that authenticates is no danger to a From domain: no public suffix separates them under a relaxed record, and a
    record that is inherited from the parent stands for one that the standard applies as well. -/
structure Safe [LowerCase] (mode : Record → AlignmentMode) (f a : List Char) : Prop where
  own : ∀ r, published f = .record r → mode r = .relaxed → Related a (normal f) → a ≠ normal f →
    ¬ psl.Separates (labels a) (labels (normal f))
  inherited : ∀ r, published f = .noPolicy → 3 ≤ (labels f).length → published (domainOf (labels f).tail) = .record r →
    (a = normal f ∨ mode r = .relaxed ∧ Related a (normal f)) →
    ∃ r', domainOf (psl.organizational (labels f)) ≠ f ∧ published (domainOf (psl.organizational (labels f))) = .record r' ∧
      (a = normal f ∨ mode r' = .relaxed ∧ ¬ psl.Separates (labels a) (labels (normal f)))

end Standard

section Names

theorem parentDomain_cases (d : List Char) :
    (labels d = [d] ∧ parentDomain d = []) ∨ ∃ x, labels d = x :: labels (parentDomain d) := by
  by_cases plain : '.' ∈ d
  · obtain ⟨x, y, rfl, fresh⟩ := List.eq_append_cons_of_mem plain
    rw [parentDomain, Text.dropWhile_sep fresh, List.tail_cons]
    exact .inr ⟨x, labels_of_first fresh y⟩
  · have none : d.dropWhile (· ≠ '.') = [] := by
      apply List.dropWhile_eq_nil_iff.mpr
      intro c member
      exact decide_eq_true fun same => plain (same ▸ member)
    left
    rw [parentDomain, none]
    exact ⟨labels_of_plain plain, rfl⟩

theorem parentDomain_eq (d : List Char) : parentDomain d = domainOf (labels d).tail := by
  rcases parentDomain_cases d with ⟨alone, none⟩ | ⟨x, split⟩
  · rw [alone, none]
    rfl
  · rw [split, List.tail_cons, domainOf_labels]

theorem count_parentDomain (d : List Char) : (parentDomain d).count '.' < 1 ↔ (labels d).length < 3 := by
  have counted : (parentDomain d).count '.' < 1 ↔ '.' ∉ parentDomain d := by
    rw [Nat.lt_one_iff, List.count_eq_zero]
  rw [counted, ← one_lt_length_labels]
  rcases parentDomain_cases d with ⟨alone, none⟩ | ⟨x, split⟩
  · rw [alone, none]
    simp [labels]
  · rw [split, List.length_cons]
    omega

end Names

section Alignment
variable {psl : SuffixList} {a f : List Char} {mode : AlignmentMode}

theorem standardAligned_iff (some_ : a ≠ []) (related : Related a f) :
    StandardAligned psl mode a f ↔ a = f ∨ mode = .relaxed ∧ ¬ psl.Separates (labels a) (labels f) := by
  unfold StandardAligned
  cases mode with
  | strict => simp [some_]
  | relaxed =>
    by_cases same : a = f
    · subst same
      simp [some_]
    have apart : labels a ≠ labels f := fun equal => same (labels_injective equal)
    have organizations : psl.organizational (labels a) = psl.organizational (labels f) ↔ ¬ psl.Separates (labels a) (labels f) := by
      rcases related with above | below
      · exact SuffixList.organizational_eq_iff (labels_ne_nil f) above apart.symm
      · rw [eq_comm, SuffixList.organizational_eq_iff (labels_ne_nil a) below apart]
        exact not_congr ⟨SuffixList.Separates.symm, SuffixList.Separates.symm⟩
    simp [some_, same, organizations]

end Alignment

theorem lookupDMARC_iff {published : Published} {f : List Char} {r : Record} : (∃ owner, lookupDMARC published f = (.record r, owner)) ↔
    published f = .record r ∨
      published f = .noPolicy ∧ 3 ≤ (labels f).length ∧ published (domainOf (labels f).tail) = .record r := by
  unfold lookupDMARC
  cases own : published f with
  | noPolicy =>
    dsimp only
    split
    · rename_i few
      rw [count_parentDomain] at few
      simp [Nat.not_le.mpr few]
    · rename_i many
      rw [count_parentDomain] at many
      have three : 3 ≤ (labels f).length := Nat.le_of_not_lt many
      rw [parentDomain_eq]
      cases published (domainOf (labels f).tail) <;> simp [three]
  | record r' => simp
  | tempFail reason => simp
  | permFail reason => simp

section Soundness
variable [LowerCase] {psl : SuffixList} {published : Published} {a f : List Char} {mode : AlignmentMode}

theorem aligned_iff : aligned a f mode = true ↔
    normal a ≠ [] ∧ normal f ≠ [] ∧ (normal a = normal f ∨ mode = .relaxed ∧ Related (normal a) (normal f)) := by
  unfold aligned Related
  dsimp only
  generalize normal a = a'
  generalize normal f = f'
  split
  · rename_i empty
    constructor
    · intro impossible
      cases impossible
    · rintro ⟨some_, some', -⟩
      exact absurd empty (not_or.mpr ⟨some_, some'⟩)
  rename_i full
  obtain ⟨some_, some'⟩ := not_or.mp full
  split
  · rename_i same
    simp [some', same]
  rename_i other
  split
  · rename_i strict
    simp [strict, other]
  · rename_i notStrict
    have relaxed : mode = .relaxed := by
      cases mode with
      | relaxed => rfl
      | strict => exact absurd rfl notStrict
    rw [decide_eq_true_iff, suffix_iff_below, suffix_iff_below]
    simp [some_, some', relaxed, other, Ne.symm other]

def Passes (published : Published) (mode : Record → AlignmentMode) (f a : List Char) : Prop :=
  ∃ r owner, lookupDMARC published f = (.record r, owner) ∧ aligned a f (mode r) = true

def StandardPasses (psl : SuffixList) (published : Published) (mode : Record → AlignmentMode) (f a : List Char) : Prop :=
  ∃ r, discovered psl published f = some r ∧ StandardAligned psl (mode r) a (normal f)

theorem evaluateDMARC_pass_iff {fromDomain : List Char} {spf : SPFResult} {dk : DKIMResult} :
    (evaluateDMARC published fromDomain spf dk).value = .pass ↔
      spf.value = .pass ∧ Passes published Record.spfAlignment (readDomain fromDomain) spf.domain ∨
        ∃ d ∈ dk.domains, Passes published Record.dkimAlignment (readDomain fromDomain) d := by
  unfold evaluateDMARC Passes
  dsimp only
  generalize readDomain fromDomain = f
  split
  · rename_i empty
    have never (a : List Char) (mode : AlignmentMode) : aligned a f mode ≠ true := by
      intro yes
      exact (aligned_iff.mp yes).2.1 (by rw [empty]; rfl)
    simp [never]
  rename_i some_
  cases looked : lookupDMARC published f with
  | mk found owner =>
    cases found with
    | record r =>
      dsimp only
      unfold applyRecord
      dsimp only
      split
      · rename_i yes
        simpa using yes
      · rename_i no
        simpa using no
    | noPolicy => simp
    | tempFail reason => simp
    | permFail reason => simp

theorem standardPass_iff {spf : SPFResult} {dk : DKIMResult} :
    StandardPass psl published f spf dk ↔
      spf.value = .pass ∧ StandardPasses psl published Record.spfAlignment f (normal spf.domain) ∨
        ∃ d ∈ dk.domains, StandardPasses psl published Record.dkimAlignment f (normal d) := by
  unfold StandardPass StandardPasses
  cases discovered psl published f with
  | none => simp
  | some r => simp

theorem passes_iff {mode : Record → AlignmentMode} : Passes published mode f a ↔ normal a ≠ [] ∧ normal f ≠ [] ∧ ∃ r,
    (published f = .record r ∨
      published f = .noPolicy ∧ 3 ≤ (labels f).length ∧ published (domainOf (labels f).tail) = .record r) ∧
    (normal a = normal f ∨ mode r = .relaxed ∧ Related (normal a) (normal f)) := by
  unfold Passes
  constructor
  · rintro ⟨r, owner, found, yes⟩
    have meaning := aligned_iff.mp yes
    exact ⟨meaning.1, meaning.2.1, r, lookupDMARC_iff.mp ⟨owner, found⟩, meaning.2.2⟩
  · rintro ⟨some_, some', r, source, near⟩
    obtain ⟨owner, found⟩ := lookupDMARC_iff.mpr source
    exact ⟨r, owner, found, aligned_iff.mpr ⟨some_, some', near⟩⟩

/-- What a domain authenticates passes by the standard whenever it passes at the gateway, if and only if the domain is safe. -/
theorem safe_iff {mode : Record → AlignmentMode} :
    (Passes published mode f a → StandardPasses psl published mode f (normal a)) ↔
      (normal f ≠ [] → normal a ≠ [] → Safe psl published mode f (normal a)) := by
  rw [passes_iff]
  have near {a f : List Char} {m : AlignmentMode} (aligned : a = f ∨ m = .relaxed ∧ Related a f) : Related a f := by
    rcases aligned with rfl | ⟨-, related⟩
    · exact .inl (List.suffix_refl _)
    · exact related
  constructor
  · intro sound some' some_
    constructor
    · intro r own relaxed related other
      obtain ⟨r', found, standard⟩ := sound ⟨some_, some', r, .inl own, .inr ⟨relaxed, related⟩⟩
      have same : r = r' := by simpa [discovered, own] using found
      subst same
      exact (((standardAligned_iff some_ related).mp standard).resolve_left other).2
    · intro r own many parent aligned
      obtain ⟨r', found, standard⟩ := sound ⟨some_, some', r, .inr ⟨own, many, parent⟩, aligned⟩
      have meaning := (standardAligned_iff some_ (near aligned)).mp standard
      rw [discovered, own] at found
      dsimp only at found
      split at found
      · cases found
      rename_i other
      split at found
      · rename_i r'' listed
        obtain rfl := Option.some.inj found
        exact ⟨r'', other, listed, meaning⟩
      · cases found
  · rintro safe ⟨some_, some', r, source, aligned⟩
    have safe := safe some' some_
    rcases source with own | ⟨own, many, parent⟩
    · have found : discovered psl published f = some r := by rw [discovered, own]
      have meaning : normal a = normal f ∨ mode r = .relaxed ∧ ¬ psl.Separates (labels (normal a)) (labels (normal f)) := by
        by_cases same : normal a = normal f
        · exact .inl same
        · obtain ⟨relaxed, related⟩ := aligned.resolve_left same
          exact .inr ⟨relaxed, safe.own r own relaxed related same⟩
      exact ⟨r, found, (standardAligned_iff some_ (near aligned)).mpr meaning⟩
    · obtain ⟨r', other, listed, meaning⟩ := safe.inherited r own many parent aligned
      have found : discovered psl published f = some r' := by
        rw [discovered, own]
        dsimp only
        rw [if_neg other, listed]
      exact ⟨r', found, (standardAligned_iff some_ (near aligned)).mpr meaning⟩

/-- The evaluation at the gateway lets no message pass that fails by the standard, whichever of some domains authenticate it, if and
    only if each of them is safe. -/
theorem evaluateDMARC_sound_iff (psl : SuffixList) (published : Published) (fromDomain : List Char) (spfs dkims : Set (List Char)) :
    (∀ (spf : SPFResult) (dk : DKIMResult), (spf.value = .pass → spf.domain ∈ spfs) → (∀ d ∈ dk.domains, d ∈ dkims) →
      (evaluateDMARC published fromDomain spf dk).value = .pass → StandardPass psl published (readDomain fromDomain) spf dk) ↔
    (normal (readDomain fromDomain) ≠ [] →
      (∀ a ∈ spfs, normal a ≠ [] → Safe psl published Record.spfAlignment (readDomain fromDomain) (normal a)) ∧
      ∀ a ∈ dkims, normal a ≠ [] → Safe psl published Record.dkimAlignment (readDomain fromDomain) (normal a)) := by
  constructor
  · intro sound some'
    constructor
    · intro a member some_
      have alone (passes : Passes published Record.spfAlignment (readDomain fromDomain) a) :
          StandardPasses psl published Record.spfAlignment (readDomain fromDomain) (normal a) := by
        have standard := sound ⟨.pass, a⟩ ⟨.none, []⟩ (fun _ => member) (by simp) (evaluateDMARC_pass_iff.mpr (.inl ⟨rfl, passes⟩))
        simpa [standardPass_iff] using standard
      exact safe_iff.mp alone some' some_
    · intro a member some_
      have alone (passes : Passes published Record.dkimAlignment (readDomain fromDomain) a) :
          StandardPasses psl published Record.dkimAlignment (readDomain fromDomain) (normal a) := by
        have standard := sound ⟨.none, []⟩ ⟨.pass, [a]⟩ (by simp) (by simpa using member)
          (evaluateDMARC_pass_iff.mpr (.inr ⟨a, List.mem_singleton_self a, passes⟩))
        simpa [standardPass_iff] using standard
      exact safe_iff.mp alone some' some_
  · intro safe spf dk bySpf byDkim pass
    rw [standardPass_iff]
    rcases evaluateDMARC_pass_iff.mp pass with ⟨yes, passes⟩ | ⟨d, member, passes⟩
    · exact .inl ⟨yes, safe_iff.mpr (fun some' => (safe some').1 spf.domain (bySpf yes)) passes⟩
    · exact .inr ⟨d, member, safe_iff.mpr (fun some' => (safe some').2 d (byDkim d member)) passes⟩

end Soundness

def sampleSuffixes : SuffixList := ⟨fun ls => decide (ls = ["co".toList, "uk".toList])⟩

def samplePublished : Published := fun d =>
  if d = "example.co.uk".toList then .record ⟨"reject".toList, [], .relaxed, .relaxed⟩ else .noPolicy

section Sample
open scoped Text.Ascii

/-- Whoever holds a public suffix passes for a domain that is registered under it. -/
theorem public_suffix_passes :
    ¬ ∀ (psl : SuffixList) (published : Published) (fromDomain : List Char) (spf : SPFResult) (dk : DKIMResult),
      (evaluateDMARC published fromDomain spf dk).value = .pass → StandardPass psl published (readDomain fromDomain) spf dk := by
  intro sound
  have pass : (evaluateDMARC samplePublished "example.co.uk".toList ⟨.pass, "co.uk".toList⟩ ⟨.none, []⟩).value = .pass := by
    decide
  have found : discovered sampleSuffixes samplePublished "example.co.uk".toList =
      some ⟨"reject".toList, [], .relaxed, .relaxed⟩ := by decide
  have apart : sampleSuffixes.organizational (labels "co.uk".toList) ≠ sampleSuffixes.organizational (labels "example.co.uk".toList) := by
    decide
  obtain ⟨r, applied, standard⟩ := sound sampleSuffixes samplePublished _ _ _ pass
  obtain rfl := Option.some.inj (found.symm.trans applied)
  obtain ⟨-, -, same⟩ | ⟨d, member, -⟩ := standard
  · exact apart same
  · cases member

end Sample

end Mailgw.Msgauth
