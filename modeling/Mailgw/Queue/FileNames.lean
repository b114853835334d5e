import Mailgw.Queue.Bounce
import Mailgw.Queue.Spool
import Mailgw.Text.Decimal

namespace Mailgw.Queue

open Text

section Identifiers
variable {id : Name}

theorem not_validID_nil : validID [] = false := by decide

theorem validID_childID (valid : validID id = true) (n : Nat) : validID (childID id n) = true := by
  have digits : ∀ c ∈ Nat.toDigits 10 n, c.isDigit = true := fun c member =>
    Nat.isDigit_of_mem_toDigits (by decide) (by decide) member
  have plain : '.' ∉ Nat.toDigits 10 n := fun member => dot_not_digit member rfl
  have part : (!(Nat.toDigits 10 n).isEmpty && (Nat.toDigits 10 n).all Char.isDigit) = true := by
    rw [List.isEmpty_eq_false_iff.mpr Nat.toDigits_ne_nil, List.all_eq_true.mpr digits]
    rfl
  unfold validID at valid ⊢
  rw [childID, List.splitOn_append_cons_self, List.splitOn_eq_singleton plain]
  cases parts : id.splitOn '.' with
  | nil =>
    rw [parts] at valid
    cases valid
  | cons root suffixes =>
    rw [parts] at valid
    obtain ⟨first, rest⟩ := Bool.and_eq_true_iff.mp valid
    rw [List.cons_append]
    dsimp only
    rw [List.all_append, List.all_cons, List.all_nil, part, first, rest]
    rfl

end Identifiers

section Times

def padInt (width : Nat) (n : Int) : Name := if n < 0 then '-' :: padDecimal (width - 1) n.natAbs else padDecimal width n.natAbs

def readyNameAt (dueMillis : Int) (uuid : Name) : Name := padInt dueWidth (dueMillis.tdiv 1000) ++ '.' :: (uuid ++ suffixJson)

def InWidth (dueMillis : Int) : Prop := 0 ≤ dueMillis.tdiv 1000 ∧ dueMillis.tdiv 1000 < 10 ^ 12

variable {due due' : Int} {uuid uuid' : Name}

theorem readyNameAt_eq (fits : InWidth due) :
    ∃ t : Instant, (t.seconds : Int) = due.tdiv 1000 ∧ ∀ uuid, readyNameAt due uuid = readyName t uuid := by
  obtain ⟨low, high⟩ := fits
  have bound : (due.tdiv 1000).toNat * 1000 < 10 ^ 15 := by omega
  have seconds : Instant.seconds ⟨(due.tdiv 1000).toNat * 1000, bound⟩ = (due.tdiv 1000).natAbs := by
    unfold Instant.seconds
    dsimp only
    omega
  refine ⟨⟨(due.tdiv 1000).toNat * 1000, bound⟩, ?_, fun uuid => ?_⟩
  · rw [seconds]
    omega
  · rw [readyNameAt, padInt, if_neg (Int.not_lt.mpr low), readyName, seconds]

theorem readyName_le {t t' : Instant} (order : readyName t uuid ≤ readyName t' uuid') : t.seconds ≤ t'.seconds := by
  have width := t.due_length
  have width' := t'.due_length
  have front := le_of_append_le order (width.trans width'.symm)
  have numbers := ofDigitChars_le (fun c => isDigit_of_mem_padDecimal) (fun c => isDigit_of_mem_padDecimal)
    (width.trans width'.symm) front
  rwa [ofDigitChars_padDecimal, ofDigitChars_padDecimal] at numbers

end Times

structure Decodes (pid : Fin (2 ^ 63)) (due : Int) (uuid : Name) : Prop where
  ready : Spool.envelopeUUID .ready (readyNameAt due uuid) = some uuid
  inflight : Spool.envelopeUUID .inflight (claimName pid (readyNameAt due uuid)) = some uuid
  quarantine : Spool.envelopeUUID .quarantine (plainName uuid) = some uuid
  dead : Spool.envelopeUUID .dead (plainName uuid) = some uuid
  due : parseDue (readyNameAt due uuid) = some (due.tdiv 1000)

/-- Of every valid uuid, the names in the four directories give it back and those in the ready queue the second as well, and they
    stand in the order of their seconds. -/
theorem fileNames_decode {due : Int} {uuid : Name} (pid : Fin (2 ^ 63)) (valid : validID uuid = true) (fits : InWidth due) :
    Decodes pid due uuid ∧
      ∀ due' uuid', InWidth due' → validID uuid' = true →
        (readyNameAt due uuid ≤ readyNameAt due' uuid' → due.tdiv 1000 ≤ due'.tdiv 1000) ∧
          (due.tdiv 1000 < due'.tdiv 1000 → readyNameAt due uuid < readyNameAt due' uuid') := by
  have some_ : uuid ≠ [] := by
    rintro rfl
    rw [not_validID_nil] at valid
    cases valid
  obtain ⟨t, seconds, name⟩ := readyNameAt_eq fits
  refine ⟨⟨?_, ?_, ?_, ?_, ?_⟩, fun due' uuid' fits' _ => ?_⟩
  · rw [name]
    exact uuidFromReadyName_readyName t some_
  · rw [name, Spool.envelopeUUID, stripClaimPrefix_claimName]
    exact uuidFromReadyName_readyName t some_
  · exact uuidFromPlainName_plainName some_
  · exact uuidFromPlainName_plainName some_
  · rw [name, parseDue_readyName, seconds]
  · obtain ⟨t', seconds', name'⟩ := readyNameAt_eq fits'
    rw [name, name', ← seconds, ← seconds']
    constructor
    · intro order
      exact Int.ofNat_le.mpr (readyName_le order)
    · intro earlier
      by_contra later
      have back := readyName_le (not_lt.mp later)
      omega

theorem pid_fits : 4711 < 2 ^ 63 := by decide

theorem fileNames_decode_grandchild : Decodes ⟨4711, pid_fits⟩ 1700000000123 "0A1F-22.1.2".toList :=
  (fileNames_decode ⟨4711, pid_fits⟩ (by decide) ⟨by decide, by decide⟩).1

end Mailgw.Queue
