import Mailgw.Events.Replay
import Mailgw.Files.Folders

namespace Mailgw.Events

open Calls Files

abbrev SpillDir := Folders Folder Chars SpillFile

def isAccepted (answer : Option Nat) : Bool := answer.any fun status => 200 ≤ status ∧ status < 300

theorem claimName_dot (pid time : Nat) (name : Chars) : ['.'] <+: claimName pid time name := by
  refine ⟨"claim-".toList ++ Nat.toDigits 10 pid ++ '-' :: Nat.toDigits 10 time ++ '-' :: name, rfl⟩

theorem claimName_not_pending (pid time : Nat) (name : Chars) : isPending (claimName pid time name) = false := by
  simp [isPending, claimName_dot]

theorem parseClaim_of_pending {name : Chars} (pending : isPending name = true) : parseClaim name = none := by
  have plain : ¬ claimMark <+: name := by
    intro marked
    have dot : ['.'] <+: name := (show ['.'] <+: claimMark from ⟨"claim-".toList, rfl⟩).trans marked
    simp [isPending, dot] at pending
  simp [parseClaim, plain]

theorem cutDash_append {s : Chars} (plain : '-' ∉ s) (rest : Chars) : cutDash (s ++ '-' :: rest) = some (s, rest) := by
  have head : ∀ c ∈ s, decide (c ≠ '-') = true := by
    intro c member
    simp only [ne_eq, decide_eq_true_eq]
    intro dash
    exact plain (dash ▸ member)
  unfold cutDash
  rw [List.dropWhile_append_of_pos head, List.takeWhile_append_of_pos head]
  simp

theorem dash_not_digit (n : Nat) : '-' ∉ Nat.toDigits 10 n := by
  intro member
  have digit := Nat.isDigit_of_mem_toDigits (by decide) (by decide) member
  exact absurd digit (by decide)

theorem parseClaim_claimName (pid : Nat) {time : Nat} {name : Chars} (fits : time < 2 ^ 63) (nonempty : name ≠ []) :
    parseClaim (claimName pid time name) = some (name, (time : Int)) := by
  have marked : claimMark <+: claimName pid time name :=
    ⟨Nat.toDigits 10 pid ++ '-' :: Nat.toDigits 10 time ++ '-' :: name, by simp [claimName]⟩
  have rest : (claimName pid time name).drop claimMark.length =
      Nat.toDigits 10 pid ++ '-' :: (Nat.toDigits 10 time ++ '-' :: name) := by
    have whole : claimName pid time name =
        claimMark ++ (Nat.toDigits 10 pid ++ '-' :: (Nat.toDigits 10 time ++ '-' :: name)) := by simp [claimName]
    rw [whole, List.drop_left]
  have number : Text.parseInt64 (Nat.toDigits 10 time) = some (time : Int) := by
    have read : Text.parseInt64 (Text.padDecimal 0 time) = some (time : Int) := Text.parseInt64_padDecimal 0 time fits
    rwa [Text.padDecimal_zero] at read
  simp only [parseClaim, marked, ite_true, rest, cutDash_append (dash_not_digit _), number, nonempty, ite_false]

/-- The name a spilled event has or had while it was pending. -/
def origin : Folder → Chars → Option Chars
  | .spill, file => if isPending file then some file else (parseClaim file).map Prod.fst
  | .rejected, file => some file

theorem origin_pending {name : Chars} (pending : isPending name = true) : origin .spill name = some name := by
  simp [origin, pending]

theorem ne_nil_of_pending {name : Chars} (pending : isPending name = true) : name ≠ [] := by
  intro empty
  rw [empty] at pending
  cases pending

theorem origin_claimName (pid : Nat) {time : Nat} {name : Chars} (fits : time < 2 ^ 63) (pending : isPending name = true) :
    origin .spill (claimName pid time name) = some name := by
  simp [origin, claimName_not_pending, parseClaim_claimName pid fits (ne_nil_of_pending pending)]

theorem origin_of_parse {file name : Chars} {time : Int} (parsed : parseClaim file = some (name, time)) :
    origin .spill file = some name := by
  cases pending : isPending file with
  | true =>
    rw [parseClaim_of_pending pending] at parsed
    cases parsed
  | false => simp [origin, pending, parsed]

theorem pending_lists {events : List (Σ call : ReplayCall, call.Answer)} {names : List Chars}
    (trace : Trace Replayer.pending events (some names)) {name : Chars} (listed : name ∈ names) : isPending name = true := by
  obtain ⟨answer, rest, rfl, after⟩ := Trace.ask_inv trace
  cases answer with
  | none =>
    obtain ⟨_, same⟩ := Trace.done_inv after
    cases same
  | some found =>
    obtain ⟨_, same⟩ := Trace.done_inv after
    cases same
    have member := (List.perm_insertionSort _ _).mem_iff.mp listed
    exact (List.mem_filter.mp member).2

/-- What a replay renames a file to says which file it is and when the claim was taken, and is never listed. -/
theorem claim_parses_back (r : Replayer) (name : Chars) (nonempty : name ≠ []) (time : Fin (2 ^ 63)) :
    (∀ events outcome, Trace (r.one name) (⟨.clock, time.val⟩ :: events) outcome →
      ∃ answer rest, events = ⟨.rename name .spill (claimName r.pid time name), answer⟩ :: rest) ∧
      parseClaim (claimName r.pid time name) = some (name, (time.val : Int)) ∧
      ∀ events names, Trace Replayer.pending events (some names) → claimName r.pid time name ∉ names := by
  refine ⟨fun events outcome trace => ?_, parseClaim_claimName r.pid time.isLt nonempty, fun events names trace listed => ?_⟩
  · obtain ⟨now, rest, same, after⟩ := Trace.ask_inv trace
    cases same
    obtain ⟨answer, rest, rfl, _⟩ := Trace.ask_inv after
    exact ⟨answer, rest, rfl⟩
  · have pending := pending_lists trace listed
    rw [claimName_not_pending] at pending
    cases pending

def oddName : Chars := ".claim-7-9-a-b.json".toList

def oddClaim : Chars := ".claim-42-1700000000000000000-.claim-7-9-a-b.json".toList

theorem claim_parses_back_sample :
    (∃ events, Trace (Replayer.one ⟨42, id, 0⟩ oddName) (⟨.clock, (1700000000000000000 : Nat)⟩ :: events) .deferred ∧
      ∃ answer rest, events = ⟨.rename oddName .spill oddClaim, answer⟩ :: rest) ∧
    parseClaim oddClaim = some (oddName, 1700000000000000000) ∧
    ∃ events names, Trace Replayer.pending events (some names) ∧ "a-b.json".toList ∈ names ∧ oddClaim ∉ names := by
  have same : claimName 42 1700000000000000000 oddName = oddClaim := by decide
  obtain ⟨renames, parses, unlisted⟩ := claim_parses_back ⟨42, id, 0⟩ oddName (by decide) ⟨1700000000000000000, by decide⟩
  simp only [same] at renames parses unlisted
  have refused : Trace (Replayer.one ⟨42, id, 0⟩ oddName)
      [⟨.clock, (1700000000000000000 : Nat)⟩, ⟨.rename oddName .spill oddClaim, false⟩] .deferred :=
    Trace.of_replay (by decide)
  have listing : Trace Replayer.pending [⟨.readDir .spill, some [oddClaim, "a-b.json".toList]⟩]
      (some ["a-b.json".toList]) :=
    Trace.of_replay (by decide)
  exact ⟨⟨_, refused, renames _ _ refused⟩, parses, _, _, listing, List.mem_singleton_self _, unlisted _ _ listing⟩

end Mailgw.Events
