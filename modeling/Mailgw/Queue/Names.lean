import Mailgw.Text.Decimal

namespace Mailgw.Queue

open Text

/-- A file name, an identifier or any other Go string the spool slices by position. -/
abbrev Name := List Char

/-- A clock reading in Unix milliseconds. Twelve digits of seconds cover every time the spool's
    names are meant for, up to the year 33658. -/
abbrev Instant := { ms : Nat // ms < 10 ^ 15 }

theorem instant_zero_lt : 0 < 10 ^ 15 := by decide

def Instant.zero : Instant := ⟨0, instant_zero_lt⟩

def Instant.seconds (t : Instant) : Nat := t.val / 1000

theorem Instant.seconds_lt (t : Instant) : t.seconds < 10 ^ 12 := by
  have bound := t.property
  unfold Instant.seconds
  omega

def dueWidth : Nat := 12

def suffixJson : Name := ".json".toList

/-- `"<due12>.<uuid>.json"`, the name an envelope has in the ready queue. -/
def readyName (due : Instant) (uuid : Name) : Name :=
  padDecimal dueWidth due.seconds ++ '.' :: (uuid ++ suffixJson)

/-- `"<uuid>.json"`, the name an envelope has in dead/ and quarantine/. -/
def plainName (uuid : Name) : Name := uuid ++ suffixJson

/-- `"<pid>.<name>"`, the name Claim gives a ready envelope in inflight/. -/
def claimName (pid : Fin (2 ^ 63)) (name : Name) : Name :=
  Nat.toDigits 10 pid.val ++ '.' :: name

def parseDue (name : Name) : Option Int :=
  if name.length < dueWidth + 1 ∨ name[dueWidth]? ≠ some '.' then none
  else parseInt64 (name.take dueWidth)

def trimEnvelopeSuffix (s : Name) : Option Name :=
  if suffixJson <:+ s then
    let stem := s.take (s.length - suffixJson.length)
    if stem = [] then none else some stem
  else none

/-- Trims the fixed-width prefix and the suffix instead of splitting at dots: a uuid contains
    dots of its own. -/
def uuidFromReadyName (name : Name) : Option Name :=
  match parseDue name with
  | none => none
  | some _ => trimEnvelopeSuffix (name.drop (dueWidth + 1))

def uuidFromPlainName (name : Name) : Option Name := trimEnvelopeSuffix name

/-- Removes the `"<pid>."` that Claim adds. A name without a leading integer is left alone. -/
def stripClaimPrefix (name : Name) : Name :=
  let head := name.takeWhile (· ≠ '.')
  match name.drop head.length with
  | [] => name
  | _ :: rest => if (parseInt64 head).isSome then rest else name

/-- Recover's new name for a recovered file: the due second is re-stamped when the name has one. -/
def restamp (due : Instant) (orig : Name) : Name :=
  match parseDue orig with
  | none => orig
  | some _ => padDecimal dueWidth due.seconds ++ orig.drop dueWidth

theorem Instant.due_length (due : Instant) : (padDecimal dueWidth due.seconds).length = dueWidth :=
  length_padDecimal (by decide) due.seconds_lt

@[simp] theorem parseDue_readyName (due : Instant) (uuid : Name) :
    parseDue (readyName due uuid) = some (due.seconds : Int) := by
  have width := due.due_length
  have dot : (readyName due uuid)[dueWidth]? = some '.' := by
    unfold readyName
    rw [List.getElem?_append_right (by omega), width]
    simp
  have long : ¬ (readyName due uuid).length < dueWidth + 1 := by
    simp only [readyName, List.length_append, List.length_cons, width]
    omega
  have prefixed : (readyName due uuid).take dueWidth = padDecimal dueWidth due.seconds := by
    unfold readyName
    exact List.take_left' width
  have range : due.seconds < 2 ^ 63 := Nat.lt_of_lt_of_le due.seconds_lt (by decide)
  simp only [parseDue, dot, long, prefixed, ne_eq, not_true_eq_false, or_self, ite_false]
  exact parseInt64_padDecimal _ _ range

@[simp] theorem trimEnvelopeSuffix_append {uuid : Name} (nonempty : uuid ≠ []) :
    trimEnvelopeSuffix (uuid ++ suffixJson) = some uuid := by
  simp [trimEnvelopeSuffix, nonempty]

theorem readyName_drop (due : Instant) (uuid : Name) :
    (readyName due uuid).drop (dueWidth + 1) = uuid ++ suffixJson := by
  have width := due.due_length
  unfold readyName
  rw [← List.drop_drop, List.drop_left' width]
  rfl

@[simp] theorem uuidFromReadyName_readyName (due : Instant) {uuid : Name} (nonempty : uuid ≠ []) :
    uuidFromReadyName (readyName due uuid) = some uuid := by
  simp [uuidFromReadyName, readyName_drop, nonempty]

@[simp] theorem uuidFromPlainName_plainName {uuid : Name} (nonempty : uuid ≠ []) :
    uuidFromPlainName (plainName uuid) = some uuid := by
  simp [uuidFromPlainName, plainName, nonempty]

theorem dot_not_digit {n : Nat} {c : Char} (member : c ∈ Nat.toDigits 10 n) : c ≠ '.' := by
  rintro rfl
  have digit := Nat.isDigit_of_mem_toDigits (by decide) (by decide) member
  exact absurd digit (by decide)

@[simp] theorem stripClaimPrefix_claimName (pid : Fin (2 ^ 63)) (name : Name) :
    stripClaimPrefix (claimName pid name) = name := by
  have head : (claimName pid name).takeWhile (· ≠ '.') = Nat.toDigits 10 pid.val := by
    unfold claimName
    rw [List.takeWhile_append_of_pos (fun c member => by simpa using dot_not_digit member)]
    simp
  have number : parseInt64 (Nat.toDigits 10 pid.val) = some (pid.val : Int) := by
    have read := parseInt64_padDecimal 0 pid.val pid.isLt
    rwa [padDecimal_zero] at read
  simp only [stripClaimPrefix, head, number, Option.isSome_some, ite_true]
  unfold claimName
  rw [List.drop_left]

theorem claimName_injective {pid pid' : Fin (2 ^ 63)} {name name' : Name}
    (same : claimName pid name = claimName pid' name') : name = name' := by
  have stripped := congrArg stripClaimPrefix same
  simpa using stripped

@[simp] theorem restamp_readyName (now due : Instant) (uuid : Name) :
    restamp now (readyName due uuid) = readyName now uuid := by
  have width := due.due_length
  have tail : (readyName due uuid).drop dueWidth = '.' :: (uuid ++ suffixJson) := by
    unfold readyName
    exact List.drop_left' width
  simp only [restamp, parseDue_readyName, tail]
  rfl

theorem readyName_uuid {due due' : Instant} {uuid uuid' : Name}
    (same : readyName due uuid = readyName due' uuid') : uuid = uuid' := by
  have tails := congrArg (List.drop (dueWidth + 1)) same
  rw [readyName_drop, readyName_drop] at tails
  exact List.append_cancel_right tails

end Mailgw.Queue
