import Mailgw.Text.Lines

namespace Text

variable {ε : Type}

abbrev Piece := UInt8 × List UInt8

def Piece.bytes (piece : Piece) : List UInt8 := piece.1 :: piece.2

def push : List UInt8 → List Piece → List Piece
  | [], pieces => pieces
  | b :: rest, pieces => (b, rest) :: pieces

structure Wire (ε : Type) where
  pieces : List Piece
  err : ε
  deriving Repr, DecidableEq

def Wire.unread (w : Wire ε) : List UInt8 := w.pieces.flatMap Piece.bytes

def Wire.read (w : Wire ε) (ask : Ask) : Got ε (Wire ε) :=
  match w.pieces with
  | [] => ⟨[], some w.err, w⟩
  | piece :: pieces => ⟨piece.bytes.take ask.size, none, { w with pieces := push (piece.bytes.drop ask.size) pieces }⟩

structure Buffered (ε : Type) where
  size : Nat
  buf : List UInt8 := []
  rd : Wire ε
  deriving Repr, DecidableEq

/-- Why no line was read: it is longer than the buffer, or the connection ended. -/
inductive SliceErr (ε : Type) where
  | bufferFull
  | ended (err : ε)
  deriving Repr, DecidableEq

namespace Buffered

variable {r : Buffered ε}

def fillWhile (size : Nat) (more : List UInt8 → Bool) : List UInt8 → List Piece → List UInt8 × List Piece
  | buf, [] => (buf, [])
  | buf, piece :: pieces =>
    if more buf && decide (buf.length < size) then
      let room := size - buf.length
      if piece.bytes.length ≤ room then fillWhile size more (buf ++ piece.bytes) pieces
      else (buf ++ piece.bytes.take room, push (piece.bytes.drop room) pieces)
    else (buf, piece :: pieces)

def fill (r : Buffered ε) (more : List UInt8 → Bool) : Buffered ε :=
  let filled := fillWhile r.size more r.buf r.rd.pieces
  { r with buf := filled.1, rd := { r.rd with pieces := filled.2 } }

def peek (r : Buffered ε) (n : Nat) : Got ε (Buffered ε) :=
  let r := r.fill fun buf => buf.length < n
  ⟨r.buf.take n, if r.buf.length < n then some r.rd.err else none, r⟩

def readSlice (r : Buffered ε) (delim : UInt8) : Except (SliceErr ε) (List UInt8) × Buffered ε :=
  let r := r.fill fun buf => delim ∉ buf
  if delim ∈ r.buf then (.ok (firstLine delim r.buf).1, { r with buf := (firstLine delim r.buf).2 })
  else if r.size ≤ r.buf.length then (.error .bufferFull, { r with buf := [] })
  else (.error (.ended r.rd.err), { r with buf := [] })

/-- One read, which goes past the buffer when it asks for as much as that holds. -/
def read (r : Buffered ε) (n : Nat) : Got ε (Buffered ε) :=
  if r.buf ≠ [] then ⟨r.buf.take n, none, { r with buf := r.buf.drop n }⟩
  else
    match r.rd.pieces with
    | [] => ⟨[], some r.rd.err, r⟩
    | piece :: pieces =>
      if r.size ≤ n then
        ⟨piece.bytes.take n, none, { r with rd := { r.rd with pieces := push (piece.bytes.drop n) pieces } }⟩
      else
        let got := piece.bytes.take r.size
        ⟨got.take n, none, { r with buf := got.drop n, rd := { r.rd with pieces := push (piece.bytes.drop r.size) pieces } }⟩

/-- Reads until so many bytes are there, no more than the limit at once. Each round gives a byte at
    least, so as many rounds as bytes are enough. -/
def readUntil (limit : Nat) : Nat → Nat → Buffered ε → Got ε (Buffered ε)
  | 0, _, r => ⟨[], none, r⟩
  | rounds + 1, n, r =>
    if n = 0 then ⟨[], none, r⟩
    else
      let got := r.read (min n limit)
      if got.err.isSome then got
      else
        let more := readUntil limit rounds (n - got.bytes.length) got.left
        { more with bytes := got.bytes ++ more.bytes }

def readFull (r : Buffered ε) (n : Nat) : Got ε (Buffered ε) := readUntil n n n r

def discardSize : Nat := 8192

def discard (r : Buffered ε) (n : Nat) : Got ε (Buffered ε) := readUntil discardSize n n r

def unread (r : Buffered ε) : List UInt8 := r.buf ++ r.rd.unread

end Buffered

section Specs
variable {r : Buffered ε} {pieces : List Piece} {buf : List UInt8} {more : List UInt8 → Bool} {size n : Nat}

@[simp] theorem flatMap_push (rest : List UInt8) (pieces : List Piece) :
    (push rest pieces).flatMap Piece.bytes = rest ++ pieces.flatMap Piece.bytes := by
  cases rest with
  | nil => rfl
  | cons b rest => rfl

theorem Piece.bytes_ne_nil (piece : Piece) : piece.bytes ≠ [] := List.cons_ne_nil _ _

/-- Filling loses nothing, and stops when nothing more is wanted, the buffer is full or nothing comes. -/
theorem fillWhile_spec (size : Nat) (more : List UInt8 → Bool) (buf : List UInt8) (pieces : List Piece) :
    (Buffered.fillWhile size more buf pieces).1 ++ (Buffered.fillWhile size more buf pieces).2.flatMap Piece.bytes =
        buf ++ pieces.flatMap Piece.bytes ∧
      ((Buffered.fillWhile size more buf pieces).2 = [] ∨ more (Buffered.fillWhile size more buf pieces).1 = false ∨
        size ≤ (Buffered.fillWhile size more buf pieces).1.length) := by
  induction pieces generalizing buf with
  | nil => simp [Buffered.fillWhile]
  | cons piece pieces ih =>
    simp only [Buffered.fillWhile]
    split
    · rename_i wanted
      simp only [Bool.and_eq_true, decide_eq_true_eq] at wanted
      split
      · obtain ⟨same, stops⟩ := ih (buf ++ piece.bytes)
        exact ⟨by rw [same]; simp, stops⟩
      · refine ⟨?_, .inr (.inr ?_)⟩
        · rw [flatMap_push, List.append_assoc, ← List.append_assoc (List.take _ _), List.take_append_drop]
          rfl
        · rw [List.length_append, List.length_take]
          omega
    · rename_i wanted
      refine ⟨rfl, .inr ?_⟩
      cases here : more buf with
      | false => exact .inl rfl
      | true => exact .inr (by simpa [here] using wanted)

theorem Wire.reads (w : Wire ε) (ask : Ask) : Reads Wire.unread w.err ask w (w.read ask) := by
  obtain ⟨pieces, err⟩ := w
  cases pieces with
  | nil =>
    refine ⟨rfl, fun e told => ?_, fun _ _ => rfl⟩
    cases told
    exact ⟨rfl, rfl⟩
  | cons piece pieces =>
    refine ⟨?_, by simp [read], fun room none => ?_⟩
    · simp only [read, unread, flatMap_push, List.flatMap_cons]
      rw [← List.append_assoc, List.take_append_drop]
    · rcases List.take_eq_nil_iff.mp none with zero | empty
      · omega
      · exact absurd empty piece.bytes_ne_nil

namespace Buffered

structure Same (r s : Buffered ε) : Prop where
  size : s.size = r.size
  err : s.rd.err = r.rd.err

theorem Same.refl (r : Buffered ε) : r.Same r := ⟨rfl, rfl⟩

theorem Same.trans {r s t : Buffered ε} (first : r.Same s) (second : s.Same t) : r.Same t :=
  ⟨second.size.trans first.size, second.err.trans first.err⟩

theorem fill_spec (r : Buffered ε) (more : List UInt8 → Bool) :
    (r.fill more).unread = r.unread ∧ r.Same (r.fill more) ∧
      ((r.fill more).buf = r.unread ∨ more (r.fill more).buf = false ∨ r.size ≤ (r.fill more).buf.length) := by
  obtain ⟨same, stops⟩ := fillWhile_spec r.size more r.buf r.rd.pieces
  refine ⟨same, ⟨rfl, rfl⟩, ?_⟩
  rcases stops with ended | stops
  · rw [ended, List.flatMap_nil, List.append_nil] at same
    exact .inl same
  · exact .inr stops

theorem peek_spec (fits : n ≤ r.size) :
    (r.peek n).bytes = r.unread.take n ∧ (r.peek n).err = (if r.unread.length < n then some r.rd.err else none) ∧
      (r.peek n).left.unread = r.unread ∧ r.Same (r.peek n).left := by
  obtain ⟨same, kept, stops⟩ := r.fill_spec fun buf => buf.length < n
  simp only [peek]
  generalize r.fill (fun buf => decide (buf.length < n)) = s at *
  have whole : r.unread = s.buf ++ s.rd.unread := same.symm
  refine ⟨?_, ?_, same, kept⟩
  · rcases stops with all | enough | full
    · rw [all]
    · rw [whole, List.take_append_of_le_length (by simpa using enough)]
    · rw [whole, List.take_append_of_le_length (by omega)]
  · rw [kept.err]
    have longer := congrArg List.length whole
    rw [List.length_append] at longer
    rcases stops with all | enough | full
    · rw [all]
    · have enough : ¬ s.buf.length < n := by simpa using enough
      rw [if_neg enough, if_neg (by omega)]
    · rw [if_neg (by omega), if_neg (by omega)]

theorem readSlice_ok {delim : UInt8} {line : List UInt8} (read : (r.readSlice delim).1 = .ok line) :
    delim ∈ r.unread ∧ line = (firstLine delim r.unread).1 ∧
      (r.readSlice delim).2.unread = (firstLine delim r.unread).2 ∧ r.Same (r.readSlice delim).2 := by
  obtain ⟨same, kept, _⟩ := r.fill_spec fun buf => delim ∉ buf
  simp only [readSlice] at read ⊢
  generalize r.fill (fun buf => decide (delim ∉ buf)) = s at *
  have whole : r.unread = s.buf ++ s.rd.unread := same.symm
  split
  · rename_i ended
    rw [if_pos ended] at read
    cases read
    rw [whole, firstLine_append_of_mem ended]
    exact ⟨List.mem_append_left _ ended, rfl, rfl, ⟨kept.size, kept.err⟩⟩
  · rename_i open_
    rw [if_neg open_] at read
    split at read <;> cases read

theorem readSlice_of_le {delim : UInt8} (ended : delim ∈ r.unread) (fits : (firstLine delim r.unread).1.length ≤ r.size) :
    (r.readSlice delim).1 = .ok (firstLine delim r.unread).1 := by
  obtain ⟨same, kept, stops⟩ := r.fill_spec fun buf => delim ∉ buf
  simp only [readSlice]
  generalize r.fill (fun buf => decide (delim ∉ buf)) = s at *
  have whole : r.unread = s.buf ++ s.rd.unread := same.symm
  by_cases held : delim ∈ s.buf
  · rw [if_pos held, whole, firstLine_append_of_mem held]
  · rcases stops with all | found | full
    · rw [all] at held
      exact absurd ended held
    · exact absurd (by simpa using found) held
    · -- the line would go on past the full buffer
      have later : delim ∈ s.rd.unread := by
        rw [whole] at ended
        exact (List.mem_append.mp ended).resolve_left held
      have some : 0 < (firstLine delim s.rd.unread).1.length :=
        List.length_pos_iff.mpr fun none => List.ne_nil_of_mem later (firstLine_eq_nil_iff.mp none)
      rw [whole, firstLine_append_of_not_mem held, List.length_append] at fits
      omega

theorem read_spec (room : 0 < n) (size : 0 < r.size) :
    r.unread = (r.read n).bytes ++ (r.read n).left.unread ∧ r.Same (r.read n).left ∧ (r.read n).bytes.length ≤ n ∧
      ((r.unread = [] ∧ (r.read n).err = some r.rd.err) ∨ (r.read n).err = none ∧ (r.read n).bytes ≠ []) := by
  obtain ⟨k, buf, ⟨pieces, err⟩⟩ := r
  cases buf with
  | cons b buf =>
    refine ⟨?_, ⟨rfl, rfl⟩, List.length_take_le _ _, .inr ⟨rfl, ?_⟩⟩
    · simp only [read, unread, ne_eq, reduceCtorEq, not_false_eq_true, if_true]
      rw [← List.append_assoc, List.take_append_drop]
    · simp only [read, ne_eq, reduceCtorEq, not_false_eq_true, if_true]
      simp [List.take_eq_nil_iff]
      omega
  | nil =>
    cases pieces with
    | nil => exact ⟨rfl, ⟨rfl, rfl⟩, Nat.zero_le _, .inl ⟨rfl, rfl⟩⟩
    | cons piece pieces =>
      have some := piece.bytes_ne_nil
      simp only [read, unread, Wire.unread, ne_eq, not_true_eq_false, if_false, List.nil_append]
      split
      · refine ⟨?_, ⟨rfl, rfl⟩, List.length_take_le _ _, .inr ⟨rfl, ?_⟩⟩
        · simp only [flatMap_push, List.flatMap_cons, List.nil_append]
          rw [← List.append_assoc, List.take_append_drop]
        · simp only [List.take_eq_nil_iff, not_or]
          exact ⟨by omega, some⟩
      · refine ⟨?_, ⟨rfl, rfl⟩, List.length_take_le _ _, .inr ⟨rfl, ?_⟩⟩
        · simp only [flatMap_push, List.flatMap_cons]
          rw [← List.append_assoc, ← List.append_assoc, List.take_append_drop, List.take_append_drop]
        · simp only [List.take_eq_nil_iff, not_or]
          exact ⟨by omega, by omega, some⟩

theorem readUntil_spec (limit : Nat) {rounds : Nat} (some : 0 < limit) (size : 0 < r.size) (enough : n ≤ rounds) :
    (n ≤ r.unread.length →
        (readUntil limit rounds n r).bytes = r.unread.take n ∧ (readUntil limit rounds n r).err = none ∧
          (readUntil limit rounds n r).left.unread = r.unread.drop n) ∧
      (r.unread.length < n → (readUntil limit rounds n r).err = Option.some r.rd.err) ∧
      r.Same (readUntil limit rounds n r).left := by
  induction rounds generalizing n r with
  | zero =>
    have none : n = 0 := by omega
    subst none
    exact ⟨fun _ => ⟨rfl, rfl, rfl⟩, fun short => absurd short (Nat.not_lt_zero _), Same.refl r⟩
  | succ rounds ih =>
    simp only [readUntil]
    by_cases none : n = 0
    · subst none
      rw [if_pos rfl]
      exact ⟨fun _ => ⟨rfl, rfl, rfl⟩, fun short => absurd short (Nat.not_lt_zero _), Same.refl r⟩
    · rw [if_neg none]
      obtain ⟨bytes, kept, short, ends⟩ := r.read_spec (n := min n limit) (by omega) size
      rcases ends with ⟨empty, told⟩ | ⟨told, got⟩
      · simp only [told, Option.isSome_some, if_true]
        refine ⟨fun here => ?_, fun _ => trivial, kept⟩
        rw [empty, List.length_nil] at here
        omega
      · have some' := List.length_pos_iff.mpr got
        have lengths := congrArg List.length bytes
        rw [List.length_append] at lengths
        obtain ⟨all, cut, kept'⟩ := ih (n := n - (r.read (min n limit)).bytes.length) (r := (r.read (min n limit)).left)
          (by rw [kept.size]; exact size) (by omega)
        simp only [told, Option.isSome_none, Bool.false_eq_true, if_false]
        refine ⟨fun here => ?_, fun short' => ?_, kept.trans kept'⟩
        · obtain ⟨more, none', left⟩ := all (by omega)
          refine ⟨?_, none', ?_⟩
          · have before : (r.read (min n limit)).bytes.length ≤ n := by omega
            rw [more, bytes, List.take_append, List.take_of_length_le before]
          · have before : (r.read (min n limit)).bytes.length ≤ n := by omega
            rw [left, bytes, List.drop_append, List.drop_of_length_le before, List.nil_append]
        · rw [cut (by omega), kept.err]

end Buffered

end Specs

end Text
