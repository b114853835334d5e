import Mailgw.Queue.HeaderBlock
import Mailgw.Text.Search

namespace Mailgw.Smtp

open Deliver (Bytes Chars)
open Queue (EndsBlank headerBlock headerLines)
open Text (CR LF CRLF index)

def maxHeaderCapture : Nat := 2 ^ 20

def doubleCRLF : Bytes := [CR, LF, CR, LF]
def doubleLF : Bytes := [LF, LF]

/-- What is known of a message that streams past. Without a positive `maxHeaderLines` there is no limit. -/
structure BodyScan where
  maxHeaderLines : Int
  lines : Nat := 0
  total : Nat := 0
  hdr : Bytes := []
  hdrDone : Bool := false
  hdrLines : Nat := 0
  scanFrom : Nat := 0
  tooMany : Bool := false

namespace BodyScan

def countHeaderLines (s : BodyScan) : BodyScan :=
  let hdrLines := s.hdr.count LF
  { s with hdrLines, tooMany := s.tooMany || (decide (0 < s.maxHeaderLines) && decide (s.maxHeaderLines < hdrLines)) }

/-- Buffers what is read until the blank line. The search goes on three bytes before the end of what
    was there before. -/
def captureHeader (s : BodyScan) (chunk : Bytes) : BodyScan :=
  let room := maxHeaderCapture - s.hdr.length
  if room = 0 then { s with hdrDone := true }
  else
    let buf := s.hdr ++ chunk.take room
    let start := s.scanFrom - 3
    match index doubleCRLF (buf.drop start) with
    | some i => countHeaderLines { s with hdr := buf.take (start + i + 4), hdrDone := true }
    | none =>
      match index doubleLF (buf.drop start) with
      | some i => countHeaderLines { s with hdr := buf.take (start + i + 2), hdrDone := true }
      | none =>
        countHeaderLines { s with hdr := buf, scanFrom := buf.length, hdrDone := decide (maxHeaderCapture ≤ buf.length) }

def read (s : BodyScan) (chunk : Bytes) : BodyScan :=
  if chunk = [] then s
  else
    let s := { s with total := s.total + chunk.length, lines := s.lines + chunk.count LF }
    if s.hdrDone then s else s.captureHeader chunk

def consume (s : BodyScan) : List Bytes → BodyScan
  | [] => s
  | chunk :: rest => if (s.read chunk).tooMany then s.read chunk else (s.read chunk).consume rest

end BodyScan

structure Scanned where
  header : Bytes
  lines : Nat
  size : Nat
  deriving Repr, DecidableEq

def errTooManyHeaderLines : Chars := "smtpsrv: message header exceeds max.header_lines".toList

def BodyScan.result (s : BodyScan) : Except Chars Scanned :=
  if s.tooMany then .error errTooManyHeaderLines else .ok ⟨s.hdr, s.lines, s.total⟩

def scanBody (maxHeaderLines : Int) (reads : List Bytes) : Except Chars Scanned :=
  ({ maxHeaderLines : BodyScan }.consume reads).result

/-- The text ends with two line ends of one kind, which is where the scan takes the header to end. -/
def DoubleEnd (s : Bytes) : Prop := doubleCRLF <:+ s ∨ doubleLF <:+ s

def Open (s : Bytes) : Prop := ∀ p, p <+: s → ¬ DoubleEnd p

def captured (buf : Bytes) : Bytes :=
  match index doubleCRLF buf with
  | some i => buf.take (i + 4)
  | none =>
    match index doubleLF buf with
    | some i => buf.take (i + 2)
    | none => buf

section Captured
variable {s t buf : Bytes}

theorem Open.shorter (still : Open t) (part : s <+: t) : Open s := fun p within => still p (within.trans part)

theorem index_of_open (still : Open buf) : index doubleCRLF buf = none ∧ index doubleLF buf = none := by
  constructor
  · apply Text.index_eq_none_iff.mpr
    intro p part ends
    exact still p part (.inl ends)
  · apply Text.index_eq_none_iff.mpr
    intro p part ends
    exact still p part (.inr ends)

theorem captured_of_open (still : Open buf) : captured buf = buf := by
  obtain ⟨crlf, lf⟩ := index_of_open still
  simp [captured, crlf, lf]

theorem captured_begins (buf : Bytes) : captured buf <+: buf := by
  unfold captured
  split
  · exact List.take_prefix _ _
  · split
    · exact List.take_prefix _ _
    · exact List.prefix_rfl

theorem captured_cases (buf : Bytes) :
    (doubleCRLF <:+ captured buf ∧ ∀ p, p <+: buf → doubleCRLF <:+ p → captured buf <+: p) ∨
      (doubleLF <:+ captured buf ∧ (∀ p, p <+: buf → doubleLF <:+ p → captured buf <+: p) ∧
        ∀ p, p <+: buf → ¬ doubleCRLF <:+ p) ∨ Open buf := by
  have shorter {n : Nat} {p : Bytes} (part : p <+: buf) (bound : n ≤ p.length) : buf.take n <+: p :=
    List.prefix_of_prefix_length_le (List.take_prefix n buf) part (by
      rw [List.length_take]
      omega)
  unfold captured
  cases crlf : index doubleCRLF buf with
  | some i =>
    left
    obtain ⟨_, ends, first⟩ := Text.index_eq_some crlf
    exact ⟨ends, fun p part ends' => shorter part (first p part ends')⟩
  | none =>
    right
    have never := Text.index_eq_none_iff.mp crlf
    cases lf : index doubleLF buf with
    | some i =>
      left
      obtain ⟨_, ends, first⟩ := Text.index_eq_some lf
      exact ⟨ends, fun p part ends' => shorter part (first p part ends'), never⟩
    | none =>
      right
      have never' := Text.index_eq_none_iff.mp lf
      intro p part ends
      rcases ends with crlf' | lf'
      · exact never p part crlf'
      · exact never' p part lf'

theorem doubleEnd_captured (past : ¬ Open buf) : DoubleEnd (captured buf) := by
  rcases captured_cases buf with ⟨crlf, _⟩ | ⟨lf, _⟩ | still
  · exact .inl crlf
  · exact .inr lf
  · exact absurd still past

theorem prefix_captured (still : Open s) (part : s <+: buf) : s <+: captured buf := by
  by_cases past : Open buf
  · rw [captured_of_open past]
    exact part
  · rcases List.prefix_or_prefix_of_prefix part (captured_begins buf) with inside | beyond
    · exact inside
    · exact absurd (doubleEnd_captured past) (still _ beyond)

end Captured

def Exceeds (limit : Int) (header : Bytes) : Prop := 0 < limit ∧ limit < header.count LF

instance (limit : Int) (header : Bytes) : Decidable (Exceeds limit header) := inferInstanceAs (Decidable (_ ∧ _))

theorem Exceeds.longer {limit : Int} {s t : Bytes} (exceeds : Exceeds limit s) (part : s <+: t) : Exceeds limit t := by
  obtain ⟨positive, more⟩ := exceeds
  have fewer : s.count LF ≤ t.count LF := part.sublist.count_le LF
  exact ⟨positive, by omega⟩

def verdict (limit : Int) (message header : Bytes) : Except Chars Scanned :=
  if Exceeds limit header then .error errTooManyHeaderLines
  else .ok ⟨header, message.count LF, message.length⟩

namespace BodyScan

variable {s : BodyScan} {r chunk : Bytes} {limit : Int}

structure Going (limit : Int) (r : Bytes) (s : BodyScan) : Prop where
  maximum : s.maxHeaderLines = limit
  total : s.total = r.length
  lines : s.lines = r.count LF
  hdr : s.hdr = r
  hdrDone : s.hdrDone = false
  scanFrom : s.scanFrom = r.length
  calm : s.tooMany = false
  short : r.length < maxHeaderCapture
  still : Open r
  fewer : ¬ Exceeds limit r

/-- Where nothing is found before the last three bytes, nothing is found before the whole is searched. -/
theorem index_resumed (sep : Bytes) (size : sep.length ≤ 4) (clear : ∀ p, p <+: r → ¬ sep <:+ p) (chunk : Bytes) :
    index sep (r ++ chunk) = (index sep ((r ++ chunk).drop (r.length - 3))).map (· + (r.length - 3)) := by
  apply Text.index_drop
  · intro p part ends
    have least := ends.length_le
    rcases List.prefix_or_prefix_of_prefix part (List.prefix_append r chunk) with inside | beyond
    · exact absurd ends (clear p inside)
    · have longer := beyond.length_le
      by_cases same : p.length = r.length
      · exact absurd ends (clear p (beyond.eq_of_length same.symm ▸ List.prefix_rfl))
      · omega
  · rw [List.length_append]
    omega

/-- One more read takes the scan to what it would find in the whole buffer. -/
theorem captureHeader_going (hdr : s.hdr = r) (start : s.scanFrom = r.length) (short : r.length < maxHeaderCapture)
    (still : Open r) (chunk : Bytes) :
    ∃ scanFrom hdrDone, s.captureHeader chunk =
        countHeaderLines { s with hdr := captured ((r ++ chunk).take maxHeaderCapture), scanFrom, hdrDone } ∧
      (¬ Open ((r ++ chunk).take maxHeaderCapture) → hdrDone = true) ∧
      (Open ((r ++ chunk).take maxHeaderCapture) → scanFrom = ((r ++ chunk).take maxHeaderCapture).length ∧
        hdrDone = decide (maxHeaderCapture ≤ ((r ++ chunk).take maxHeaderCapture).length)) := by
  have room : maxHeaderCapture - r.length ≠ 0 := by omega
  have buf : (r ++ chunk).take maxHeaderCapture = r ++ chunk.take (maxHeaderCapture - r.length) := by
    rw [List.take_append, List.take_of_length_le (Nat.le_of_lt short)]
  have first := index_resumed doubleCRLF (by decide) (fun p part ends => still p part (.inl ends))
    (chunk.take (maxHeaderCapture - r.length))
  have second := index_resumed doubleLF (by decide) (fun p part ends => still p part (.inr ends))
    (chunk.take (maxHeaderCapture - r.length))
  rw [buf]
  simp only [captureHeader, hdr, start, room, if_false]
  generalize r ++ chunk.take (maxHeaderCapture - r.length) = b at first second ⊢
  cases crlf : index doubleCRLF (b.drop (r.length - 3)) with
  | some i =>
    rw [crlf] at first
    have past : ¬ Open b := fun still => by simp [(index_of_open still).1] at first
    refine ⟨s.scanFrom, true, ?_, fun _ => rfl, fun still => absurd still past⟩
    simp only [captured, first, Option.map_some, start]
    rw [Nat.add_comm i]
  | none =>
    rw [crlf] at first
    cases lf : index doubleLF (b.drop (r.length - 3)) with
    | some i =>
      rw [lf] at second
      have past : ¬ Open b := fun still => by simp [(index_of_open still).2] at second
      refine ⟨s.scanFrom, true, ?_, fun _ => rfl, fun still => absurd still past⟩
      simp only [captured, first, second, Option.map_some, Option.map_none, start]
      rw [Nat.add_comm i]
    | none =>
      rw [lf] at second
      refine ⟨b.length, decide (maxHeaderCapture ≤ b.length), ?_, fun past => absurd ?_ past, fun _ => ⟨rfl, rfl⟩⟩
      · simp only [captured, first, second, Option.map_none]
      · rcases captured_cases b with ⟨ends, _⟩ | ⟨ends, _⟩ | still
        · exact absurd ends (Text.index_eq_none_iff.mp (by simpa using first) _ (captured_begins b))
        · exact absurd ends (Text.index_eq_none_iff.mp (by simpa using second) _ (captured_begins b))
        · exact still

theorem consume_done (done : s.hdrDone = true) (calm : s.tooMany = false) (reads : List Bytes) :
    (s.consume reads).result = .ok ⟨s.hdr, s.lines + reads.flatten.count LF, s.total + reads.flatten.length⟩ := by
  induction reads generalizing s with
  | nil => simp [consume, result, calm]
  | cons chunk rest ih =>
    have read : ∃ total lines, s.read chunk = { s with total, lines } ∧ total = s.total + chunk.length ∧
        lines = s.lines + chunk.count LF := by
      unfold BodyScan.read
      split
      · rename_i none
        exact ⟨s.total, s.lines, rfl, by simp [none], by simp [none]⟩
      · exact ⟨_, _, by simp [done], rfl, rfl⟩
    obtain ⟨total, lines, same, counted, counted'⟩ := read
    have later := ih (s := { s with total, lines }) done calm
    rw [consume, same, if_neg (by simp [calm]), later, counted, counted', List.flatten_cons, List.count_append,
      List.length_append, Nat.add_assoc, Nat.add_assoc]

theorem read_going (going : s.Going limit r) (some : chunk ≠ []) :
    (s.read chunk).maxHeaderLines = limit ∧ (s.read chunk).total = (r ++ chunk).length ∧
      (s.read chunk).lines = (r ++ chunk).count LF ∧ (s.read chunk).hdr = captured ((r ++ chunk).take maxHeaderCapture) ∧
      (s.read chunk).tooMany = decide (Exceeds limit (captured ((r ++ chunk).take maxHeaderCapture))) ∧
      (¬ Open ((r ++ chunk).take maxHeaderCapture) → (s.read chunk).hdrDone = true) ∧
      (Open ((r ++ chunk).take maxHeaderCapture) →
        (s.read chunk).scanFrom = ((r ++ chunk).take maxHeaderCapture).length ∧
        (s.read chunk).hdrDone = decide (maxHeaderCapture ≤ ((r ++ chunk).take maxHeaderCapture).length)) := by
  obtain ⟨scanFrom, hdrDone, same, past, still⟩ := captureHeader_going
    (s := { s with total := s.total + chunk.length, lines := s.lines + chunk.count LF }) going.hdr going.scanFrom
    going.short going.still chunk
  have read : s.read chunk = _ := (by simp [BodyScan.read, some, going.hdrDone] : s.read chunk = _).trans same
  rw [read]
  refine ⟨going.maximum, ?_, ?_, rfl, ?_, past, still⟩
  · simp [countHeaderLines, going.total]
  · simp [countHeaderLines, going.lines]
  · rw [Bool.eq_iff_iff, decide_eq_true_iff]
    simp [countHeaderLines, going.calm, going.maximum, Exceeds]

theorem consume_closed (going : s.Going limit r) (some : chunk ≠ [])
    (closed : Open ((r ++ chunk).take maxHeaderCapture) → maxHeaderCapture ≤ ((r ++ chunk).take maxHeaderCapture).length)
    (reads : List Bytes) : (s.consume (chunk :: reads)).result =
      verdict limit (r ++ chunk ++ reads.flatten) (captured ((r ++ chunk).take maxHeaderCapture)) := by
  obtain ⟨_, total, lines, hdr, tooMany, past, still⟩ := read_going going some
  have done : (s.read chunk).hdrDone = true := by
    by_cases more : Open ((r ++ chunk).take maxHeaderCapture)
    · rw [(still more).2]
      exact decide_eq_true (closed more)
    · exact past more
  unfold consume verdict
  by_cases exceeds : Exceeds limit (captured ((r ++ chunk).take maxHeaderCapture))
  · have stopped : (s.read chunk).tooMany = true := by simp [tooMany, exceeds]
    simp [result, stopped, exceeds]
  · have goes : (s.read chunk).tooMany = false := by simp [tooMany, exceeds]
    rw [goes, if_neg (by decide), if_neg exceeds, consume_done done goes, hdr, lines, total]
    simp [Nat.add_assoc]

/-- However the rest is cut, the header is what the scan finds at one point of the message: where it first
    sees an end of the header, or at the end. -/
theorem consume_going (going : s.Going limit r) (reads : List Bytes) :
    ∃ y, y <+: (r ++ reads.flatten).take maxHeaderCapture ∧ (Open y → y = (r ++ reads.flatten).take maxHeaderCapture) ∧
      (s.consume reads).result = verdict limit (r ++ reads.flatten) (captured y) := by
  induction reads generalizing s r with
  | nil =>
    have whole : r.take maxHeaderCapture = r := List.take_of_length_le (Nat.le_of_lt going.short)
    refine ⟨r, ?_, ?_, ?_⟩
    · rw [List.flatten_nil, List.append_nil, whole]
    · intro _
      rw [List.flatten_nil, List.append_nil, whole]
    · rw [captured_of_open going.still]
      simp [consume, result, verdict, going.calm, going.fewer, going.hdr, going.lines, going.total]
  | cons chunk rest ih =>
    rw [List.flatten_cons, ← List.append_assoc]
    by_cases none : chunk = []
    · have idle : s.read chunk = s := by simp [BodyScan.read, none]
      have same : (s.consume (chunk :: rest)) = s.consume rest := by simp [consume, idle, going.calm]
      rw [same, none, List.append_nil]
      exact ih going
    · have part : (r ++ chunk).take maxHeaderCapture <+: (r ++ chunk ++ rest.flatten).take maxHeaderCapture :=
        List.IsPrefix.take (List.prefix_append _ _) maxHeaderCapture
      by_cases closed : Open ((r ++ chunk).take maxHeaderCapture) → maxHeaderCapture ≤ ((r ++ chunk).take maxHeaderCapture).length
      · refine ⟨_, part, fun still => ?_, consume_closed going none closed rest⟩
        apply part.eq_of_length_le
        exact (List.length_take_le _ _).trans (closed still)
      · obtain ⟨still, short⟩ := Classical.not_imp.mp closed
        obtain ⟨maximum, total, lines, hdr, tooMany, _, more⟩ := read_going going none
        have whole : (r ++ chunk).take maxHeaderCapture = r ++ chunk := by
          apply List.take_of_length_le
          rw [List.length_take] at short
          omega
        rw [whole] at still short hdr tooMany more
        rw [captured_of_open still] at hdr tooMany
        by_cases exceeds : Exceeds limit (r ++ chunk)
        · refine ⟨_, List.prefix_rfl, fun _ => rfl, ?_⟩
          have stopped : (s.read chunk).tooMany = true := by simp [tooMany, exceeds]
          rw [whole] at part
          have beyond : Exceeds limit (captured ((r ++ chunk ++ rest.flatten).take maxHeaderCapture)) :=
            exceeds.longer (prefix_captured still part)
          rw [verdict, if_pos beyond]
          simp [consume, result, stopped]
        · have goes : (s.read chunk).tooMany = false := by simp [tooMany, exceeds]
          have next : (s.read chunk).Going limit (r ++ chunk) :=
            ⟨maximum, total, lines, hdr, (more still).2.trans (decide_eq_false short), (more still).1, goes, Nat.lt_of_not_le short,
              still, exceeds⟩
          obtain ⟨y, within, all, came⟩ := ih next
          refine ⟨y, within, all, ?_⟩
          rw [consume, goes, if_neg (by decide), came]

theorem going_start (limit : Int) : Going limit [] { maxHeaderLines := limit } where
  maximum := rfl
  total := rfl
  lines := rfl
  hdr := rfl
  hdrDone := rfl
  scanFrom := rfl
  calm := rfl
  short := Nat.two_pow_pos 20
  still p part ends := by
    rw [List.prefix_nil.mp part] at ends
    rcases ends with crlf | lf
    · exact absurd (List.suffix_nil.mp crlf) (by decide)
    · exact absurd (List.suffix_nil.mp lf) (by decide)
  fewer exceeds := by
    obtain ⟨positive, more⟩ := exceeds
    rw [List.count_nil] at more
    omega

end BodyScan

/-- Each way to cut the message into reads gives the same result, and where it is not refused the header
    is what `headerBlock` takes from the stored body. -/
def SameHoweverCut (limit : Int) (message : Bytes) : Prop :=
  ∃ came, (∀ reads, reads.flatten = message → scanBody limit reads = came) ∧
    ∀ scanned, came = .ok scanned →
      scanned = ⟨headerBlock (Deliver.Reader.ofBytes message), message.count LF, message.length⟩

/-- There are too many line ends before the first double one is complete. -/
def OverLimit (limit : Int) (buf : Bytes) : Prop := ∃ p, p <+: buf ∧ Open p.dropLast ∧ Exceeds limit p

/-- The first blank line, if there is one, is CRLF after a line that ends so, or LF where no double CRLF
    follows, or the end of the message. -/
def PlainEnd (buf : Bytes) : Prop :=
  ∀ head, head <+: buf → EndsBlank head → (∀ p, p <+: head → EndsBlank p → p = head) →
    doubleCRLF <:+ head ∨ (doubleLF <:+ head ∧ ∀ p, p <+: buf → ¬ doubleCRLF <:+ p) ∨ head = buf

section Boundaries
variable {s y buf : Bytes} {limit : Int}

theorem endsBlank_of_doubleEnd (ends : DoubleEnd s) : EndsBlank s := by
  rcases ends with ⟨before, same⟩ | ⟨before, same⟩
  · refine ⟨before ++ CRLF, CRLF, ?_, ?_, by decide⟩
    · rw [← same]
      simp [doubleCRLF, CRLF]
    · exact .inr ⟨before ++ [CR], by simp [CRLF]⟩
  · refine ⟨before ++ [LF], [LF], ?_, Text.endsLine_append_eol, by decide⟩
    rw [← same]
    simp [doubleLF]

theorem exists_first_end (past : ¬ Open buf) : ∃ p, p <+: buf ∧ DoubleEnd p ∧ Open p.dropLast := by
  induction buf using List.reverseRecOn with
  | nil =>
    exfalso
    apply past
    intro p part ends
    rw [List.prefix_nil.mp part] at ends
    rcases ends with crlf | lf
    · exact absurd (List.suffix_nil.mp crlf) (by decide)
    · exact absurd (List.suffix_nil.mp lf) (by decide)
  | append_singleton init last ih =>
    by_cases before : Open init
    · refine ⟨init ++ [last], List.prefix_rfl, ?_, by rwa [List.dropLast_concat]⟩
      by_contra none
      apply past
      intro p part
      rcases List.prefix_concat_iff.mp part with whole | inside
      · rw [whole]
        exact none
      · exact before p inside
    · obtain ⟨p, part, ends, still⟩ := ih before
      exact ⟨p, part.trans (List.prefix_append _ _), ends, still⟩

theorem captured_first_end (ends : DoubleEnd s) (still : Open s.dropLast) : captured s = s := by
  have past : ¬ Open s := fun open_ => open_ s List.prefix_rfl ends
  have part := captured_begins s
  by_contra shorter
  have inside : captured s <+: s.dropLast := by
    have some : s ≠ [] := by
      rintro rfl
      exact shorter (List.prefix_nil.mp part)
    have cut : captured s <+: s.dropLast ++ [s.getLast some] := by
      rw [List.dropLast_append_getLast]
      exact part
    rcases List.prefix_concat_iff.mp cut with whole | inside
    · exact absurd (whole.trans (List.dropLast_append_getLast some)) shorter
    · exact inside
  exact still _ inside (doubleEnd_captured past)

theorem eq_headerLines (part : s <+: buf) (ends : EndsBlank s) (first : ∀ p, p <+: s → EndsBlank p → p = s) :
    s = headerLines [] buf := by
  have shorter := Queue.headerLines_first part ends
  rcases Queue.headerLines_cases buf with blank | whole
  · exact (first _ shorter blank).symm
  · apply List.IsPrefix.eq_of_length_le _ shorter.length_le
    rw [whole]
    exact part

theorem headerLines_is_first {p : Bytes} (part : p <+: headerLines [] buf) (ends : EndsBlank p) : p = headerLines [] buf :=
  part.eq_of_length_le (Queue.headerLines_first (part.trans (Queue.headerLines_prefix buf)) ends).length_le

theorem captured_eq_headerLines (plain : PlainEnd buf) (part : y <+: buf) (all : Open y → y = buf) :
    captured y = headerLines [] buf := by
  have within := captured_begins y
  have block := Queue.headerLines_prefix buf
  have kinds := plain _ block
  by_cases still : Open y
  · rw [captured_of_open still, all still]
    rcases Queue.headerLines_cases buf with blank | whole
    · have nowhere := (all still ▸ still) _ block
      rcases kinds blank (fun p part ends => headerLines_is_first part ends) with crlf | ⟨lf, _⟩ | whole
      · exact absurd (.inl crlf) nowhere
      · exact absurd (.inr lf) nowhere
      · exact whole.symm
    · exact whole.symm
  · have ends := endsBlank_of_doubleEnd (doubleEnd_captured still)
    have least : headerLines [] buf <+: captured y := Queue.headerLines_first (within.trans part) ends
    have most : captured y <+: headerLines [] buf := by
      rcases Queue.headerLines_cases buf with blank | whole
      · rcases kinds blank (fun p part ends => headerLines_is_first part ends) with crlf | ⟨lf, never⟩ | whole
        · rcases captured_cases y with ⟨_, first⟩ | ⟨_, _, none⟩ | open_
          · exact first _ (least.trans within) crlf
          · exact absurd crlf (none _ (least.trans within))
          · exact absurd open_ still
        · rcases captured_cases y with ⟨crlf, _⟩ | ⟨_, first, _⟩ | open_
          · exact absurd crlf (never _ (within.trans part))
          · exact first _ (least.trans within) lf
          · exact absurd open_ still
        · rw [whole]
          exact within.trans part
      · rw [whole]
        exact within.trans part
    exact most.eq_of_length_le least.length_le

theorem exceeds_captured (past : OverLimit limit buf) (part : y <+: buf) (all : Open y → y = buf) :
    Exceeds limit (captured y) := by
  obtain ⟨p, within, still, exceeds⟩ := past
  apply exceeds.longer
  by_cases open_ : Open y
  · rw [captured_of_open open_, all open_]
    exact within
  · rcases List.prefix_or_prefix_of_prefix within ((captured_begins y).trans part) with inside | beyond
    · exact inside
    · by_contra further
      have some : p ≠ [] := by
        rintro rfl
        exact further List.nil_prefix
      have cut : captured y <+: p.dropLast ++ [p.getLast some] := by
        rw [List.dropLast_append_getLast]
        exact beyond
      rcases List.prefix_concat_iff.mp cut with whole | before
      · rw [whole, List.dropLast_append_getLast] at further
        exact further List.prefix_rfl
      · exact still _ before (doubleEnd_captured open_)

theorem scanBody_cases (limit : Int) (reads : List Bytes) : ∃ y, y <+: reads.flatten.take maxHeaderCapture ∧
    (Open y → y = reads.flatten.take maxHeaderCapture) ∧
      scanBody limit reads = verdict limit reads.flatten (captured y) := by
  simpa [scanBody] using BodyScan.consume_going (BodyScan.going_start limit) reads

theorem scanBody_closed (limit : Int) {chunk : Bytes} (rest : Bytes) (past : ¬ Open (chunk.take maxHeaderCapture)) :
    scanBody limit [chunk, rest] = verdict limit (chunk ++ rest) (captured (chunk.take maxHeaderCapture)) := by
  have some : chunk ≠ [] := by
    rintro rfl
    exact past (BodyScan.going_start limit).still
  simpa [scanBody] using BodyScan.consume_closed (BodyScan.going_start limit) some (fun still => absurd still past) [rest]

end Boundaries

theorem headerBlock_stored (message : Bytes) :
    headerBlock (Deliver.Reader.ofBytes message) = headerLines [] (message.take maxHeaderCapture) := by
  simp [headerBlock, Deliver.Reader.readable, Deliver.Reader.ofBytes, Queue.headerCap, maxHeaderCapture]

/-- The scan agrees with itself and with the reader of the stored body unless the line ends are mixed
    around the first blank line, or the message is refused before that can matter. -/
theorem scanBody_same_iff (limit : Int) (message : Bytes) : SameHoweverCut limit message ↔
    OverLimit limit (message.take maxHeaderCapture) ∨ PlainEnd (message.take maxHeaderCapture) := by
  constructor
  · intro same
    obtain ⟨came, all, facts⟩ := same
    by_cases past : OverLimit limit (message.take maxHeaderCapture)
    · exact .inl past
    right
    intro head part ends first
    have block := eq_headerLines part ends first
    rw [← headerBlock_stored] at block
    by_cases still : Open (message.take maxHeaderCapture)
    · obtain ⟨y, part', whole, scanned⟩ := scanBody_cases limit [message]
      rw [List.flatten_singleton] at part' whole scanned
      have accepted : ¬ Exceeds limit y := by
        intro exceeds
        exact past ⟨y, part', (still.shorter part').shorter (List.dropLast_prefix y), exceeds⟩
      rw [captured_of_open (still.shorter part'), verdict, if_neg accepted, all [message] (by simp)] at scanned
      have header : y = headerBlock (Deliver.Reader.ofBytes message) := congrArg Scanned.header (facts _ scanned)
      right
      right
      rw [block, ← header]
      exact whole (still.shorter part')
    · obtain ⟨p, within, double, before⟩ := exists_first_end still
      have fits : p.take maxHeaderCapture = p := by
        apply List.take_of_length_le
        exact within.length_le.trans (List.length_take_le _ _)
      obtain ⟨rest, cut⟩ := within.trans (List.take_prefix maxHeaderCapture message)
      have closed : ¬ Open (p.take maxHeaderCapture) := by
        rw [fits]
        exact fun open_ => open_ p List.prefix_rfl double
      have early := scanBody_closed limit rest closed
      have late := scanBody_closed limit [] still
      rw [fits, captured_first_end double before, cut, all [p, rest] (by simpa using cut)] at early
      rw [List.append_nil, all [message, []] (by simp)] at late
      have accepted : ¬ Exceeds limit p := fun exceeds => past ⟨p, within, before, exceeds⟩
      rw [verdict, if_neg accepted] at early
      have header : captured (message.take maxHeaderCapture) = headerBlock (Deliver.Reader.ofBytes message) := by
        rw [early, verdict] at late
        split at late
        · cases late
        · have same := congrArg Scanned.header (Except.ok.inj late)
          exact same.symm.trans (congrArg Scanned.header (facts _ early))
      rw [block, ← header]
      rcases captured_cases (message.take maxHeaderCapture) with ⟨crlf, _⟩ | ⟨lf, _, never⟩ | open_
      · exact .inl crlf
      · exact .inr (.inl ⟨lf, never⟩)
      · exact absurd open_ still
  · intro settled
    rcases settled with past | plain
    · refine ⟨.error errTooManyHeaderLines, fun reads joined => ?_, fun _ none => by cases none⟩
      obtain ⟨y, part, whole, scanned⟩ := scanBody_cases limit reads
      rw [joined] at part whole scanned
      rw [scanned, verdict, if_pos (exceeds_captured past part whole)]
    · refine ⟨verdict limit message (headerBlock (Deliver.Reader.ofBytes message)), fun reads joined => ?_, fun scanned came => ?_⟩
      · obtain ⟨y, part, whole, scanned⟩ := scanBody_cases limit reads
        rw [joined] at part whole scanned
        rw [scanned, captured_eq_headerLines plain part whole, headerBlock_stored]
      · unfold verdict at came
        split at came
        · cases came
        · exact (Except.ok.inj came).symm

/-- A trace header, and a message with bare line feeds that quotes one with CRLF. -/
def mixedHeader : Bytes := Deliver.encode ("Received: from a (192.0.2.1)\r\n\tby mx (mailgw-go) with ESMTP id A0.1\r\n".toList ++
  "\t; Mon, 02 Jan 2006 15:04:05 +0000\r\nX-NGM-Gateway: go\r\nSubject: x\n\n".toList)

def mixedBody : Bytes := Deliver.encode "> Subject: y\r\n\r\n> hello\r\n".toList

theorem mixed_not_same : ¬ SameHoweverCut 0 (mixedHeader ++ mixedBody) := by
  intro same
  obtain ⟨came, all, _⟩ := same
  have whole := all [mixedHeader ++ mixedBody] (by simp)
  have cut := all [mixedHeader, mixedBody] (by simp)
  exact absurd (whole.trans cut.symm) (by decide +kernel)

end Mailgw.Smtp
