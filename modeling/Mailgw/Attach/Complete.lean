import Mailgw.Attach.Walk
import Mailgw.Text.Multipart
import Mailgw.Trees.Rose

namespace Mailgw.Attach

open Deliver Text Trees
open Queue (CaseFolding)

structure Leaf where
  header : Header
  content : Bytes
  deriving Repr, DecidableEq

abbrev MimeTree := Rose Leaf Header

section Meaning
variable [LowerCase] [CaseFolding] [Mime]

def mediaOf (hdr : Header) : Chars × Params := parseMedia (get hdr "Content-Type".toList) "text/plain".toList

def Multipart (hdr : Header) : Prop := "multipart/".toList <+: (mediaOf hdr).1

instance (hdr : Header) : Decidable (Multipart hdr) := inferInstanceAs (Decidable (_ <+: _))

def boundaryOf (hdr : Header) : Chars := get (mediaOf hdr).2 "boundary".toList

mutual
def Renders : MimeTree → Header → Body → Prop
  | .leaf l, hdr, r =>
    hdr = l.header ∧ ¬ Multipart hdr ∧ r.err = none ∧
      decoded r (get hdr "Content-Transfer-Encoding".toList) = .ok l.content
  | .branch label parts, hdr, r =>
    hdr = label ∧ Multipart hdr ∧ boundaryOf hdr ≠ [] ∧ (Mime.rawParts (boundaryOf hdr) r).2 = none ∧
      RendersAll parts (Mime.rawParts (boundaryOf hdr) r).1

def RendersAll : List MimeTree → List RawPart → Prop
  | [], [] => True
  | t :: ts, p :: ps => Renders t p.header p.body ∧ RendersAll ts ps
  | [], _ :: _ => False
  | _ :: _, [] => False
end

def RendersMessage (t : MimeTree) (message : Body) : Prop :=
  let head := Mime.readMIMEHeader message
  (head.err = none ∨ head.header ≠ []) ∧ Renders t head.header head.rest

def attachment (opts : Options) (l : Leaf) : Option Part :=
  let disposition := parseMedia (get l.header "Content-Disposition".toList) []
  let filename := decodeWord (firstNonEmpty [get disposition.2 "filename".toList, get (mediaOf l.header).2 "name".toList])
  if isAttachment (mediaOf l.header).1 disposition.1 filename opts then
    some ⟨filename, (mediaOf l.header).1, Mime.md5 l.content, disposition.1, l.content.length⟩
  else none

def attachments (opts : Options) (t : MimeTree) : List Part := t.leaves.filterMap (attachment opts)

/-- All of a message within the limits is reported, and any other as cut short. -/
def Complete (opts : Options) (t : MimeTree) (out : Result × Option WalkErr) : Prop :=
  if t.size ≤ maxParts ∧ t.height ≤ maxDepth then out = (⟨t.size, attachments opts t⟩, none)
  else out.2 = some .truncated

def Result.add (res : Result) (opts : Options) (t : MimeTree) : Result :=
  ⟨res.partCount + t.size, res.parts ++ attachments opts t⟩

def Fits (room count : Nat) (t : MimeTree) : Prop :=
  t.height < room ∧ (count + t.size < maxParts ∨ (t.size = 1 ∧ count + 1 = maxParts))

end Meaning

theorem not_fits_full {t : MimeTree} {count : Nat} (full : maxParts ≤ count) : ¬ Fits room count t := by
  intro ⟨_, few⟩
  have := t.size_pos
  omega

section Walk
variable [LowerCase] [CaseFolding] [Mime] {opts : Options} {room : Nat} {res : Result} {hdr : Header} {r : Body}

theorem leaf_renders {l : Leaf} (renders : Renders (.leaf l) hdr r) :
    leaf res hdr r (mediaOf hdr).1 (mediaOf hdr).2 opts =
      ({ res with parts := res.parts ++ (attachment opts l).toList }, none) := by
  simp only [Renders] at renders
  obtain ⟨rfl, _, whole, content⟩ := renders
  simp only [leaf, attachment, hashDecoded, content, whole, Option.map_none]
  cases attached : isAttachment (mediaOf l.header).1 (parseMedia (get l.header "Content-Disposition".toList) []).1
      (decodeWord (firstNonEmpty [get (parseMedia (get l.header "Content-Disposition".toList) []).2 "filename".toList,
        get (mediaOf l.header).2 "name".toList])) opts with
  | false =>
    simp only [Bool.not_false, if_true, Bool.false_eq_true, if_false, Option.toList_none, List.append_nil]
  | true =>
    simp only [Bool.not_true, Bool.false_eq_true, if_false, if_true, Option.toList_some]

def Walks (opts : Options) (room : Nat) (t : MimeTree) : Prop :=
  ∀ res hdr r, Renders t hdr r →
    (Fits room res.partCount t → walkPart opts room res hdr r = (res.add opts t, none)) ∧
      (¬ Fits room res.partCount t → (walkPart opts room res hdr r).2 = some .truncated)

theorem walks_nothing (t : MimeTree) : Walks opts 0 t :=
  fun _ _ _ _ => ⟨fun fits => absurd fits.1 (Nat.not_lt_zero _), fun _ => rfl⟩

theorem walkPart_full (full : maxParts ≤ res.partCount) : (walkPart opts room res hdr r).2 = some .truncated := by
  cases room with
  | zero => rfl
  | succ room => rw [walkPart, if_pos full]

theorem walks_leaf (l : Leaf) : Walks opts room (.leaf l) := by
  cases room with
  | zero => exact walks_nothing _
  | succ room =>
    intro res hdr r renders
    by_cases full : maxParts ≤ res.partCount
    · exact ⟨fun fits => absurd fits (not_fits_full full), fun _ => walkPart_full full⟩
    · have fits : Fits (room + 1) res.partCount (.leaf l) := by
        refine ⟨Nat.zero_lt_succ room, ?_⟩
        by_cases last : res.partCount + 1 = maxParts
        · exact .inr ⟨rfl, last⟩
        · exact .inl (by simp only [Rose.size]; omega)
      refine ⟨fun _ => ?_, fun other => absurd fits other⟩
      have single : ¬ Multipart hdr := by
        simp only [Renders] at renders
        exact renders.2.1
      rw [walkPart, if_neg full]
      simp only [Multipart, mediaOf] at single
      simp only [single, if_false]
      refine (leaf_renders renders).trans ?_
      simp only [Result.add, attachments, Rose.leaves, Rose.size]
      cases here : attachment opts l <;> simp [here]

def FitAll (room count : Nat) (ts : List MimeTree) : Prop :=
  (∀ t ∈ ts, t.height < room) ∧ (count + Rose.sizes ts < maxParts ∨ ts = [])

theorem walkParts_renders (res : Result) (mediaType : Chars) {ts : List MimeTree} {ps : List RawPart}
    (each : ∀ t ∈ ts, Walks opts room t) (renders : RendersAll ts ps) (most : res.partCount ≤ maxParts) :
    (FitAll room res.partCount ts →
        walkParts (fun res p => walkPart opts room res p.header p.body) mediaType none res ps =
          (⟨res.partCount + Rose.sizes ts, res.parts ++ (Rose.leavesOf ts).filterMap (attachment opts)⟩, none)) ∧
      (¬ FitAll room res.partCount ts →
        (walkParts (fun res p => walkPart opts room res p.header p.body) mediaType none res ps).2 = some .truncated) := by
  induction ts generalizing res ps with
  | nil =>
    cases ps with
    | cons p ps => simp [RendersAll] at renders
    | nil =>
      refine ⟨fun _ => ?_, fun other => absurd ⟨by simp, .inr rfl⟩ other⟩
      simp [walkParts, Rose.sizes, Rose.leavesOf]
  | cons t ts ih =>
    cases ps with
    | nil => simp [RendersAll] at renders
    | cons p ps =>
      simp only [RendersAll] at renders
      obtain ⟨first, rest⟩ := renders
      obtain ⟨passes, stops⟩ := each t List.mem_cons_self res p.header p.body first
      by_cases fits : Fits room res.partCount t
      · have count : (res.add opts t).partCount = res.partCount + t.size := rfl
        simp only [walkParts, passes fits, Option.isSome_none, Bool.false_eq_true, if_false, count]
        by_cases full : maxParts ≤ res.partCount + t.size
        · rw [if_pos full]
          refine ⟨fun all => ?_, fun _ => rfl⟩
          have few := all.2
          simp only [Rose.sizes, reduceCtorEq, or_false] at few
          omega
        · rw [if_neg full]
          have later := ih (res.add opts t) (fun s member => each s (List.mem_cons_of_mem t member)) rest
            (by rw [count]; omega)
          have same : FitAll room res.partCount (t :: ts) ↔ FitAll room (res.add opts t).partCount ts := by
            simp only [FitAll, List.forall_mem_cons, fits.1, true_and, Rose.sizes, reduceCtorEq, or_false, count]
            refine and_congr_right fun _ => ?_
            constructor
            · intro few
              exact .inl (by omega)
            · rintro (few | rfl)
              · omega
              · simp only [Rose.sizes]
                omega
          rw [same]
          refine ⟨fun all => ?_, later.2⟩
          rw [later.1 all]
          simp only [Result.add, attachments, Rose.sizes, Rose.leavesOf, List.filterMap_append, List.append_assoc,
            Nat.add_assoc]
      · simp only [walkParts, stops fits, Option.isSome_some, if_true]
        refine ⟨fun all => absurd ⟨all.1 t List.mem_cons_self, ?_⟩ fits, fun _ => trivial⟩
        have few := all.2
        simp only [Rose.sizes, reduceCtorEq, or_false] at few
        exact .inl (by omega)

theorem walks_branch {label : Header} {parts : List MimeTree} (each : ∀ t ∈ parts, Walks opts room t) :
    Walks opts (room + 1) (.branch label parts) := by
  intro res hdr r renders
  by_cases full : maxParts ≤ res.partCount
  · exact ⟨fun fits => absurd fits (not_fits_full full), fun _ => walkPart_full full⟩
  · simp only [Renders] at renders
    obtain ⟨_, multi, bound, ending, all⟩ := renders
    have walked := walkParts_renders { res with partCount := res.partCount + 1 } (mediaOf hdr).1
      each all (by dsimp only; omega)
    have same : Fits (room + 1) res.partCount (.branch label parts) ↔ FitAll room (res.partCount + 1) parts := by
      simp only [Fits, FitAll, Rose.height, Rose.size, Nat.lt_succ_iff, Rose.levels_le, Nat.succ_le_iff]
      refine and_congr_right fun _ => ?_
      constructor
      · rintro (few | ⟨alone, _⟩)
        · exact .inl (by omega)
        · exact .inr (Rose.sizes_eq_zero.mp (by omega))
      · rintro (few | rfl)
        · exact .inl (by omega)
        · by_cases last : res.partCount + 1 = maxParts
          · exact .inr ⟨rfl, last⟩
          · exact .inl (by simp only [Rose.sizes]; omega)
    simp only [Multipart, boundaryOf, mediaOf] at multi bound ending walked
    rw [walkPart, if_neg full]
    simp only [multi, bound, ending, if_true, if_false]
    rw [same]
    refine ⟨fun fits => ?_, walked.2⟩
    rw [walked.1 fits]
    simp only [Result.add, attachments, Rose.size, Rose.leaves, Nat.add_assoc]

theorem walks (t : MimeTree) : Walks opts room t := by
  induction t using Rose.ind generalizing room with
  | leaf l => exact walks_leaf l
  | branch label parts ih =>
    cases room with
    | zero => exact walks_nothing _
    | succ room => exact walks_branch fun t member => ih t member

theorem walk_renders (opts : Options) {t : MimeTree} {message : Body} (renders : RendersMessage t message) :
    (t.height ≤ maxDepth ∧ t.size < maxParts → walk opts message = (⟨t.size, attachments opts t⟩, none)) ∧
      (¬ (t.height ≤ maxDepth ∧ t.size < maxParts) → (walk opts message).2 = some .truncated) := by
  obtain ⟨readable, renders⟩ := renders
  have whole : walk opts message = walkPart opts (maxDepth + 1) {} (Mime.readMIMEHeader message).header
      (Mime.readMIMEHeader message).rest := by
    simp only [walk]
    cases broken : (Mime.readMIMEHeader message).err with
    | none => rfl
    | some err => exact if_neg (readable.resolve_left (by simp [broken]))
  obtain ⟨passes, stops⟩ := (walks t : Walks opts (maxDepth + 1) t) {} _ _ renders
  have fits_iff : Fits (maxDepth + 1) 0 t ↔ t.height ≤ maxDepth ∧ t.size < maxParts := by
    simp only [Fits, Nat.lt_succ_iff, Nat.zero_add]
    refine and_congr_right fun _ => ?_
    constructor
    · rintro (few | ⟨_, one⟩)
      · exact few
      · exact absurd one (by decide)
    · exact Or.inl
  rw [whole, ← fits_iff]
  refine ⟨fun fits => ?_, stops⟩
  rw [passes fits]
  simp only [Result.add, Nat.zero_add, List.nil_append]

/-- A walk reports all of a message within the limits, and any other as cut short, unless it has just as
    many parts as are allowed. -/
theorem walk_complete_iff {t : MimeTree} {message : Body} (renders : RendersMessage t message) :
    Complete opts t (walk opts message) ↔ ¬ (t.size = maxParts ∧ t.height ≤ maxDepth) := by
  obtain ⟨passes, stops⟩ := walk_renders opts renders
  rw [Complete]
  by_cases fits : t.height ≤ maxDepth ∧ t.size < maxParts
  · rw [if_pos ⟨Nat.le_of_lt fits.2, fits.1⟩, passes fits]
    simp only [true_iff, not_and]
    intro exactly
    omega
  · have stopped := stops fits
    split
    · rename_i within
      have last : t.size = maxParts ∧ t.height ≤ maxDepth := by
        refine ⟨?_, within.2⟩
        by_contra other
        exact fits ⟨within.2, by omega⟩
      refine ⟨fun same => ?_, fun other => absurd last other⟩
      rw [same] at stopped
      cases stopped
    · rename_i outside
      refine ⟨fun _ => ?_, fun _ => stopped⟩
      rintro ⟨exactly, shallow⟩
      exact outside ⟨Nat.le_of_eq exactly, shallow⟩

end Walk

namespace Plain

scoped instance lowerCase : LowerCase := ⟨Char.toLower⟩
scoped instance caseFolding : CaseFolding := ⟨Char.toLower⟩

def field (line : Line) : Chars × Chars :=
  let text := line.map fun b => Char.ofNat b.toNat
  (text.takeWhile (· ≠ ':'), (text.dropWhile (· ≠ ':')).drop 2)

def rawPart (ls : List Line) : RawPart := ⟨(entity ls).fields.map field, ⟨(entity ls).body, none⟩⟩

scoped instance mime : Mime where
  readMIMEHeader r :=
    let head := entity (messageLines r.bytes)
    { header := head.fields.map field, rest := ⟨head.body, r.err⟩ }
  rawParts boundary r :=
    match Text.parts (ascii boundary) (messageLines r.bytes) with
    | some found => (found.map rawPart, none)
    | none => ([], some "unexpected EOF".toList)
  parseMediaType v :=
    if v = "multipart/mixed; boundary=b".toList then some ("multipart/mixed".toList, [("boundary".toList, "b".toList)])
    else if v = "attachment; filename=a.bin".toList then some ("attachment".toList, [("filename".toList, "a.bin".toList)])
    else none
  decodeHeader := some
  base64 _ := .error "illegal base64 data".toList
  quotedPrintable r := r.readAll
  md5 content := if content = ascii "hello".toList then "5d41402abc4b2a76b9719d911017c592".toList else []

def mixed : Header := [("Content-Type".toList, "multipart/mixed; boundary=b".toList)]

def letter : Leaf := ⟨[], ascii "x".toList⟩

def flatTree (n : Nat) : MimeTree := .branch mixed (List.replicate n (.leaf letter))

def flatParts : Nat → List Line
  | 0 => [ascii "--b--".toList, []]
  | n + 1 => ascii "--b".toList :: [] :: ascii "x".toList :: flatParts n

def flatLines (n : Nat) : List Line := ascii "Content-Type: multipart/mixed; boundary=b".toList :: [] :: flatParts n

def flatMessage (n : Nat) : Body := ⟨joinLines (flatLines n), none⟩

theorem flatParts_plain (n : Nat) : ∀ line ∈ flatParts n, LF ∉ line := by
  induction n with
  | zero => decide
  | succ n ih =>
    intro line member
    simp only [flatParts, List.mem_cons] at member
    rcases member with rfl | rfl | rfl | member
    · decide
    · decide
    · decide
    · exact ih line member

theorem flatParts_ne_nil (n : Nat) : flatParts n ≠ [] := by
  cases n <;> simp [flatParts]

theorem partsFrom_flat (n : Nat) :
    partsFrom (ascii "b".toList) ([] :: ascii "x".toList :: flatParts n) =
      some (List.replicate (n + 1) [[], ascii "x".toList]) := by
  have quiet : ∀ line ∈ [[], ascii "x".toList], ¬ Delimits (ascii "b".toList) line := by decide
  induction n with
  | zero =>
    have closes : Closes (ascii "b".toList) (ascii "--b--".toList) := by decide
    exact partsFrom_last quiet closes [[]]
  | succ n ih =>
    have begins : Delimits (ascii "b".toList) (ascii "--b".toList) := by decide
    have first := partsFrom_part quiet begins (by decide) ([] :: ascii "x".toList :: flatParts n)
    rw [ih] at first
    exact first

theorem parts_flat (n : Nat) :
    Text.parts (ascii "b".toList) (flatParts n) = some (List.replicate n [[], ascii "x".toList]) := by
  cases n with
  | zero => decide
  | succ n => exact partsFrom_flat n

theorem rendersAll_flat (n : Nat) :
    RendersAll (List.replicate n (.leaf letter)) ((List.replicate n [[], ascii "x".toList]).map rawPart) := by
  induction n with
  | zero => trivial
  | succ n ih =>
    refine ⟨⟨by decide, by decide, by decide, by decide⟩, ih⟩

theorem flat_renders (n : Nat) : RendersMessage (flatTree n) (flatMessage n) := by
  have plain : ∀ line ∈ flatLines n, LF ∉ line := by
    intro line member
    simp only [flatLines, List.mem_cons] at member
    rcases member with rfl | rfl | member
    · decide
    · decide
    · exact flatParts_plain n line member
  have fields : [ascii "Content-Type: multipart/mixed; boundary=b".toList].map field = mixed := by decide
  have head : Mime.readMIMEHeader (flatMessage n) = ⟨mixed, none, ⟨joinLines (flatParts n), none⟩⟩ := by
    have block : entity (flatLines n) =
        ⟨[ascii "Content-Type: multipart/mixed; boundary=b".toList], joinLines (flatParts n)⟩ :=
      entity_partLines (by decide) (flatParts n)
    simp only [Mime.readMIMEHeader, flatMessage, messageLines_joinLines plain (List.cons_ne_nil _ _), block, fields]
  have boundary : boundaryOf mixed = "b".toList := by decide
  have split : Mime.rawParts (boundaryOf mixed) ⟨joinLines (flatParts n), none⟩ =
      ((List.replicate n [[], ascii "x".toList]).map rawPart, none) := by
    simp only [boundary, Mime.rawParts, messageLines_joinLines (flatParts_plain n) (flatParts_ne_nil n), parts_flat]
  simp only [RendersMessage, head, flatTree, Renders, split]
  exact ⟨.inl trivial, trivial, by decide, by decide, trivial, rendersAll_flat n⟩

theorem size_flat (n : Nat) : (flatTree n).size = n + 1 := by
  have parts : Rose.sizes (List.replicate n (.leaf letter : MimeTree)) = n := by
    induction n with
    | zero => rfl
    | succ n ih =>
      rw [List.replicate_succ, Rose.sizes, ih, Rose.size]
      omega
  rw [flatTree, Rose.size, parts]
  omega

theorem height_flat (n : Nat) : (flatTree n).height ≤ 1 := by
  simp only [flatTree, Rose.height, Rose.levels_le]
  intro t member
  rw [List.eq_of_mem_replicate member]
  exact Nat.one_pos

/-- A message with just as many parts as are allowed is walked to its end, and called cut short. -/
theorem flat_truncated {opts : Options} {n : Nat} (full : n + 1 = maxParts) :
    ¬ Complete opts (flatTree n) (walk opts (flatMessage n)) := by
  intro complete
  have within : (flatTree n).size ≤ maxParts ∧ (flatTree n).height ≤ maxDepth := by
    refine ⟨?_, (height_flat n).trans (by decide)⟩
    rw [size_flat]
    exact Nat.le_of_eq full
  have stopped : (walk opts (flatMessage n)).2 = some .truncated := by
    apply (walk_renders opts (flat_renders n)).2
    intro ⟨_, few⟩
    rw [size_flat] at few
    omega
  rw [Complete, if_pos within] at complete
  rw [complete] at stopped
  cases stopped

theorem full_walk_truncated :
    RendersMessage (flatTree 499) (flatMessage 499) ∧
      ¬ Complete ⟨false⟩ (flatTree 499) (walk ⟨false⟩ (flatMessage 499)) :=
  ⟨flat_renders 499, flat_truncated (by decide)⟩

def file : Leaf := ⟨[("Content-Disposition".toList, "attachment; filename=a.bin".toList)], ascii "hello".toList⟩

def sample : Body :=
  ⟨joinLines (["Content-Type: multipart/mixed; boundary=b", "", "--b", "", "x", "--b",
    "Content-Disposition: attachment; filename=a.bin", "", "hello", "--b--", ""].map fun line => ascii line.toList), none⟩

def sampleTree : MimeTree := .branch mixed [.leaf letter, .leaf file]

example : walk ⟨false⟩ sample =
    (⟨3, [⟨"a.bin".toList, "text/plain".toList, "5d41402abc4b2a76b9719d911017c592".toList, "attachment".toList, 5⟩]⟩, none) := by
  decide +kernel

theorem sample_renders : RendersMessage sampleTree sample := by
  have head : Mime.readMIMEHeader sample = ⟨mixed, none, ⟨sample.bytes.drop 45, none⟩⟩ := by decide
  have split : Mime.rawParts (boundaryOf mixed) ⟨sample.bytes.drop 45, none⟩ =
      ([⟨letter.header, ⟨letter.content, none⟩⟩, ⟨file.header, ⟨file.content, none⟩⟩], none) := by decide
  simp only [RendersMessage, head, sampleTree, Renders, RendersAll, split]
  decide

theorem walk_complete_iff_sample : Complete ⟨false⟩ sampleTree (walk ⟨false⟩ sample) :=
  (walk_complete_iff sample_renders).mpr (by decide)

end Plain

end Mailgw.Attach
