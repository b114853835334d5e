import Mailgw.Calls.Program

namespace Mailgw.Deliver

abbrev Chars := List Char

abbrev Bytes := List UInt8

structure Break where
  err : Chars
  unread : Bytes
  deriving Repr, DecidableEq

/-- What reading yields, piece by piece, until the end or until an error. -/
structure Reader where
  chunks : List Bytes
  broken : Option Break := none
  deriving Repr, DecidableEq

namespace Reader

def readable (r : Reader) : Bytes := r.chunks.flatten

def content (r : Reader) : Bytes := r.readable ++ r.broken.elim [] Break.unread

def Sound (r : Reader) : Prop := r.broken = none

instance (r : Reader) : Decidable r.Sound := inferInstanceAs (Decidable (_ = none))

def ofBytes (bytes : Bytes) : Reader := ⟨[bytes], none⟩

def multi (first second : Reader) : Reader :=
  match first.broken with
  | none => ⟨first.chunks ++ second.chunks, second.broken⟩
  | some cut => ⟨first.chunks, some { cut with unread := cut.unread ++ second.content }⟩

@[simp] theorem content_ofBytes (bytes : Bytes) : (ofBytes bytes).content = bytes := by
  simp [ofBytes, content, readable]

theorem Sound.content_eq {r : Reader} (sound : r.Sound) : r.content = r.readable := by
  simp only [Sound] at sound
  simp [content, sound]

@[simp] theorem content_multi (first second : Reader) :
    (first.multi second).content = first.content ++ second.content := by
  cases cut : first.broken with
  | none => simp [multi, content, readable, cut]
  | some stop => simp [multi, content, readable, cut]

@[simp] theorem sound_multi {first second : Reader} : (first.multi second).Sound ↔ first.Sound ∧ second.Sound := by
  cases cut : first.broken with
  | none => simp [multi, Sound, cut]
  | some stop => simp [multi, Sound, cut]

end Reader

def encode (s : Chars) : Bytes := s.flatMap String.utf8EncodeChar

/-- What a delivery attempt hands to the relay: the signature and the added headers, when there
    are any, in front of the spooled body. -/
def messageBody (signature prepend : Chars) (file : Reader) : Reader :=
  let head := signature ++ prepend
  if head = [] then file else (Reader.ofBytes (encode head)).multi file

theorem sound_messageBody {signature prepend : Chars} {file : Reader} :
    (messageBody signature prepend file).Sound ↔ file.Sound := by
  simp only [messageBody]
  split
  · exact Iff.rfl
  · simp only [Reader.sound_multi, and_iff_right_iff_imp]
    exact fun _ => rfl

end Mailgw.Deliver
