import Mailgw.Text.Transcode

namespace Mailgw.Central

open Text

abbrev Block (n : Nat) := {bytes : List UInt8 // bytes.length = n}

def ivBytes : Nat := 12
def tagBytes : Nat := 16
def keyBytes : Nat := 32

abbrev Key := Block keyBytes

/-- AES-256-GCM: a ciphertext with its tag, and the plaintext of a ciphertext whose tag is right. -/
class Gcm where
  encipher : Key → Block ivBytes → List UInt8 → List UInt8 × Block tagBytes
  decipher : Key → Block ivBytes → Block tagBytes → List UInt8 → Option (List UInt8)

def Gcm.Opens [Gcm] : Prop :=
  ∀ k iv plain, decipher k iv (encipher k iv plain).2 (encipher k iv plain).1 = some plain

inductive SecretError where
  | noKey
  | truncated
  | mismatch
  deriving Repr, DecidableEq

def secretPrefix : List Char := "v1:".toList

/-- The value to store. Without a key it is the plaintext. -/
def encrypt [Gcm] (key : Option Key) (iv : Block ivBytes) (plain : List Char) : List Char :=
  if plain = [] then []
  else
    match key with
    | none => plain
    | some k =>
      let sealed := Gcm.encipher k iv (utf8 plain)
      secretPrefix ++ toBase64 (iv.val ++ sealed.1 ++ sealed.2.val)

theorem length_iv {raw : List UInt8} (long : ¬ raw.length < ivBytes + tagBytes) : (raw.take ivBytes).length = ivBytes := by
  rw [List.length_take]
  omega

theorem length_tag {raw : List UInt8} (long : ¬ raw.length < ivBytes + tagBytes) :
    (raw.drop (raw.length - tagBytes)).length = tagBytes := by
  rw [List.length_drop]
  omega

/-- A value with no prefix is returned unchanged. One that will not decrypt is an error. -/
def decrypt [Gcm] (key : Option Key) (stored : List Char) : Except SecretError (List Char) :=
  if stored = [] then .ok []
  else if ¬ secretPrefix <+: stored then .ok stored
  else
    match key with
    | none => .error .noKey
    | some k =>
      let raw := fromBase64 (stored.drop secretPrefix.length)
      if long : raw.length < ivBytes + tagBytes then .error .truncated
      else
        let iv : Block ivBytes := ⟨raw.take ivBytes, length_iv long⟩
        let tag : Block tagBytes := ⟨raw.drop (raw.length - tagBytes), length_tag long⟩
        match Gcm.decipher k iv tag ((raw.drop ivBytes).take (raw.length - tagBytes - ivBytes)) with
        | none => .error .mismatch
        | some plain => .ok (fromUtf8 plain)

def isEncrypted (stored : List Char) : Bool := secretPrefix.isPrefixOf stored

structure KeyHistory where
  introduced : Nat
  key : Key

def KeyHistory.keyAt (h : KeyHistory) (time : Nat) : Option Key := if time < h.introduced then none else some h.key

/-- A value stored at a time is read back whenever it is read later, and is no ciphertext if it was stored as it was. -/
structure Survives [Gcm] (h : KeyHistory) (plain : List Char) (stored : Nat) : Prop where
  back : ∀ iv later, stored ≤ later → decrypt (h.keyAt later) (encrypt (h.keyAt stored) iv plain) = .ok plain
  told : h.keyAt stored = none → ∀ iv, isEncrypted (encrypt (h.keyAt stored) iv plain) = false

theorem isEncrypted_iff (stored : List Char) : isEncrypted stored = true ↔ secretPrefix <+: stored :=
  List.isPrefixOf_iff_prefix

theorem KeyHistory.keyAt_before {h : KeyHistory} {stored : Nat} (early : stored < h.introduced) : h.keyAt stored = none := if_pos early

theorem KeyHistory.keyAt_after {h : KeyHistory} {stored : Nat} (late : h.introduced ≤ stored) : h.keyAt stored = some h.key := if_neg (Nat.not_lt.mpr late)

section Secrets
variable [Gcm] {key : Option Key} {k : Key} {iv : Block ivBytes} {plain : List Char} {h : KeyHistory} {stored : Nat}

theorem encrypt_none (iv : Block ivBytes) (plain : List Char) : encrypt none iv plain = plain := by
  rw [encrypt]
  split
  · rename_i empty
    exact empty.symm
  · rfl

theorem decrypt_plain (key : Option Key) (other : ¬ secretPrefix <+: plain) : decrypt key plain = .ok plain := by
  rw [decrypt.eq_def]
  split
  · rename_i empty
    rw [empty]
  · rfl

theorem decrypt_without_key (marked : secretPrefix <+: plain) : decrypt none plain = .error .noKey := by
  have some : plain ≠ [] := by
    rintro rfl
    exact absurd (List.prefix_nil.mp marked) (by decide)
  rw [decrypt.eq_def, if_neg some, if_neg (not_not.mpr marked)]

theorem decrypt_encrypt (opens : Gcm.Opens) (k : Key) (iv : Block ivBytes) (plain : List Char) :
    decrypt (some k) (encrypt (some k) iv plain) = .ok plain := by
  by_cases empty : plain = []
  · rw [encrypt, if_pos empty, decrypt.eq_def, if_pos rfl, empty]
  · rw [encrypt, if_neg empty]
    dsimp only
    generalize encrypted : Gcm.encipher k iv (utf8 plain) = sealed
    obtain ⟨ct, tag⟩ := sealed
    have raw : fromBase64 ((secretPrefix ++ toBase64 (iv.val ++ ct ++ tag.val)).drop secretPrefix.length) =
        iv.val ++ ct ++ tag.val := by
      rw [List.drop_left, fromBase64_toBase64]
    have lengths : (iv.val ++ ct ++ tag.val).length = ivBytes + ct.length + tagBytes := by
      rw [List.length_append, List.length_append, iv.property, tag.property]
    have some' : secretPrefix ++ toBase64 (iv.val ++ ct ++ tag.val) ≠ [] := by simp [secretPrefix]
    have first : (iv.val ++ ct ++ tag.val).take ivBytes = iv.val := by
      rw [List.append_assoc]
      exact List.take_left' iv.property
    have last : (iv.val ++ ct ++ tag.val).drop (ivBytes + ct.length + tagBytes - tagBytes) = tag.val := by
      rw [Nat.add_sub_cancel]
      exact List.drop_left' (by rw [List.length_append, iv.property])
    have middle : ((iv.val ++ ct ++ tag.val).drop ivBytes).take (ivBytes + ct.length + tagBytes - tagBytes - ivBytes) = ct := by
      rw [List.append_assoc, List.drop_left' iv.property, Nat.add_sub_cancel, Nat.add_sub_cancel_left, List.take_left]
    rw [decrypt, if_neg some', if_neg (not_not.mpr (List.prefix_append _ _))]
    simp only [raw, lengths, first, last, middle]
    rw [dif_neg (by omega)]
    have opened := opens k iv (utf8 plain)
    rw [encrypted] at opened
    rw [opened]
    simp only [fromUtf8_utf8]

/-- A stored value survives the introduction of a key if it is stored under the key or does not look like ciphertext. -/
theorem survives_iff (opens : Gcm.Opens) (h : KeyHistory) (plain : List Char) (stored : Nat) :
    Survives h plain stored ↔ (stored < h.introduced → ¬ secretPrefix <+: plain) := by
  constructor
  · intro survives early marked
    have read := survives.back ⟨List.replicate ivBytes 0, List.length_replicate⟩ stored (Nat.le_refl stored)
    rw [KeyHistory.keyAt_before early, encrypt_none, decrypt_without_key marked] at read
    cases read
  · intro apart
    by_cases early : stored < h.introduced
    · have other := apart early
      have same := KeyHistory.keyAt_before early
      refine ⟨fun iv later _ => ?_, fun _ iv => ?_⟩
      · rw [same, encrypt_none]
        exact decrypt_plain _ other
      · rw [same, encrypt_none, ← Bool.not_eq_true, isEncrypted_iff]
        exact other
    · have late := Nat.not_lt.mp early
      refine ⟨fun iv later after => ?_, fun missing => ?_⟩
      · rw [KeyHistory.keyAt_after late, KeyHistory.keyAt_after (Nat.le_trans late after)]
        exact decrypt_encrypt opens h.key iv plain
      · rw [KeyHistory.keyAt_after late] at missing
        cases missing

end Secrets

section Samples

def maskOf (k : Key) (iv : Block ivBytes) : UInt8 := (k.val ++ iv.val).foldl (fun sum b => sum + b) 90

def checksum (plain : List UInt8) : Block tagBytes :=
  ⟨List.replicate tagBytes (plain.foldl (fun sum b => sum + b) 0), List.length_replicate⟩

local instance maskGcm : Gcm where
  encipher k iv plain := (plain.map fun b => b ^^^ maskOf k iv, checksum plain)
  decipher k iv tag ct :=
    if checksum (ct.map fun b => b ^^^ maskOf k iv) = tag then some (ct.map fun b => b ^^^ maskOf k iv) else none

theorem maskGcm_opens : Gcm.Opens := by
  intro k iv plain
  have back : (plain.map fun b => b ^^^ maskOf k iv).map (fun b => b ^^^ maskOf k iv) = plain := by
    rw [List.map_map]
    apply (List.map_congr_left _).trans (List.map_id plain)
    intro b _
    rw [Function.comp_apply, UInt8.xor_assoc, UInt8.xor_self, UInt8.xor_zero, id]
  show (if checksum ((plain.map fun b => b ^^^ maskOf k iv).map fun b => b ^^^ maskOf k iv) = checksum plain
    then some ((plain.map fun b => b ^^^ maskOf k iv).map fun b => b ^^^ maskOf k iv) else none) = some plain
  rw [back, if_pos rfl]

def lateKey : KeyHistory := ⟨1, ⟨List.replicate keyBytes 0, List.length_replicate⟩⟩

def zeroIv : Block ivBytes := ⟨List.replicate ivBytes 0, List.length_replicate⟩

/-- A password from before the key is kept as it is, and one from after it as ciphertext, whatever it begins with. -/
theorem survives_iff_sample : Survives lateKey "hunter2".toList 0 ∧
    encrypt (lateKey.keyAt 1) zeroIv "v1:summer".toList = "v1:AAAAAAAAAAAAAAAALGtgKS83Nz8oenp6enp6enp6enp6enp6eg==".toList ∧
    decrypt (lateKey.keyAt 2) (encrypt (lateKey.keyAt 1) zeroIv "v1:summer".toList) = .ok "v1:summer".toList := by
  refine ⟨(survives_iff maskGcm_opens lateKey "hunter2".toList 0).mpr fun _ => by decide, by decide +kernel, ?_⟩
  have late : Survives lateKey "v1:summer".toList 1 :=
    (survives_iff maskGcm_opens lateKey "v1:summer".toList 1).mpr fun early => absurd early (by decide)
  exact late.back zeroIv 2 (by decide)

/-- A password that begins like ciphertext cannot be read back. -/
theorem lookalike_lost : ¬ Survives lateKey "v1:summer".toList 0 := by
  intro survives
  have read := survives.back zeroIv 0 (Nat.le_refl 0)
  rw [KeyHistory.keyAt_before Nat.one_pos, encrypt_none, decrypt_without_key (by decide)] at read
  cases read

end Samples

end Mailgw.Central
