import Mailgw.Config.Bundle

namespace Mailgw.Config

open GoJson Json

section Form

theorem isMap_replace (v : Raw) (p : Place) (s : Literal) : isMap (v.replace s p) = isMap v := by
  cases p <;> cases v <;> rfl

theorem isMaps_replace (v : Raw) (p : Place) (s : Literal) : isMaps (v.replace s p) = isMaps v := by
  cases v with
  | arr vs =>
    cases p with
    | nil => rfl
    | cons i p => exact all_modify (fun w => isMap_replace w p s) i
  | null => cases p <;> rfl
  | bool b => cases p <;> rfl
  | num text => cases p <;> rfl
  | str t => cases p <;> rfl
  | obj ms => cases p <;> rfl

theorem isGroups_replace (v : Raw) (p : Place) (s : Literal) : isGroups (v.replace s p) = isGroups v := by
  cases v with
  | obj ms =>
    cases p with
    | nil => rfl
    | cons i p => exact all_modify (fun m => isMaps_replace m.2 p s) i
  | null => cases p <;> rfl
  | bool b => cases p <;> rfl
  | num text => cases p <;> rfl
  | str t => cases p <;> rfl
  | arr vs => cases p <;> rfl

theorem hasUsers_replace (v : Raw) (p : Place) (s : Literal) : hasUsers (v.replace s p) = hasUsers v := by
  cases v with
  | obj ms =>
    cases p with
    | nil => rfl
    | cons i p =>
      cases here : ms[i]? with
      | none => simp only [Raw.replace, modify_none here]
      | some m =>
        simp only [Raw.replace, hasUsers, modify_at here, valueOf_append]
        conv_rhs => rw [split_at here, valueOf_append]
        cases valueOf (ms.drop (i + 1)) "users".toList with
        | some w => rfl
        | none =>
          rw [Option.none_or, Option.none_or]
          split
          · exact isMaps_replace m.2 p s
          · rfl
  | null => cases p <;> rfl
  | bool b => cases p <;> rfl
  | num text => cases p <;> rfl
  | str t => cases p <;> rfl
  | arr vs => cases p <;> rfl

theorem hasField_replace (field : String) (v : Raw) (p : Place) (s : Literal) : hasField field (v.replace s p) = hasField field v := by
  cases v with
  | obj ms =>
    cases p with
    | nil => rfl
    | cons i p => simp only [Raw.replace, hasField, keysOf_modify]
  | null => cases p <;> rfl
  | bool b => cases p <;> rfl
  | num text => cases p <;> rfl
  | str t => cases p <;> rfl
  | arr vs => cases p <;> rfl

end Form

section Covering

def InMaps (field : String) : Raw → Place → Prop := InArr (InObj fun k _ _ => if k = field.toList then True else False)

def InRelays (v : Raw) (p : Place) : Prop := isGroups v = true ∧ InObj (fun _ members p => InMaps "auth_pass" members p) v p

def InAuth (v : Raw) (p : Place) : Prop :=
  hasUsers v = true ∧ InObj (fun k w p => if k = "users".toList then InMaps "hash" w p else False) v p

def InField (field : String) (v : Raw) (p : Place) : Prop :=
  hasField field v = true ∧ InObj (fun k _ _ => if k = field.toList then True else False) v p

/-- A place that the redaction covers: it stands under the very keys that are redacted, or a later member with the same key
    takes its place where a map is written anew. -/
def Covered (doc : Raw) (p : Place) : Prop :=
  InObj (fun k v p =>
    if k = "relays".toList then InRelays v p
    else if k = "auth".toList then InAuth v p
    else if k = "logging".toList then InField "api_key" v p
    else if k = "admin".toList then InField "metrics_token" v p
    else False) doc p

theorem judges_redactMaps (field : String) : Judges (redactMaps field) (InMaps field) :=
  Judges.mapArr (Judges.mapObj fun _ => (judges_erase redacted).ite judges_keep)

theorem judges_redactRelays : Judges redactRelays InRelays :=
  (Judges.mapObj fun _ => judges_redactMaps "auth_pass").when isGroups_replace

theorem judges_redactAuth : Judges redactAuth InAuth :=
  (Judges.mapObj fun _ => (judges_redactMaps "hash").ite judges_keep).when hasUsers_replace

theorem judges_redactField (field : String) : Judges (redactField field) (InField field) :=
  (Judges.mapObj fun _ => (judges_erase redacted).ite judges_keep).when (hasField_replace field)

theorem judges_redactDocument : Judges redactDocument Covered :=
  Judges.mapObj fun _ => judges_redactRelays.ite (judges_redactAuth.ite
    ((judges_redactField "api_key").ite ((judges_redactField "metrics_token").ite judges_keep)))

end Covering

section Leaks
variable {doc : Raw} {raw raw' : Bytes} {p : Place} {changes : List (Place × Literal)}

theorem isMap_of_decodeBundle {b : Bundle} (decoded : decodeBundle doc = some b) : isMap doc = true := by
  obtain ⟨decoded, -⟩ := Option.filter_eq_some_iff.mp decoded
  cases doc with
  | null => rfl
  | obj ms => rfl
  | bool b => cases decoded
  | num text => cases decoded
  | str s => cases decoded
  | arr vs => cases decoded

theorem redactDocument_changed (covered : ∀ c ∈ changes, Covered doc c.1) :
    redactDocument (changed changes doc) = redactDocument doc := by
  induction changes generalizing doc with
  | nil => rfl
  | cons c changes ih =>
    obtain ⟨here, rest⟩ := List.forall_mem_cons.mp covered
    have later : ∀ d ∈ changes, Covered (doc.replace c.2 c.1) d.1 := fun d member =>
      (judges_redactDocument.stable doc c.1 c.2 d.1).mpr (rest d member)
    rw [changed, List.foldl_cons, ← changed, ih later]
    exact judges_redactDocument.hides doc c.1 c.2 here

theorem isMap_changed : isMap (changed changes doc) = isMap doc := by
  induction changes generalizing doc with
  | nil => rfl
  | cons c changes ih =>
    rw [changed, List.foldl_cons, ← changed, ih, isMap_replace]

/-- What is printed of a bundle does not tell its secrets if and only if every string that is used as a secret is covered. -/
theorem redactBundle_leaks_nothing_iff (raw : Bytes) :
    (∀ raw', DifferInSecrets raw raw' → redactBundle raw' = redactBundle raw) ↔
      ∀ doc, readDocument raw = some doc → ∀ p, Secret doc p → Covered doc p := by
  constructor
  · intro same doc read p secret
    by_contra open_
    obtain ⟨s, other⟩ := (judges_redactDocument.shows doc p secret.stands open_ 0).other (indented 0 (redactDocument doc))
    obtain ⟨b, b', decoded, decoded', -⟩ := secret.free s
    have read' : readDocument (compact (doc.replace s p)) = some (doc.replace s p) :=
      readDocument_compact (by rw [depth_replace]; exact depth_of_readDocument read)
    have accepted : parseBundle raw = some b := by rw [parseBundle, read, Option.bind_some, decoded]
    have accepted' : parseBundle (compact (doc.replace s p)) = some b' := by rw [parseBundle, read', Option.bind_some, decoded']
    have printed := same (compact (doc.replace s p)) ⟨doc, [(p, s)], read, read', by rw [accepted]; rfl, by rw [accepted']; rfl,
      by simpa using secret⟩
    rw [redactBundle, redactBundle, read, read', Option.bind_some, Option.bind_some, if_pos (isMap_of_decodeBundle decoded),
      if_pos (isMap_of_decodeBundle decoded')] at printed
    exact other (Option.some.inj printed)
  · rintro covered raw' ⟨doc, changes, read, read', -, -, secrets⟩
    have same : redactDocument (changed changes doc) = redactDocument doc :=
      redactDocument_changed fun c member => covered doc read c.1 (secrets c member)
    rw [redactBundle, redactBundle, read, read', Option.bind_some, Option.bind_some, isMap_changed, same]

end Leaks

section Sample

example : redactBundle (ascii "\x7b \"logging\":\x7b\"api_key\" : \"k\", \"url_conn\":\"a<b\"\x7d, \"relays\":[1]\x7d") =
    some (ascii "\x7b\n  \"logging\": \x7b\n    \"api_key\": \"[redacted]\",\n    \"url_conn\": \"a\\u003cb\"\n  \x7d,\n  \"relays\": [\n    1\n  ]\n\x7d") := by
  decide +kernel

theorem isBody_one (b : UInt8) (plain : b ≠ backslash ∧ b ≠ quoteByte ∧ 0x20 ≤ b) : isBody [b] = true :=
  isBody_plain (List.forall_mem_singleton.mpr plain)

theorem isSome_one : (Numbers.Decimal.read ([0x31].map byteChar)).isSome = true := by decide

def oneText : NumberText := ⟨[0x31], isSome_one⟩

def sampleBundle (secret : Literal) : Raw :=
  .obj [(keyLiteral "format".toList, .num oneText),
    (keyLiteral "logging".toList, .obj [(keyLiteral "API_KEY".toList, .str secret)])]

theorem decodeBundle_sample (secret : Literal) :
    decodeBundle (sampleBundle secret) = some { format := 1, logging := { apiKey := chars secret.units } } := by
  obtain ⟨name, format⟩ : ∃ name, fieldOf bundleFields (keyLiteral "format".toList).units =
      some ⟨name, fun t b => (intInto t b.format).map fun n => { b with format := n }⟩ :=
    ⟨_, (fieldOf_of_name (i := 0) (by decide +kernel)).trans rfl⟩
  obtain ⟨name', logging⟩ : ∃ name, fieldOf bundleFields (keyLiteral "logging".toList).units =
      some ⟨name, fun t b => (structInto loggingFields t b.logging).map fun l => { b with logging := l }⟩ :=
    ⟨_, (fieldOf_of_name (i := 5) (by decide +kernel)).trans rfl⟩
  obtain ⟨name'', apiKey⟩ : ∃ name, fieldOf loggingFields (keyLiteral "API_KEY".toList).units =
      some ⟨name, fun t l => (stringInto t l.apiKey).map fun s => { l with apiKey := s }⟩ :=
    ⟨_, (fieldOf_of_name (i := 3) (by decide +kernel)).trans rfl⟩
  have number : Text.parseInt64 (oneText.val.map byteChar) = some 1 := by decide +kernel
  simp only [decodeBundle, sampleBundle, Raw.tree, treeMembers, structInto, decodeMembers, format, logging, apiKey, intInto, stringInto,
    number, Option.map_some, Option.bind_some]
  rfl

def secretOf (b : UInt8) (plain : b ≠ backslash ∧ b ≠ quoteByte ∧ 0x20 ≤ b) : Literal := ⟨[b], isBody_one b plain⟩

def secretA : Literal := secretOf 0x61 (by decide)

def secretB : Literal := secretOf 0x62 (by decide)

theorem sample_secret : Secret (sampleBundle secretA) [1, 0] where
  stands := rfl
  free s := ⟨_, _, decodeBundle_sample secretA, decodeBundle_sample s, rfl⟩
  used := by
    refine ⟨secretB, fun same => ?_⟩
    have decoded : decodeBundle ((sampleBundle secretA).replace secretB [1, 0]) = _ := decodeBundle_sample secretB
    rw [decoded, decodeBundle_sample] at same
    have keys := congrArg Secrets.apiKey (Option.some.inj same)
    exact absurd keys (by decide)

/-- The key of the log service is printed when its name is in capital letters. -/
theorem capital_key_printed : ¬ ∀ raw raw', DifferInSecrets raw raw' → redactBundle raw' = redactBundle raw := by
  intro same
  have read (s : Literal) : readDocument (compact (sampleBundle s)) = some (sampleBundle s) :=
    readDocument_compact (show 2 ≤ maxNestingDepth by decide)
  have accepted (s : Literal) : (parseBundle (compact (sampleBundle s))).isSome = true := by
    rw [parseBundle, read, Option.bind_some, decodeBundle_sample]
    rfl
  have printed := same (compact (sampleBundle secretA)) (compact (sampleBundle secretB))
    ⟨sampleBundle secretA, [([1, 0], secretB)], read secretA, read secretB, accepted secretA, accepted secretB,
      List.forall_mem_singleton.mpr sample_secret⟩
  exact absurd printed (by decide +kernel)

end Sample

end Mailgw.Config
