import Mailgw.GoJson.Raw

namespace GoJson

open Json Numbers

section Literals
variable {body rest : Bytes} {b e : UInt8}

theorem splitQuote_end (rest : Bytes) : splitQuote (quoteByte :: rest) = some ([], rest) := by
  rw [splitQuote.eq_def]
  dsimp only
  rw [if_pos rfl]

theorem splitQuote_plain (quote : b ≠ quoteByte) (plain : b ≠ backslash) (rest : Bytes) :
    splitQuote (b :: rest) = (splitQuote rest).map fun (body, left) => (b :: body, left) := by
  rw [splitQuote.eq_def]
  dsimp only
  rw [if_neg quote, if_neg plain]

theorem splitQuote_escape (e : UInt8) (rest : Bytes) :
    splitQuote (backslash :: e :: rest) = (splitQuote rest).map fun (body, left) => (backslash :: e :: body, left) := by
  rw [splitQuote.eq_def]
  dsimp only
  rw [if_neg (by decide), if_pos rfl]

theorem ne_of_isHex (hex : isHex b = true) : b ≠ quoteByte ∧ b ≠ backslash := by
  constructor
  · rintro rfl
    exact absurd hex (by decide)
  · rintro rfl
    exact absurd hex (by decide)

theorem splitQuote_hex (hex : isHex b = true) (rest : Bytes) :
    splitQuote (b :: rest) = (splitQuote rest).map fun (body, left) => (b :: body, left) :=
  splitQuote_plain (ne_of_isHex hex).1 (ne_of_isHex hex).2 rest

theorem splitQuote_body (valid : isBody body = true) (rest : Bytes) :
    splitQuote (body ++ quoteByte :: rest) = some (body, rest) := by
  induction body using isBody.induct with
  | case1 => exact splitQuote_end rest
  | case2 h i j k body ih =>
    rw [isBody, if_pos rfl] at valid
    simp only [Bool.and_eq_true] at valid
    obtain ⟨⟨⟨⟨h', i'⟩, j'⟩, k'⟩, valid⟩ := valid
    simp only [List.cons_append]
    rw [splitQuote_escape, splitQuote_hex h', splitQuote_hex i', splitQuote_hex j', splitQuote_hex k', ih valid]
    rfl
  | case3 e body other ih =>
    rw [isBody.eq_def] at valid
    dsimp only at valid
    rw [if_pos rfl] at valid
    split at valid
    · rename_i h i j k body same
      obtain ⟨same, same'⟩ := List.cons.inj same
      exact absurd same' (other h i j k body same)
    · rename_i same
      obtain ⟨rfl, rfl⟩ := List.cons.inj same
      have valid := (Bool.and_eq_true_iff.mp valid).2
      simp only [List.cons_append]
      rw [splitQuote_escape, ih valid]
      rfl
    · rename_i empty
      cases empty
  | case4 => cases valid
  | case5 b body other ih =>
    rw [isBody.eq_def] at valid
    dsimp only at valid
    rw [if_neg other] at valid
    simp only [Bool.and_eq_true, decide_eq_true_eq] at valid
    rw [List.cons_append, splitQuote_plain valid.1.1 other, ih valid.2]
    rfl

theorem readLiteral_append (s : Literal) (rest : Bytes) : readLiteral (s.val ++ quoteByte :: rest) = some (s, rest) := by
  rw [readLiteral, splitQuote_body s.property, Option.bind_some]
  dsimp only
  rw [dif_pos s.property]

end Literals

section Numerals

def StopsNumber (rest : Bytes) : Prop := ∀ b ∈ rest.head?, isNumberByte b = false

theorem NumberText.numeric (text : NumberText) : text.val ≠ [] ∧ ∀ b ∈ text.val, isNumberByte b = true := by
  have numeric := read_numeric (Option.some_get text.property).symm
  constructor
  · intro empty
    exact numeric.1 (by rw [empty]; rfl)
  · intro b member
    exact numeric.2 (byteChar b) (List.mem_map_of_mem member)

theorem readNumberText_append (text : NumberText) {rest : Bytes} (stop : StopsNumber rest) :
    readNumberText (text.val ++ rest) = some (.num text, rest) := by
  have taken : (text.val ++ rest).takeWhile isNumberByte = text.val ∧ (text.val ++ rest).dropWhile isNumberByte = rest := by
    rw [List.takeWhile_append_of_pos text.numeric.2, List.dropWhile_append_of_pos text.numeric.2]
    cases rest with
    | nil => simp
    | cons b rest => simp [stop b rfl]
  obtain ⟨taken, dropped⟩ := taken
  have valid : (Decimal.read (((text.val ++ rest).takeWhile isNumberByte).map byteChar)).isSome = true :=
    taken.symm ▸ text.property
  rw [readNumberText, dif_pos valid, dropped]
  simp only [taken]

end Numerals

section Values
variable {v : Raw} {vs : List Raw} {ms : Members} {rest text : Bytes} {fuel : Nat} {b : UInt8}

theorem ne_of_number (numeric : isNumberByte b = true) (d : UInt8) (other : isNumberByte d = false) : b ≠ d := by
  rintro rfl
  rw [numeric] at other
  cases other

theorem not_blank_of_number (numeric : isNumberByte b = true) : isBlank b = false := by
  have apart := ne_of_number numeric
  simp [isBlank, apart 0x20 rfl, apart 0x09 rfl, apart 0x0a rfl, apart 0x0d rfl]

theorem compact_first (v : Raw) : ∃ b text, compact v = b :: text ∧ isBlank b = false ∧ b ≠ 0x5d := by
  cases v with
  | null => exact ⟨_, _, rfl, rfl, by decide⟩
  | bool b => cases b <;> exact ⟨_, _, rfl, rfl, by decide⟩
  | num text =>
    have numeric := NumberText.numeric text
    rw [compact]
    generalize text.val = t at numeric
    cases t with
    | nil => exact absurd rfl numeric.1
    | cons b text =>
      have here := numeric.2 b List.mem_cons_self
      exact ⟨b, text, rfl, not_blank_of_number here, ne_of_number here _ rfl⟩
  | str s => exact ⟨_, _, rfl, rfl, by decide⟩
  | arr elements => exact ⟨_, _, rfl, rfl, by decide⟩
  | obj members => exact ⟨_, _, rfl, rfl, by decide⟩

theorem skipBlank_of_first (other : isBlank b = false) (text : Bytes) : skipBlank (b :: text) = b :: text := by
  rw [skipBlank, List.dropWhile_cons, if_neg (by rw [other]; exact Bool.false_ne_true)]

theorem skipBlank_compact (v : Raw) (rest : Bytes) : skipBlank (compact v ++ rest) = compact v ++ rest := by
  obtain ⟨b, text, first, other, -⟩ := compact_first v
  rw [first, List.cons_append, skipBlank_of_first other]

theorem length_compact_pos (v : Raw) : 0 < (compact v).length := by
  obtain ⟨b, text, first, -⟩ := compact_first v
  rw [first, List.length_cons]
  exact Nat.succ_pos _

theorem stops_compactMoreElements (vs : List Raw) (x : Bytes) : StopsNumber (compactMoreElements vs ++ x) := by
  intro b first
  cases vs <;> simp [compactMoreElements] at first <;> rw [← first] <;> rfl

theorem stops_compactMoreMembers (ms : Members) (x : Bytes) : StopsNumber (compactMoreMembers ms ++ x) := by
  intro b first
  cases ms <;> simp [compactMoreMembers] at first <;> rw [← first] <;> rfl

theorem readKeyword_append (word : String) (v : Raw) (rest : Bytes) :
    readKeyword word v (ascii word ++ rest) = some (v, rest) := by
  have begins : (ascii word).isPrefixOf (ascii word ++ rest) = true := List.isPrefixOf_iff_prefix.mpr (List.prefix_append _ _)
  rw [readKeyword, if_pos begins, List.drop_left]

theorem readRaw_number (text : NumberText) (stop : StopsNumber rest) :
    readRaw (fuel + 1) (text.val ++ rest) = some (.num text, rest) := by
  have numeric := NumberText.numeric text
  have read := readNumberText_append text stop
  generalize text.val = t at *
  cases t with
  | nil => exact absurd rfl numeric.1
  | cons b text =>
    have apart := ne_of_number (numeric.2 b List.mem_cons_self)
    rw [List.cons_append, readRaw, if_neg (apart quoteByte rfl), if_neg (apart 0x5b rfl), if_neg (apart 0x7b rfl),
      if_neg (apart 0x74 rfl), if_neg (apart 0x66 rfl), if_neg (apart 0x6e rfl)]
    exact read

theorem wrapped_append (s : Literal) (rest : Bytes) : wrapped s.val ++ rest = quoteByte :: (s.val ++ quoteByte :: rest) := by
  rw [wrapped, List.cons_append, List.append_assoc, List.singleton_append]

mutual
/-- What is written is read back, and what follows is left. -/
theorem readRaw_compact : ∀ (v : Raw) (rest : Bytes) (fuel : Nat), StopsNumber rest → 2 * (compact v).length ≤ fuel →
    readRaw fuel (compact v ++ rest) = some (v, rest)
  | v, rest, 0, stop, enough => by
    have long := length_compact_pos v
    omega
  | .null, rest, fuel + 1, stop, enough => readKeyword_append "null" .null rest
  | .bool true, rest, fuel + 1, stop, enough => readKeyword_append "true" (.bool true) rest
  | .bool false, rest, fuel + 1, stop, enough => readKeyword_append "false" (.bool false) rest
  | .num text, rest, fuel + 1, stop, enough => readRaw_number text stop
  | .str s, rest, fuel + 1, stop, enough => by
    have read := readLiteral_append s rest
    rw [compact, wrapped_append, readRaw, if_pos rfl, read]
    rfl
  | .arr [], rest, fuel + 1, stop, enough => rfl
  | .arr (v :: vs), rest, fuel + 1, stop, enough => by
    have inside : 2 * (compactElements (v :: vs)).length ≤ fuel := by
      rw [compact, List.length_cons] at enough
      omega
    have read := readRaws_compact v vs rest fuel inside
    have first : skipBlank (compactElements (v :: vs) ++ rest) = compactElements (v :: vs) ++ rest := by
      rw [compactElements, List.append_assoc, skipBlank_compact]
    rw [compact, List.cons_append, readRaw, if_neg (by decide), if_pos rfl, first]
    split
    · rename_i left same
      obtain ⟨b, text, begins, -, open_⟩ := compact_first v
      rw [compactElements, begins] at same
      exact absurd (List.cons.inj same).1 open_
    · rw [read]
      rfl
  | .obj [], rest, fuel + 1, stop, enough => rfl
  | .obj (m :: ms), rest, fuel + 1, stop, enough => by
    have inside : 2 * (compactMembers (m :: ms)).length ≤ fuel := by
      rw [compact, List.length_cons] at enough
      omega
    have read := readRawMembers_compact m ms rest fuel inside
    have first : skipBlank (compactMembers (m :: ms) ++ rest) = compactMembers (m :: ms) ++ rest := rfl
    rw [compact, List.cons_append, readRaw, if_neg (by decide), if_neg (by decide), if_pos rfl, first]
    split
    · rename_i left same
      exact absurd (List.cons.inj same).1 (by decide)
    · rw [read]
      rfl

theorem readRaws_compact : ∀ (v : Raw) (vs : List Raw) (rest : Bytes) (fuel : Nat),
    2 * (compactElements (v :: vs)).length ≤ fuel →
    readRaws fuel (compactElements (v :: vs) ++ rest) = some (v :: vs, rest)
  | v, vs, rest, 0, enough => by
    have long := length_compact_pos v
    rw [compactElements, List.length_append] at enough
    omega
  | v, vs, rest, fuel + 1, enough => by
    rw [compactElements, List.length_append] at enough
    have read := readRaw_compact v (compactMoreElements vs ++ rest) fuel (stops_compactMoreElements vs rest)
    cases vs with
    | nil =>
      rw [compactMoreElements, List.length_singleton] at enough
      rw [compactElements, List.append_assoc, readRaws, read (by omega)]
      rfl
    | cons w vs =>
      have more : compactMoreElements (w :: vs) = 0x2c :: compactElements (w :: vs) := rfl
      rw [more, List.length_cons] at enough
      have others := readRaws_compact w vs rest fuel (by omega)
      have first : skipBlank (compactElements (w :: vs) ++ rest) = compactElements (w :: vs) ++ rest := by
        rw [compactElements, List.append_assoc, skipBlank_compact]
      rw [compactElements, List.append_assoc, readRaws, read (by omega), Option.bind_some]
      dsimp only
      rw [more, List.cons_append, skipBlank_of_first rfl]
      change (readRaws fuel (skipBlank (compactElements (w :: vs) ++ rest))).map _ = _
      rw [first, others]
      rfl

theorem readRawMembers_compact : ∀ (m : Literal × Raw) (ms : Members) (rest : Bytes) (fuel : Nat),
    2 * (compactMembers (m :: ms)).length ≤ fuel →
    readRawMembers fuel (compactMembers (m :: ms) ++ rest) = some (m :: ms, rest)
  | (key, v), ms, rest, 0, enough => by
    have long := length_compact_pos v
    rw [compactMembers, List.length_append, List.length_cons, List.length_append] at enough
    omega
  | (key, v), ms, rest, fuel + 1, enough => by
    rw [compactMembers, List.length_append, List.length_cons, List.length_append] at enough
    have colon : skipBlank (0x3a :: (compact v ++ (compactMoreMembers ms ++ rest))) = 0x3a :: (compact v ++ (compactMoreMembers ms ++ rest)) :=
      skipBlank_of_first rfl _
    have key_ := readLiteral_append key (0x3a :: (compact v ++ (compactMoreMembers ms ++ rest)))
    have read := readRaw_compact v (compactMoreMembers ms ++ rest) fuel (stops_compactMoreMembers ms rest)
    have text : compactMembers ((key, v) :: ms) ++ rest =
        quoteByte :: (key.val ++ quoteByte :: 0x3a :: (compact v ++ (compactMoreMembers ms ++ rest))) := by
      rw [compactMembers, List.append_assoc, wrapped_append, List.cons_append, List.append_assoc]
    rw [text, quoteByte, readRawMembers]
    change (readLiteral (key.val ++ quoteByte :: 0x3a :: (compact v ++ (compactMoreMembers ms ++ rest)))).bind _ = _
    rw [key_, Option.bind_some]
    dsimp only
    rw [colon]
    change (readRaw fuel (skipBlank (compact v ++ (compactMoreMembers ms ++ rest)))).bind _ = _
    rw [skipBlank_compact]
    cases ms with
    | nil =>
      rw [compactMoreMembers, List.length_singleton] at enough
      rw [read (by omega)]
      rfl
    | cons n ms =>
      have more : compactMoreMembers (n :: ms) = 0x2c :: compactMembers (n :: ms) := rfl
      rw [more, List.length_cons] at enough
      have others := readRawMembers_compact n ms rest fuel (by omega)
      rw [read (by omega), Option.bind_some]
      dsimp only
      rw [more, List.cons_append, skipBlank_of_first rfl]
      have first : skipBlank (compactMembers (n :: ms) ++ rest) = compactMembers (n :: ms) ++ rest := rfl
      change (readRawMembers fuel (skipBlank (compactMembers (n :: ms) ++ rest))).map _ = _
      rw [first, others]
      rfl
end

theorem readDocument_compact (shallow : v.depth ≤ maxNestingDepth) : readDocument (compact v) = some v := by
  have none : StopsNumber [] := by simp [StopsNumber]
  have first := skipBlank_compact v []
  have read := readRaw_compact v [] (2 * (compact v).length + 2) none (by omega)
  rw [List.append_nil] at first read
  rw [readDocument, first, read, Option.bind_some]
  exact if_pos ⟨rfl, shallow⟩

theorem depth_of_readDocument (read : readDocument text = some v) : v.depth ≤ maxNestingDepth := by
  obtain ⟨⟨w, left⟩, -, checked⟩ := Option.bind_eq_some_iff.mp read
  dsimp only at checked
  split at checked
  · rename_i fine
    obtain rfl := Option.some.inj checked
    exact fine.2
  · cases checked

end Values

end GoJson
