import Mailgw.Json.Tree

namespace Json

open Numbers

section Strings
variable {s : Units} {u high low : UInt16} {rest : Chars}

theorem hexDigit_digitChar (n : Nat) : hexDigit (Nat.digitChar (n % 16)) = some (n % 16) := by
  have all : ∀ k : Fin 16, hexDigit (Nat.digitChar k) = some k.val := by decide
  exact all ⟨n % 16, Nat.mod_lt n (by decide)⟩

theorem toNat_ofNat {n : Nat} (valid : n < 0xd800 ∨ 0xdfff < n ∧ n < 0x110000) : (Char.ofNat n).toNat = n := by
  have isValid : n.isValidChar := valid
  rw [Char.ofNat, dif_pos isValid]
  rfl

theorem charUnits_of_small {c : Char} (small : c.toNat < 0x10000) : charUnits c = [UInt16.ofNat c.toNat] := by
  rw [charUnits, utf16, if_pos small, List.map_singleton]

theorem le_pairChar (first : isHigh high = true) (second : isLow low = true) : 0x10000 ≤ (pairChar high low).toNat := by
  simp only [isHigh, isLow, Bool.and_eq_true, decide_eq_true_eq] at first second
  rw [pairChar, toNat_ofNat (by omega)]
  omega

theorem charUnits_pairChar (first : isHigh high = true) (second : isLow low = true) :
    charUnits (pairChar high low) = [high, low] := by
  simp only [isHigh, isLow, Bool.and_eq_true, decide_eq_true_eq] at first second
  have code : (pairChar high low).toNat = 0x10000 + ((high.toNat - 0xd800) * 0x400 + (low.toNat - 0xdc00)) :=
    toNat_ofNat (by omega)
  have upper : 0xd800 + (0x10000 + ((high.toNat - 0xd800) * 0x400 + (low.toNat - 0xdc00)) - 0x10000) / 0x400 = high.toNat := by
    omega
  have lower : 0xdc00 + (0x10000 + ((high.toNat - 0xd800) * 0x400 + (low.toNat - 0xdc00)) - 0x10000) % 0x400 = low.toNat := by
    omega
  rw [charUnits, utf16, code, if_neg (by omega), upper, lower, List.map_cons, List.map_singleton, UInt16.ofNat_toNat,
    UInt16.ofNat_toNat]

theorem readString_end (rest : Chars) : readString ('"' :: rest) = some ([], rest) := by
  rw [readString.eq_def]
  dsimp only
  rw [if_pos rfl]

theorem readString_char {c : Char} (quote : c ≠ '"') (backslash : c ≠ '\\') (plain : 32 ≤ c.toNat) (rest : Chars) :
    readString (c :: rest) = (readString rest).map fun (s, left) => (charUnits c ++ s, left) := by
  rw [readString.eq_def]
  dsimp only
  rw [if_neg quote, if_neg backslash, if_neg (Nat.not_lt.mpr plain)]

theorem readString_unicode (u : UInt16) (rest : Chars) :
    readString (unicodeEscape u ++ rest) = (readString rest).map fun (s, left) => (u :: s, left) := by
  have bounds := u.toNat_lt
  have whole : ((u.toNat / 4096 % 16 * 16 + u.toNat / 256 % 16) * 16 + u.toNat / 16 % 16) * 16 + u.toNat % 16 = u.toNat := by
    omega
  have read : hexUnit (Nat.digitChar (u.toNat / 4096 % 16)) (Nat.digitChar (u.toNat / 256 % 16))
      (Nat.digitChar (u.toNat / 16 % 16)) (Nat.digitChar (u.toNat % 16)) = some u := by
    simp only [hexUnit, hexDigit_digitChar, Option.bind_eq_bind, Option.bind_some, Option.pure_def, whole, UInt16.ofNat_toNat]
  change (hexUnit _ _ _ _).bind _ = _
  rw [read]
  rfl

theorem readString_escaped {e : Char} (known : escaped e = some u) (rest : Chars) :
    readString ('\\' :: e :: rest) = (readString rest).map fun (s, left) => (u :: s, left) := by
  have other : e ≠ 'u' := by
    intro same
    rw [same] at known
    cases known
  rw [readString.eq_def]
  dsimp only
  rw [if_neg (by decide), if_pos rfl]
  split
  · rename_i same
    exact absurd (List.cons.inj same).1 other
  · rename_i e' rest' _ same
    obtain ⟨rfl, rfl⟩ := List.cons.inj same
    rw [known, Option.bind_some]
  · rename_i empty
    cases empty

theorem readString_unitText (u : UInt16) (rest : Chars) :
    readString (unitText u ++ rest) = (readString rest).map fun (s, left) => (u :: s, left) := by
  unfold unitText
  split
  · exact readString_unicode u rest
  · rename_i plain
    have bounds := u.toNat_lt
    simp only [isHigh, isLow, Bool.or_eq_true, Bool.and_eq_true, decide_eq_true_eq, not_or, not_and] at plain
    have code : (Char.ofNat u.toNat).toNat = u.toNat := toNat_ofNat (by omega)
    have unit : UInt16.ofNat (Char.ofNat u.toNat).toNat = u := by rw [code, UInt16.ofNat_toNat]
    generalize Char.ofNat u.toNat = c at *
    have read : ∀ n, c.toNat = n → u = UInt16.ofNat n := fun n is => by rw [← is, unit]
    unfold escape
    split
    · rename_i quote
      rw [read 34 (congrArg Char.toNat quote)]
      exact readString_escaped rfl rest
    split
    · rename_i backslash
      rw [read 92 (congrArg Char.toNat backslash)]
      exact readString_escaped rfl rest
    split
    · rename_i is
      rw [read 8 is]
      exact readString_escaped rfl rest
    split
    · rename_i is
      rw [read 9 is]
      exact readString_escaped rfl rest
    split
    · rename_i is
      rw [read 10 is]
      exact readString_escaped rfl rest
    split
    · rename_i is
      rw [read 12 is]
      exact readString_escaped rfl rest
    split
    · rename_i is
      rw [read 13 is]
      exact readString_escaped rfl rest
    split
    · rename_i small
      have text : ['\\', 'u', '0', '0', Nat.digitChar (c.toNat / 16), Nat.digitChar (c.toNat % 16)] = unicodeEscape u := by
        have high : u.toNat / 4096 % 16 = 0 := by omega
        have upper : u.toNat / 256 % 16 = 0 := by omega
        have lower : u.toNat / 16 % 16 = u.toNat / 16 := by omega
        rw [unicodeEscape, code]
        dsimp only
        rw [high, upper, lower]
        rfl
      rw [text]
      exact readString_unicode u rest
    · rename_i quote backslash _ _ _ _ _ plain
      have units : charUnits c = [u] := by rw [charUnits_of_small (by omega), unit]
      rw [List.singleton_append, readString_char quote backslash (Nat.not_lt.mp plain), units]
      rfl

theorem readString_quotedUnits (s : Units) (rest : Chars) : readString (quotedUnits s ++ rest) = some (s, rest) := by
  induction s using quotedUnits.induct with
  | case1 =>
    rw [quotedUnits, List.singleton_append, readString_end]
  | case2 u =>
    rw [quotedUnits, List.append_assoc, readString_unitText, List.singleton_append, readString_end]
    rfl
  | case3 high low tail pair ih =>
    obtain ⟨first, second⟩ := Bool.and_eq_true_iff.mp pair
    have units := charUnits_pairChar first second
    have large := le_pairChar first second
    have quote : pairChar high low ≠ '"' := by
      intro same
      rw [same] at large
      exact absurd large (by decide)
    have backslash : pairChar high low ≠ '\\' := by
      intro same
      rw [same] at large
      exact absurd large (by decide)
    rw [quotedUnits, if_pos pair, List.cons_append, readString_char quote backslash (by omega), ih, units]
    rfl
  | case4 high low tail apart ih =>
    rw [quotedUnits, if_neg apart, List.append_assoc, readString_unitText, ih]
    rfl

end Strings

section Numerals
variable {text : Chars}

theorem isNumeric_of_isDigit {c : Char} (digit : c.isDigit = true) : isNumeric c = true := by
  simp [isNumeric, digit]

theorem parseDigits_numeric {n : Nat} (read : Text.parseDigits text = some n) : ∀ c ∈ text, isNumeric c = true := by
  intro c member
  rw [Text.parseDigits] at read
  split at read
  · rename_i fine
    exact isNumeric_of_isDigit (List.all_eq_true.mp fine.2 c member)
  · cases read

theorem signedPower_numeric {x : Int} (read : signedPower text = some x) : ∀ c ∈ text, isNumeric c = true := by
  unfold signedPower at read
  split at read
  all_goals
    obtain ⟨n, read, -⟩ := Option.map_eq_some_iff.mp read
    have digits := parseDigits_numeric read
  · exact List.forall_mem_cons.mpr ⟨rfl, digits⟩
  · exact List.forall_mem_cons.mpr ⟨rfl, digits⟩
  · exact digits

theorem power_numeric {x : Int} (read : power text = some x) : ∀ c ∈ text, isNumeric c = true := by
  unfold power at read
  split at read
  · exact List.forall_mem_nil _
  · exact List.forall_mem_cons.mpr ⟨rfl, signedPower_numeric read⟩
  · exact List.forall_mem_cons.mpr ⟨rfl, signedPower_numeric read⟩
  · cases read

theorem takeWhile_numeric {c : Char} (member : c ∈ text.takeWhile Char.isDigit) : isNumeric c = true :=
  isNumeric_of_isDigit (List.mem_takeWhile_imp member)

theorem fraction_numeric {part left : Chars} (split : fraction text = some (part, left))
    (numeric : ∀ c ∈ left, isNumeric c = true) : ∀ c ∈ text, isNumeric c = true := by
  unfold fraction at split
  split at split
  · rename_i rest
    split at split
    · cases split
    · obtain ⟨-, rfl⟩ := Prod.mk.inj (Option.some.inj split)
      refine List.forall_mem_cons.mpr ⟨rfl, ?_⟩
      intro c member
      rw [← List.takeWhile_append_dropWhile (p := Char.isDigit) (l := rest)] at member
      rcases List.mem_append.mp member with digit | behind
      · exact takeWhile_numeric digit
      · exact numeric c behind
  · obtain ⟨-, rfl⟩ := Prod.mk.inj (Option.some.inj split)
    exact numeric

theorem unsigned_numeric {d : Decimal} (read : unsigned text = some d) : text ≠ [] ∧ ∀ c ∈ text, isNumeric c = true := by
  simp only [unsigned, Option.bind_eq_bind, Option.pure_def] at read
  split at read
  · cases read
  · rename_i fine
    obtain ⟨found, fraction, read⟩ := Option.bind_eq_some_iff.mp read
    obtain ⟨x, power, -⟩ := Option.bind_eq_some_iff.mp read
    constructor
    · rintro rfl
      exact fine (.inl rfl)
    · intro c member
      rw [← List.takeWhile_append_dropWhile (p := Char.isDigit) (l := text)] at member
      rcases List.mem_append.mp member with digit | behind
      · exact takeWhile_numeric digit
      · exact fraction_numeric fraction (power_numeric power) c behind

theorem read_numeric {d : Decimal} (read : Decimal.read text = some d) : text ≠ [] ∧ ∀ c ∈ text, isNumeric c = true := by
  unfold Decimal.read at read
  split at read
  · obtain ⟨d, read, -⟩ := Option.map_eq_some_iff.mp read
    exact ⟨List.cons_ne_nil _ _, List.forall_mem_cons.mpr ⟨rfl, (unsigned_numeric read).2⟩⟩
  · exact unsigned_numeric read

theorem Token.numeric (token : Token) : token.val ≠ [] ∧ ∀ c ∈ token.val, isNumeric c = true :=
  read_numeric (Option.some_get token.property).symm

theorem readNumber_token (token : Token) {rest : Chars} (stop : Stops rest) :
    readNumber (token.val ++ rest) = some (.num token, rest) := by
  have taken : (token.val ++ rest).takeWhile isNumeric = token.val ∧ (token.val ++ rest).dropWhile isNumeric = rest := by
    rw [List.takeWhile_append_of_pos token.numeric.2, List.dropWhile_append_of_pos token.numeric.2]
    cases rest with
    | nil => simp
    | cons c rest => simp [stop c rfl]
  obtain ⟨taken, dropped⟩ := taken
  have valid : (Decimal.read ((token.val ++ rest).takeWhile isNumeric)).isSome = true := taken.symm ▸ token.property
  rw [readNumber, dif_pos valid, dropped]
  simp only [taken]

end Numerals

section Trees
variable {v : Tree} {vs : List Tree} {ms : List (Units × Tree)} {rest text : Chars} {fuel : Nat}

theorem ne_of_numeric {c : Char} (numeric : isNumeric c = true) (d : Char) (other : isNumeric d = false) : c ≠ d := by
  rintro rfl
  rw [numeric] at other
  cases other

theorem not_space_of_numeric {c : Char} (numeric : isNumeric c = true) : isSpace c = false := by
  have apart := ne_of_numeric numeric
  simp [isSpace, apart ' ' rfl, apart '\t' rfl, apart '\n' rfl, apart '\r' rfl]

theorem print_first (v : Tree) : ∃ c text, print v = c :: text ∧ isSpace c = false ∧ c ≠ ']' := by
  cases v with
  | null => exact ⟨_, _, rfl, rfl, by decide⟩
  | bool b => cases b <;> exact ⟨_, _, rfl, rfl, by decide⟩
  | num token =>
    have numeric := token.numeric
    rw [print]
    generalize token.val = t at numeric
    cases t with
    | nil => exact absurd rfl numeric.1
    | cons c text =>
      have here := numeric.2 c List.mem_cons_self
      exact ⟨c, text, rfl, not_space_of_numeric here, ne_of_numeric here _ rfl⟩
  | str s => exact ⟨_, _, rfl, rfl, by decide⟩
  | arr elements => exact ⟨_, _, rfl, rfl, by decide⟩
  | obj members => exact ⟨_, _, rfl, rfl, by decide⟩

theorem skipSpace_of_first {c : Char} (other : isSpace c = false) (text : Chars) : skipSpace (c :: text) = c :: text := by
  rw [skipSpace, List.dropWhile_cons, if_neg (by rw [other]; exact Bool.false_ne_true)]

theorem skipSpace_print (v : Tree) (rest : Chars) : skipSpace (print v ++ rest) = print v ++ rest := by
  obtain ⟨c, text, first, other, -⟩ := print_first v
  rw [first, List.cons_append, skipSpace_of_first other]

theorem length_print_pos (v : Tree) : 0 < (print v).length := by
  obtain ⟨c, text, first, -⟩ := print_first v
  rw [first, List.length_cons]
  exact Nat.succ_pos _

theorem stops_printMoreElements (vs : List Tree) (x : Chars) : Stops (printMoreElements vs ++ x) := by
  intro c first
  cases vs <;> simp [printMoreElements] at first <;> rw [← first] <;> rfl

theorem stops_printMoreMembers (ms : List (Units × Tree)) (x : Chars) : Stops (printMoreMembers ms ++ x) := by
  intro c first
  cases ms <;> simp [printMoreMembers] at first <;> rw [← first] <;> rfl

theorem readWord_append (word : String) (v : Tree) (rest : Chars) :
    readWord word v (word.toList ++ rest) = some (v, rest) := by
  have begins : word.toList.isPrefixOf (word.toList ++ rest) = true := List.isPrefixOf_iff_prefix.mpr (List.prefix_append _ _)
  have length : word.length = word.toList.length := rfl
  rw [readWord, if_pos begins, length, List.drop_left]

theorem readValue_token (token : Token) (stop : Stops rest) : readValue (fuel + 1) (token.val ++ rest) = some (.num token, rest) := by
  have numeric := token.numeric
  have read := readNumber_token token stop
  generalize token.val = t at *
  cases t with
  | nil => exact absurd rfl numeric.1
  | cons c text =>
    have apart := ne_of_numeric (numeric.2 c List.mem_cons_self)
    rw [List.cons_append, readValue, if_neg (apart '"' rfl), if_neg (apart '[' rfl), if_neg (apart '{' rfl),
      if_neg (apart 't' rfl), if_neg (apart 'f' rfl), if_neg (apart 'n' rfl)]
    exact read

mutual
/-- What is printed is read back, and what follows is left. -/
theorem readValue_print : ∀ (v : Tree) (rest : Chars) (fuel : Nat), Stops rest → 2 * (print v).length ≤ fuel →
    readValue fuel (print v ++ rest) = some (v, rest)
  | v, rest, 0, stop, enough => by
    have long := length_print_pos v
    omega
  | .null, rest, fuel + 1, stop, enough => readWord_append "null" .null rest
  | .bool true, rest, fuel + 1, stop, enough => readWord_append "true" (.bool true) rest
  | .bool false, rest, fuel + 1, stop, enough => readWord_append "false" (.bool false) rest
  | .num token, rest, fuel + 1, stop, enough => readValue_token token stop
  | .str s, rest, fuel + 1, stop, enough => by
    have read := readString_quotedUnits s rest
    rw [print, quote, List.cons_append, readValue, if_pos rfl, read]
    rfl
  | .arr [], rest, fuel + 1, stop, enough => rfl
  | .arr (v :: vs), rest, fuel + 1, stop, enough => by
    have inside : 2 * (printElements (v :: vs)).length ≤ fuel := by
      rw [print, List.length_cons] at enough
      omega
    have read := readElements_print v vs rest fuel inside
    have first : skipSpace (printElements (v :: vs) ++ rest) = printElements (v :: vs) ++ rest := by
      rw [printElements, List.append_assoc, skipSpace_print]
    rw [print, List.cons_append, readValue, if_neg (by decide), if_pos rfl, first]
    split
    · rename_i left same
      obtain ⟨c, text, begins, -, open_⟩ := print_first v
      rw [printElements, begins] at same
      exact absurd (List.cons.inj same).1 open_
    · rw [read]
      rfl
  | .obj [], rest, fuel + 1, stop, enough => rfl
  | .obj (m :: ms), rest, fuel + 1, stop, enough => by
    have inside : 2 * (printMembers (m :: ms)).length ≤ fuel := by
      rw [print, List.length_cons] at enough
      omega
    have read := readMembers_print m ms rest fuel inside
    have first : skipSpace (printMembers (m :: ms) ++ rest) = printMembers (m :: ms) ++ rest := rfl
    rw [print, List.cons_append, readValue, if_neg (by decide), if_neg (by decide), if_pos rfl, first]
    split
    · rename_i left same
      exact absurd (List.cons.inj same).1 (by decide)
    · rw [read]
      rfl

theorem readElements_print : ∀ (v : Tree) (vs : List Tree) (rest : Chars) (fuel : Nat),
    2 * (printElements (v :: vs)).length ≤ fuel →
    readElements fuel (printElements (v :: vs) ++ rest) = some (v :: vs, rest)
  | v, vs, rest, 0, enough => by
    have long := length_print_pos v
    rw [printElements, List.length_append] at enough
    omega
  | v, vs, rest, fuel + 1, enough => by
    rw [printElements, List.length_append] at enough
    cases vs with
    | nil =>
      have read := readValue_print v ([']'] ++ rest) fuel (stops_printMoreElements [] rest) (by rw [printMoreElements, List.length_singleton] at enough; omega)
      rw [printElements, printMoreElements, List.append_assoc, readElements, read]
      rfl
    | cons w vs =>
      have more : printMoreElements (w :: vs) = ',' :: printElements (w :: vs) := rfl
      rw [more, List.length_cons] at enough
      have read := readValue_print v (printMoreElements (w :: vs) ++ rest) fuel (stops_printMoreElements _ rest) (by omega)
      have others := readElements_print w vs rest fuel (by omega)
      have first : skipSpace (printElements (w :: vs) ++ rest) = printElements (w :: vs) ++ rest := by
        rw [printElements, List.append_assoc, skipSpace_print]
      rw [printElements, List.append_assoc, readElements, read, Option.bind_some]
      dsimp only
      rw [more, List.cons_append, skipSpace_of_first rfl]
      change (readElements fuel (skipSpace (printElements (w :: vs) ++ rest))).map _ = _
      rw [first, others]
      rfl

theorem readMembers_print : ∀ (m : Units × Tree) (ms : List (Units × Tree)) (rest : Chars) (fuel : Nat),
    2 * (printMembers (m :: ms)).length ≤ fuel →
    readMembers fuel (printMembers (m :: ms) ++ rest) = some (m :: ms, rest)
  | (key, v), ms, rest, 0, enough => by
    have long := length_print_pos v
    rw [printMembers, List.length_append, List.length_cons, List.length_append] at enough
    omega
  | (key, v), ms, rest, fuel + 1, enough => by
    rw [printMembers, List.length_append, List.length_cons, List.length_append] at enough
    have colon : skipSpace (':' :: (print v ++ (printMoreMembers ms ++ rest))) = ':' :: (print v ++ (printMoreMembers ms ++ rest)) :=
      skipSpace_of_first rfl _
    have key_ := readString_quotedUnits key (':' :: (print v ++ (printMoreMembers ms ++ rest)))
    have read := readValue_print v (printMoreMembers ms ++ rest) fuel (stops_printMoreMembers ms rest)
    have text : printMembers ((key, v) :: ms) ++ rest =
        '"' :: (quotedUnits key ++ ':' :: (print v ++ (printMoreMembers ms ++ rest))) := by
      simp only [printMembers, quote, List.cons_append, List.append_assoc]
    rw [text, readMembers, key_, Option.bind_some]
    dsimp only
    rw [colon]
    change (readValue fuel (skipSpace (print v ++ (printMoreMembers ms ++ rest)))).bind _ = _
    rw [skipSpace_print]
    cases ms with
    | nil =>
      rw [printMoreMembers, List.length_singleton] at enough
      rw [read (by omega)]
      rfl
    | cons n ms =>
      have more : printMoreMembers (n :: ms) = ',' :: printMembers (n :: ms) := rfl
      rw [more, List.length_cons] at enough
      have others := readMembers_print n ms rest fuel (by omega)
      rw [read (by omega), Option.bind_some]
      dsimp only
      rw [more, List.cons_append, skipSpace_of_first rfl]
      have first : skipSpace (printMembers (n :: ms) ++ rest) = printMembers (n :: ms) ++ rest := rfl
      change (readMembers fuel (skipSpace (printMembers (n :: ms) ++ rest))).map _ = _
      rw [first, others]
      rfl
end

theorem parse_print (v : Tree) : parse (print v) = some v := by
  have none : Stops [] := by simp [Stops]
  have first := skipSpace_print v []
  have read := readValue_print v [] (2 * (print v).length + 2) none (by omega)
  rw [List.append_nil] at first read
  rw [parse, first, read]
  rfl

theorem print_injective : Function.Injective print := by
  intro v w same
  have read := parse_print v
  rw [same, parse_print w] at read
  exact (Option.some.inj read).symm

end Trees

end Json
