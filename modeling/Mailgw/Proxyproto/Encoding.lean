import Mailgw.Proxyproto.Addresses
import Mailgw.Proxyproto.Parse

namespace Mailgw.Proxyproto

open Bits Text
open Deliver (Bytes)
open Rules (Addr Prefix)

def v4Bytes (a : BitVec 32) : Bytes := toBE 4 a.toNat
def v6Bytes (a : BitVec 128) : Bytes := toBE 16 a.toNat
def portBytes (p : UInt16) : Bytes := toBE 2 p.toNat

/-- A header in the binary form: the signature, version and command, family and transport, and the
    length of what follows. -/
def v2Header (verCmd famProto : UInt8) (payload : Bytes) : Bytes :=
  v2Sig ++ verCmd :: famProto :: (toBE 2 payload.length ++ payload)

def v1Line (proto src dst : Bytes) (sport dport : UInt16) : Bytes :=
  ascii "PROXY".toList ++ SP :: (proto ++ SP :: (src ++ SP :: (dst ++ SP :: (decimal sport.toNat ++
    SP :: (decimal dport.toNat ++ CRLF)))))

/-- The headers that say which addresses a connection has, or that they are not said. -/
inductive Encodes : Header → Bytes → Prop where
  | inet (src dst : BitVec 32) (sport dport : UInt16) (tlvs : Bytes) : 12 + tlvs.length < 2 ^ 16 →
      Encodes ⟨⟨.v4 src, sport⟩, ⟨.v4 dst, dport⟩⟩
        (v2Header 0x21 0x11 (v4Bytes src ++ (v4Bytes dst ++ (portBytes sport ++ (portBytes dport ++ tlvs)))))
  | inet6 (src dst : BitVec 128) (sport dport : UInt16) (tlvs : Bytes) : 36 + tlvs.length < 2 ^ 16 →
      Encodes ⟨⟨.v6 src [], sport⟩, ⟨.v6 dst [], dport⟩⟩
        (v2Header 0x21 0x21 (v6Bytes src ++ (v6Bytes dst ++ (portBytes sport ++ (portBytes dport ++ tlvs)))))
  | localCommand (famProto : UInt8) (payload : Bytes) : payload.length < 2 ^ 16 →
      Encodes {} (v2Header 0x20 famProto payload)
  | unspec (proto : UInt8) (payload : Bytes) : proto < 16 → payload.length < 2 ^ 16 →
      Encodes {} (v2Header 0x21 proto payload)
  | tcp4 (src dst : BitVec 32) (sport dport : UInt16) :
      Encodes ⟨⟨.v4 src, sport⟩, ⟨.v4 dst, dport⟩⟩
        (v1Line (ascii "TCP4".toList) (dotted (v4Bytes src)) (dotted (v4Bytes dst)) sport dport)
  | tcp6 (src dst : BitVec 128) (srcText dstText : Bytes) (sport dport : UInt16) :
      V6Text (v6Bytes src) srcText → DOT ∉ srcText → V6Text (v6Bytes dst) dstText → DOT ∉ dstText →
      Encodes ⟨⟨.v6 src [], sport⟩, ⟨.v6 dst [], dport⟩⟩ (v1Line (ascii "TCP6".toList) srcText dstText sport dport)
  | unknown (rest : Bytes) : LF ∉ rest → rest.head?.all (fun c => c = SP) = true → rest.length ≤ 92 →
      Encodes {} (ascii "PROXY UNKNOWN".toList ++ (rest ++ CRLF))

section Words
variable {x s : Bytes} {n : Nat}

theorem fieldsOf_append (plain : SP ∉ x) (s : Bytes) : fieldsOf (x ++ SP :: s) = x :: fieldsOf s := by
  induction x with
  | nil => simp [fieldsOf]
  | cons c x ih =>
    simp only [List.mem_cons, not_or] at plain
    rw [List.cons_append, fieldsOf, if_neg (Ne.symm plain.1), ih plain.2]

theorem fieldsOf_of_not_mem (plain : SP ∉ x) : fieldsOf x = [x] := by
  induction x with
  | nil => rfl
  | cons c x ih =>
    simp only [List.mem_cons, not_or] at plain
    rw [fieldsOf, if_neg (Ne.symm plain.1), ih plain.2]

theorem fieldsOf_unknown {more : Bytes} (begins : more.head?.all (fun c => c = SP) = true) :
    ∃ others, fieldsOf (ascii "PROXY UNKNOWN".toList ++ more) =
      ascii "PROXY".toList :: ascii "UNKNOWN".toList :: others := by
  have split : ascii "PROXY UNKNOWN".toList ++ more = ascii "PROXY".toList ++ SP :: (ascii "UNKNOWN".toList ++ more) := rfl
  rw [split, fieldsOf_append (by decide)]
  cases more with
  | nil => exact ⟨[], by rw [List.append_nil, fieldsOf_of_not_mem (by decide)]⟩
  | cons c more =>
    have space : c = SP := by simpa using begins
    exact ⟨fieldsOf more, by rw [space, fieldsOf_append (by decide)]⟩

theorem digitsValue_decimal (n : Nat) : digitsValue (decimal n) = n := by
  induction n using Nat.strongRecOn with
  | ind n ih =>
    have value (d : Nat) (small : d < 10) : (digit d).toNat - 48 = d := by
      simp only [digit, UInt8.toNat_ofNat']
      omega
    rcases decimal_cases n with ⟨small, same⟩ | ⟨_, less, same⟩
    · rw [same]
      simp [digitsValue, value n small]
    · have before := ih _ less
      rw [digitsValue] at before
      rw [same, digitsValue, List.foldl_append, before]
      simp only [List.foldl_cons, List.foldl_nil, value _ (show n % 10 < 10 by omega)]
      omega

theorem parsePort_decimal (p : UInt16) : parsePort (decimal p.toNat) = some p := by
  have digits : (decimal p.toNat).all isDigit = true :=
    List.all_eq_true.mpr fun c member => isDigit_of_mem_decimal member
  have small := p.toNat_lt
  simp only [parsePort, decimal_ne_nil, digits, digitsValue_decimal, not_true_eq_false, or_self, if_false]
  rw [if_neg (by omega), UInt16.ofNat_toNat]

end Words

section Binary
variable {br : Buffered ConnErr} {rest payload block : Bytes} {verCmd famProto : UInt8} {n : Nat}

theorem addrFrom4_v4Bytes (a : BitVec 32) : addrFrom4 (v4Bytes a) = .v4 a := by
  rw [addrFrom4, v4Bytes, ofBE_toBE a.isLt, BitVec.ofNat_toNat, BitVec.setWidth_eq]

theorem addrFrom16_v6Bytes (a : BitVec 128) : addrFrom16 (v6Bytes a) = .v6 a [] := by
  rw [addrFrom16, v6Bytes, ofBE_toBE a.isLt, BitVec.ofNat_toNat, BitVec.setWidth_eq]

theorem ofBE_portBytes (p : UInt16) : UInt16.ofNat (ofBE (portBytes p)) = p := by
  rw [portBytes, ofBE_toBE p.toNat_lt, UInt16.ofNat_toNat]

theorem take_of_length {x y : Bytes} (long : x.length = n) : (x ++ y).take n = x := by
  rw [← long, List.take_left]

theorem drop_of_length {x y : Bytes} (long : x.length = n) : (x ++ y).drop n = y := by
  rw [← long, List.drop_left]

theorem decodeV2_inet (src dst : BitVec 32) (sport dport : UInt16) :
    decodeV2 famINET (v4Bytes src ++ (v4Bytes dst ++ (portBytes sport ++ portBytes dport))) =
      ⟨⟨.v4 src, sport⟩, ⟨.v4 dst, dport⟩⟩ := by
  have four (a : BitVec 32) : (v4Bytes a).length = 4 := length_toBE 4 _
  have two (p : UInt16) : (portBytes p).length = 2 := length_toBE 2 _
  have second : (v4Bytes src ++ (v4Bytes dst ++ (portBytes sport ++ portBytes dport))).drop 8 =
      portBytes sport ++ portBytes dport := by
    rw [← List.append_assoc, drop_of_length (by simp [four])]
  have third : (v4Bytes src ++ (v4Bytes dst ++ (portBytes sport ++ portBytes dport))).drop 10 = portBytes dport := by
    rw [← List.append_assoc, ← List.append_assoc, drop_of_length (by simp [four, two])]
  rw [decodeV2, if_pos rfl, take_of_length (four src), drop_of_length (four src), take_of_length (four dst), second, third,
    take_of_length (two sport), List.take_of_length_le (two dport).le]
  simp only [addrFrom4_v4Bytes, ofBE_portBytes]

theorem decodeV2_inet6 (src dst : BitVec 128) (sport dport : UInt16) :
    decodeV2 famINET6 (v6Bytes src ++ (v6Bytes dst ++ (portBytes sport ++ portBytes dport))) =
      ⟨⟨.v6 src [], sport⟩, ⟨.v6 dst [], dport⟩⟩ := by
  have sixteen (a : BitVec 128) : (v6Bytes a).length = 16 := length_toBE 16 _
  have two (p : UInt16) : (portBytes p).length = 2 := length_toBE 2 _
  have second : (v6Bytes src ++ (v6Bytes dst ++ (portBytes sport ++ portBytes dport))).drop 32 =
      portBytes sport ++ portBytes dport := by
    rw [← List.append_assoc, drop_of_length (by simp [sixteen])]
  have third : (v6Bytes src ++ (v6Bytes dst ++ (portBytes sport ++ portBytes dport))).drop 34 = portBytes dport := by
    rw [← List.append_assoc, ← List.append_assoc, drop_of_length (by simp [sixteen, two])]
  rw [decodeV2, if_neg (by decide), take_of_length (sixteen src), drop_of_length (sixteen src),
    take_of_length (sixteen dst), second, third, take_of_length (two sport), List.take_of_length_le (two dport).le]
  simp only [addrFrom16_v6Bytes, ofBE_portBytes]

/-- A reader from which so many bytes are there to be read gives them all and leaves the others. -/
theorem readFull_spec (size : 0 < br.size) (unread : br.unread = block ++ rest) (long : block.length = n) (some : 0 < n) :
    (br.readFull n).bytes = block ∧ (br.readFull n).err = none ∧ (br.readFull n).left.unread = rest ∧
      br.Same (br.readFull n).left := by
  obtain ⟨all, _, same⟩ := Buffered.readUntil_spec n some size (Nat.le_refl n)
  obtain ⟨bytes, none, left⟩ := all (by rw [unread, List.length_append]; omega)
  rw [unread, take_of_length long] at bytes
  rw [unread, drop_of_length long] at left
  exact ⟨bytes, none, left, same⟩

theorem discard_spec (size : 0 < br.size) (unread : br.unread = block ++ rest) (long : block.length = n) :
    (br.discard n).err = none ∧ (br.discard n).left.unread = rest ∧ br.Same (br.discard n).left := by
  obtain ⟨all, _, same⟩ := Buffered.readUntil_spec Buffered.discardSize (by decide) size (Nat.le_refl n)
  obtain ⟨_, none, left⟩ := all (by rw [unread, List.length_append]; omega)
  rw [unread, drop_of_length long] at left
  exact ⟨none, left, same⟩

/-- The binary form is read to its end, whatever it holds. -/
theorem parseV2_header (size : 0 < br.size) (unread : br.unread = v2Header verCmd famProto payload ++ rest)
    (fits : payload.length < 2 ^ 16) (version : verCmd >>> 4 = 2)
    (wants : wanted (verCmd &&& 0x0f) (famProto >>> 4) (famProto &&& 0x0f) = .ok n) (enough : n ≤ payload.length) :
    (parseV2 br).1 = { header := if 0 < n then decodeV2 (famProto >>> 4) (payload.take n) else {} } ∧
      (parseV2 br).2.unread = rest ∧ br.Same (parseV2 br).2 := by
  have cut : br.unread = (v2Sig ++ verCmd :: famProto :: toBE 2 payload.length) ++ (payload ++ rest) := by
    rw [unread, v2Header]
    simp
  obtain ⟨bytes, none, left, same⟩ := readFull_spec (n := 16) size cut (by simp [v2Sig]) (by decide)
  have command : (br.readFull 16).bytes.getD 12 0 = verCmd := by rw [bytes]; rfl
  have family : (br.readFull 16).bytes.getD 13 0 = famProto := by rw [bytes]; rfl
  have length : ofBE (((br.readFull 16).bytes.drop 14).take 2) = payload.length := by
    have field : (v2Sig ++ verCmd :: famProto :: toBE 2 payload.length).drop 14 = toBE 2 payload.length := rfl
    rw [bytes, field, List.take_of_length_le (length_toBE 2 _).le, ofBE_toBE fits]
  have positive : 0 < (br.readFull 16).left.size := by rw [same.size]; exact size
  simp only [parseV2, none, Option.isSome_none, Bool.false_eq_true, if_false, command, family, length, version, ne_eq,
    not_true_eq_false, wants, if_neg (Nat.not_lt.mpr enough)]
  generalize (br.readFull 16).left = hdr at left positive same
  by_cases block : 0 < n
  · have cut : hdr.unread = payload.take n ++ (payload.drop n ++ rest) := by
      rw [left, ← List.append_assoc, List.take_append_drop]
    obtain ⟨taken, none', left', same'⟩ := readFull_spec positive cut (by simp [enough]) block
    simp only [if_pos block, none', Option.isSome_none, Bool.false_eq_true, if_false, taken]
    have positive' : 0 < (hdr.readFull n).left.size := by rw [same'.size]; exact positive
    by_cases more : 0 < payload.length - n
    · obtain ⟨told, final, last⟩ := discard_spec (n := payload.length - n) positive' left' (by simp)
      simp only [if_pos more, told, Option.isSome_none, Bool.false_eq_true, if_false]
      exact ⟨trivial, final, (same.trans same').trans last⟩
    · have all : payload.drop n = [] := List.drop_eq_nil_iff.mpr (by omega)
      simp only [if_neg more, Option.isSome_none, Bool.false_eq_true, if_false]
      exact ⟨trivial, by rw [left', all, List.nil_append], same.trans same'⟩
  · have zero : n = 0 := by omega
    subst zero
    simp only [Nat.lt_irrefl, if_false, Option.isSome_none, Bool.false_eq_true, Nat.sub_zero]
    by_cases more : 0 < payload.length
    · obtain ⟨told, final, last⟩ := discard_spec positive left rfl
      simp only [if_pos more, told, Option.isSome_none, Bool.false_eq_true, if_false]
      exact ⟨trivial, final, same.trans last⟩
    · have all : payload = [] := List.length_eq_zero_iff.mp (by omega)
      simp only [if_neg more, Option.isSome_none, Bool.false_eq_true, if_false]
      exact ⟨trivial, by rw [left, all, List.nil_append], same⟩

end Binary

section Line
variable {br : Buffered ConnErr} {line rest : Bytes}

/-- A line of the text form is taken whole, and what it says is read. -/
theorem parseV1_line (plain : LF ∉ line) (fits : line.length ≤ 105) (size : 107 ≤ br.size)
    (unread : br.unread = line ++ CRLF ++ rest) :
    (parseV1 br).1 = parseLine line ∧ (parseV1 br).2.unread = rest ∧ br.Same (parseV1 br).2 := by
  have whole : br.unread = (line ++ [CR]) ++ ([LF] ++ rest) := by
    rw [unread]
    simp [CRLF]
  have plain' : LF ∉ line ++ [CR] := by
    have other : LF ≠ CR := by decide
    simp [plain, other]
  have cut : firstLine LF br.unread = (line ++ CRLF, rest) := by
    rw [whole, firstLine_append_of_not_mem plain']
    simp [firstLine, CRLF]
  have ended : LF ∈ br.unread := by
    rw [whole]
    simp
  have short : (line ++ CRLF).length ≤ 107 := by
    simp [CRLF]
    omega
  have read := Buffered.readSlice_of_le ended (by rw [cut]; exact short.trans size)
  rw [cut] at read
  obtain ⟨_, _, left, same⟩ := Buffered.readSlice_ok read
  rw [cut] at left
  have suffix : ¬ ¬ CRLF <:+ line ++ CRLF := not_not.mpr (List.suffix_append line CRLF)
  simp only [parseV1, read, v1MaxLen, if_neg (Nat.not_lt.mpr short), if_neg suffix]
  refine ⟨?_, left, same⟩
  rw [take_of_length]
  simp [CRLF]

end Line

section Texts
variable {ip left right s : Bytes} {c : UInt8}

theorem isDigit_SP : isDigit SP = false := by decide

theorem not_mem_dotted (other : isDigit c = false ∧ c ≠ DOT) : c ∉ dotted s := by
  intro member
  rcases mem_dotted member with digits | dot
  · rw [digits] at other
    cases other.1
  · exact other.2 dot

theorem length_dotted (some : s ≠ []) : (dotted s).length + 1 ≤ 4 * s.length := by
  induction s with
  | nil => exact absurd rfl some
  | cons o os ih =>
    have small : o.toNat < 10 ^ 3 := by
      have := o.toNat_lt
      omega
    have short := length_decimal small (by decide)
    by_cases last : os = []
    · subst last
      have one : (dotted [o]).length = (decimal o.toNat).length := rfl
      simp only [List.length_singleton]
      omega
    · have rest := ih last
      rw [dotted_cons o last]
      simp only [List.length_append, List.length_cons]
      omega

theorem dot_mem_dotted (four : ip.length = 4) : DOT ∈ dotted ip := by
  obtain ⟨_, rest, later⟩ := dotted_split four
  have whole := List.takeWhile_append_dropWhile (p := isHex) (l := dotted ip)
  rw [later] at whole
  rw [← whole]
  simp

theorem Groups.length_le (groups : Groups ip s) (plain : DOT ∉ s) : 2 * (s.length + 1) ≤ 5 * ip.length := by
  induction groups with
  | last group =>
    have := group.short
    simp
    omega
  | embedded four => exact absurd (dot_mem_dotted four) plain
  | cons group _ ih =>
    have := group.short
    have rest := ih fun member => plain (by simp [member])
    simp
    omega

theorem Tail.length_le (tail : Tail ip s) (plain : DOT ∉ s) : 2 * s.length ≤ 5 * ip.length := by
  rcases tail with ⟨rfl, rfl⟩ | groups
  · simp
  · have := groups.length_le plain
    omega

theorem Elided.length_le (elided : Elided left right s) (plain : DOT ∉ s) :
    2 * s.length ≤ 5 * (left.length + right.length) + 2 := by
  induction elided with
  | here group tail =>
    have := group.short
    have rest := tail.length_le fun member => plain (by simp [member])
    simp
    omega
  | cons group _ ih =>
    have := group.short
    have rest := ih fun member => plain (by simp [member])
    simp
    omega

theorem V6Text.length_le (text : V6Text ip s) (plain : DOT ∉ s) : s.length ≤ 39 := by
  cases text with
  | full groups full =>
    have := groups.length_le plain
    omega
  | leading tail short =>
    have := tail.length_le fun member => plain (by simp [member])
    simp
    omega
  | elided elided short =>
    have := elided.length_le plain
    omega

theorem length_port (p : UInt16) : (decimal p.toNat).length ≤ 5 := by
  have := p.toNat_lt
  exact length_decimal (by omega) (by decide)

end Texts

section Lines
variable {proto src dst : Bytes} {sport dport : UInt16} {a b : Addr}

def v1Text (proto src dst : Bytes) (sport dport : UInt16) : Bytes :=
  ascii "PROXY".toList ++ SP :: (proto ++ SP :: (src ++ SP :: (dst ++ SP :: (decimal sport.toNat ++
    SP :: decimal dport.toNat))))

theorem v1Line_eq : v1Line proto src dst sport dport = v1Text proto src dst sport dport ++ CRLF := by
  simp [v1Line, v1Text]

theorem fieldsOf_v1Text (proto' : SP ∉ proto) (src' : SP ∉ src) (dst' : SP ∉ dst) :
    fieldsOf (v1Text proto src dst sport dport) =
      [ascii "PROXY".toList, proto, src, dst, decimal sport.toNat, decimal dport.toNat] := by
  have port (p : UInt16) : SP ∉ decimal p.toNat := not_mem_decimal isDigit_SP
  rw [v1Text, fieldsOf_append (by decide), fieldsOf_append proto', fieldsOf_append src', fieldsOf_append dst',
    fieldsOf_append (port sport), fieldsOf_of_not_mem (port dport)]

theorem parseLine_v1Text (family : proto = ascii "TCP4".toList ∨ proto = ascii "TCP6".toList) (src' : SP ∉ src)
    (dst' : SP ∉ dst) (a_text : parseAddr src = some a) (b_text : parseAddr dst = some b)
    (same : decide (proto = ascii "TCP4".toList) = (is4 a && is4 b)) :
    parseLine (v1Text proto src dst sport dport) = { header := ⟨⟨a, sport⟩, ⟨b, dport⟩⟩ } := by
  have proto' : SP ∉ proto := by rcases family with rfl | rfl <;> decide
  have known : proto ≠ ascii "UNKNOWN".toList := by rcases family with rfl | rfl <;> decide
  have stated : ¬ (proto ≠ ascii "TCP4".toList ∧ proto ≠ ascii "TCP6".toList) := by tauto
  rw [parseLine, fieldsOf_v1Text proto' src' dst']
  simp only [ne_eq, not_true_eq_false, if_false, known, stated, a_text, b_text, same, parsePort_decimal]

theorem length_v1Text (family : proto = ascii "TCP4".toList ∨ proto = ascii "TCP6".toList) (src' : src.length ≤ 39)
    (dst' : dst.length ≤ 39) : (v1Text proto src dst sport dport).length ≤ 105 := by
  have four : proto.length = 4 := by rcases family with rfl | rfl <;> rfl
  have five : (ascii "PROXY".toList).length = 5 := rfl
  have first := length_port sport
  have second := length_port dport
  simp only [v1Text, List.length_append, List.length_cons]
  omega

theorem not_mem_v1Text (family : proto = ascii "TCP4".toList ∨ proto = ascii "TCP6".toList) (src' : LF ∉ src)
    (dst' : LF ∉ dst) : LF ∉ v1Text proto src dst sport dport := by
  have port (p : UInt16) : LF ∉ decimal p.toNat := not_mem_decimal (by decide)
  have proto' : LF ∉ proto := by rcases family with rfl | rfl <;> decide
  have proxy : LF ∉ ascii "PROXY".toList := by decide
  have other : LF ≠ SP := by decide
  simp only [v1Text, List.mem_append, List.mem_cons, not_or]
  exact ⟨proxy, other, proto', other, src', other, dst', other, port sport, other, port dport⟩

end Lines

section Whole
variable {br : Buffered ConnErr} {h : Header} {header payload more line rest : Bytes}

theorem parse_binary (size : 12 ≤ br.size) (unread : br.unread = v2Sig ++ more) :
    parse br = parseV2 (br.peek 12).left ∧ (br.peek 12).left.unread = br.unread ∧ br.Same (br.peek 12).left := by
  obtain ⟨bytes, told, left, same⟩ := Buffered.peek_spec (n := 12) size
  have long : ¬ br.unread.length < 12 := by
    rw [unread]
    simp [v2Sig]
  rw [if_neg long] at told
  have twelve : v2Sig.length = 12 := rfl
  rw [unread, take_of_length twelve] at bytes
  refine ⟨?_, left, same⟩
  simp only [parse, twelve, told, bytes, if_true]

theorem parse_text (size : 12 ≤ br.size) (unread : br.unread = v1Prefix ++ more) (long : 6 ≤ more.length) :
    parse br = parseV1 (br.peek 12).left ∧ (br.peek 12).left.unread = br.unread ∧ br.Same (br.peek 12).left := by
  obtain ⟨bytes, told, left, same⟩ := Buffered.peek_spec (n := 12) size
  have six : v1Prefix.length = 6 := rfl
  have enough : ¬ br.unread.length < 12 := by
    rw [unread, List.length_append]
    omega
  rw [if_neg enough] at told
  have begins : (br.peek 12).bytes = v1Prefix ++ more.take 6 := by
    rw [bytes, unread, List.take_append, six]
    rfl
  have twelve : v2Sig.length = 12 := rfl
  have other : v1Prefix ++ more.take 6 ≠ v2Sig := by
    intro same
    have heads : some (80 : UInt8) = some 13 := congrArg List.head? same
    exact absurd heads (by decide)
  refine ⟨?_, left, same⟩
  simp only [parse, twelve, told, begins, other, if_false, List.prefix_append, not_true_eq_false]

theorem parse_v2Header {verCmd famProto : UInt8} {n : Nat} (size : 12 ≤ br.size)
    (unread : br.unread = v2Header verCmd famProto payload ++ rest) (fits : payload.length < 2 ^ 16)
    (version : verCmd >>> 4 = 2) (wants : wanted (verCmd &&& 0x0f) (famProto >>> 4) (famProto &&& 0x0f) = .ok n)
    (enough : n ≤ payload.length) :
    (parse br).1 = { header := if 0 < n then decodeV2 (famProto >>> 4) (payload.take n) else {} } ∧
      (parse br).2.unread = rest ∧ br.Same (parse br).2 := by
  have begins : br.unread = v2Sig ++ (verCmd :: famProto :: (toBE 2 payload.length ++ payload) ++ rest) := by
    rw [unread, v2Header, List.append_assoc]
  obtain ⟨binary, left, same⟩ := parse_binary size begins
  have positive : 0 < (br.peek 12).left.size := by
    rw [same.size]
    omega
  obtain ⟨header, left', same'⟩ := parseV2_header positive (left.trans unread) fits version wants enough
  rw [binary]
  exact ⟨header, left', same.trans same'⟩

theorem parse_line (size : 107 ≤ br.size) (unread : br.unread = line ++ CRLF ++ rest) (begins : v1Prefix <+: line)
    (plain : LF ∉ line) (short : line.length ≤ 105) (long : 10 ≤ line.length) :
    (parse br).1 = parseLine line ∧ (parse br).2.unread = rest ∧ br.Same (parse br).2 := by
  obtain ⟨more, rfl⟩ := begins
  have six : v1Prefix.length = 6 := rfl
  rw [List.length_append] at long
  have split : br.unread = v1Prefix ++ (more ++ CRLF ++ rest) := by
    rw [unread]
    simp
  obtain ⟨text, left, same⟩ := parse_text (by omega) split (by simp [CRLF]; omega)
  obtain ⟨header, left', same'⟩ := parseV1_line plain short (by rw [same.size]; exact size) (left.trans unread)
  rw [text]
  exact ⟨header, left', same.trans same'⟩

theorem parse_v1Line {proto src dst : Bytes} {sport dport : UInt16} {a b : Addr} (size : 107 ≤ br.size)
    (unread : br.unread = v1Line proto src dst sport dport ++ rest)
    (family : proto = ascii "TCP4".toList ∨ proto = ascii "TCP6".toList)
    (src' : SP ∉ src ∧ LF ∉ src ∧ src.length ≤ 39) (dst' : SP ∉ dst ∧ LF ∉ dst ∧ dst.length ≤ 39)
    (a_text : parseAddr src = some a) (b_text : parseAddr dst = some b)
    (same : decide (proto = ascii "TCP4".toList) = (is4 a && is4 b)) :
    (parse br).1 = { header := ⟨⟨a, sport⟩, ⟨b, dport⟩⟩ } ∧ (parse br).2.unread = rest ∧ br.Same (parse br).2 := by
  rw [v1Line_eq] at unread
  have prefix_ : v1Prefix <+: v1Text proto src dst sport dport := by
    have split : v1Prefix = ascii "PROXY".toList ++ [SP] := rfl
    rw [split, v1Text]
    exact ⟨_, by rw [List.append_assoc]; rfl⟩
  have four : proto.length = 4 := by rcases family with rfl | rfl <;> rfl
  have long : 10 ≤ (v1Text proto src dst sport dport).length := by
    have five : (ascii "PROXY".toList).length = 5 := rfl
    simp only [v1Text, List.length_append, List.length_cons]
    omega
  have read := parse_line size unread prefix_ (not_mem_v1Text family src'.2.1 dst'.2.1)
    (length_v1Text family src'.2.2 dst'.2.2) long
  rwa [parseLine_v1Text family src'.1 dst'.1 a_text b_text same] at read

/-- What a header encodes is what it is read as, and nothing is taken past it. -/
theorem parse_encodes (size : 107 ≤ br.size) (encodes : Encodes h header) (unread : br.unread = header ++ payload) :
    (parse br).1 = { header := h } ∧ (parse br).2.unread = payload ∧ br.Same (parse br).2 := by
  have twelve : 12 ≤ br.size := by omega
  have dotted' (a : BitVec 32) : SP ∉ dotted (v4Bytes a) ∧ LF ∉ dotted (v4Bytes a) ∧ (dotted (v4Bytes a)).length ≤ 39 := by
    have four : (v4Bytes a).length = 4 := length_toBE 4 _
    have short := length_dotted (s := v4Bytes a) (by rintro none; rw [none] at four; cases four)
    exact ⟨not_mem_dotted (by decide), not_mem_dotted (by decide), by omega⟩
  have text6 {ip s : Bytes} (text : V6Text ip s) (plain : DOT ∉ s) : SP ∉ s ∧ LF ∉ s ∧ s.length ≤ 39 :=
    ⟨text.not_mem (by decide), text.not_mem (by decide), text.length_le plain⟩
  have read4 (a : BitVec 32) : parseAddr (dotted (v4Bytes a)) = some (.v4 a) :=
    parseAddr_iff.mpr (.inl ⟨v4Bytes a, length_toBE 4 _, rfl, (addrFrom4_v4Bytes a).symm⟩)
  have read6 {a : BitVec 128} {s : Bytes} (text : V6Text (v6Bytes a) s) : parseAddr s = some (.v6 a []) :=
    parseAddr_iff.mpr (.inr ⟨v6Bytes a, [], .inl ⟨rfl, text⟩, by rw [withZone_nil, addrFrom16_v6Bytes]⟩)
  cases encodes with
  | inet src dst sport dport tlvs fits =>
    have four (a : BitVec 32) : (v4Bytes a).length = 4 := length_toBE 4 _
    have two (p : UInt16) : (portBytes p).length = 2 := length_toBE 2 _
    have block : (v4Bytes src ++ (v4Bytes dst ++ (portBytes sport ++ (portBytes dport ++ tlvs)))).take 12 =
        v4Bytes src ++ (v4Bytes dst ++ (portBytes sport ++ portBytes dport)) := by
      rw [show v4Bytes src ++ (v4Bytes dst ++ (portBytes sport ++ (portBytes dport ++ tlvs))) =
        (v4Bytes src ++ (v4Bytes dst ++ (portBytes sport ++ portBytes dport))) ++ tlvs by simp]
      exact take_of_length (by simp [four, two])
    have read := parse_v2Header (n := 12) twelve unread (by simp [four, two]; omega) (by decide) (by decide)
      (by simp [four, two]; omega)
    rw [block] at read
    rwa [if_pos (by decide), show (0x11 : UInt8) >>> 4 = famINET by decide, decodeV2_inet] at read
  | inet6 src dst sport dport tlvs fits =>
    have sixteen (a : BitVec 128) : (v6Bytes a).length = 16 := length_toBE 16 _
    have two (p : UInt16) : (portBytes p).length = 2 := length_toBE 2 _
    have block : (v6Bytes src ++ (v6Bytes dst ++ (portBytes sport ++ (portBytes dport ++ tlvs)))).take 36 =
        v6Bytes src ++ (v6Bytes dst ++ (portBytes sport ++ portBytes dport)) := by
      rw [show v6Bytes src ++ (v6Bytes dst ++ (portBytes sport ++ (portBytes dport ++ tlvs))) =
        (v6Bytes src ++ (v6Bytes dst ++ (portBytes sport ++ portBytes dport))) ++ tlvs by simp]
      exact take_of_length (by simp [sixteen, two])
    have read := parse_v2Header (n := 36) twelve unread (by simp [sixteen, two]; omega) (by decide) (by decide)
      (by simp [sixteen, two]; omega)
    rw [block] at read
    rwa [if_pos (by decide), show (0x21 : UInt8) >>> 4 = famINET6 by decide, decodeV2_inet6] at read
  | localCommand famProto block fits =>
    have wants : wanted (0x20 &&& 0x0f) (famProto >>> 4) (famProto &&& 0x0f) = .ok 0 := if_pos (by decide)
    exact parse_v2Header twelve unread fits (by decide) wants (Nat.zero_le _)
  | unspec proto block low fits =>
    have family : proto >>> 4 = 0 := by
      have small : proto.toNat < 16 := low
      apply UInt8.toNat_inj.mp
      rw [UInt8.toNat_shiftRight]
      simp [Nat.shiftRight_eq_div_pow]
      omega
    have wants : wanted (0x21 &&& 0x0f) (proto >>> 4) (proto &&& 0x0f) = .ok 0 := by
      have one : (0x21 : UInt8) &&& 0x0f = cmdProxy := by decide
      rw [family, one]
      simp [wanted, cmdLocal, cmdProxy, famINET, famINET6]
    exact parse_v2Header twelve unread fits (by decide) wants (Nat.zero_le _)
  | tcp4 src dst sport dport =>
    exact parse_v1Line size unread (.inl rfl) (dotted' src) (dotted' dst) (read4 src) (read4 dst) rfl
  | tcp6 src dst srcText dstText sport dport src_text src_plain dst_text dst_plain =>
    exact parse_v1Line size unread (.inr rfl) (text6 src_text src_plain) (text6 dst_text dst_plain) (read6 src_text)
      (read6 dst_text) rfl
  | unknown more plain begins short =>
    obtain ⟨others, words⟩ := fieldsOf_unknown begins
    have thirteen : (ascii "PROXY UNKNOWN".toList).length = 13 := rfl
    have line : LF ∉ ascii "PROXY UNKNOWN".toList ++ more := by
      rw [List.mem_append, not_or]
      exact ⟨by decide, plain⟩
    have split : br.unread = (ascii "PROXY UNKNOWN".toList ++ more) ++ CRLF ++ payload := by
      rw [unread]
      simp
    have read := parse_line size split ⟨ascii "UNKNOWN".toList ++ more, rfl⟩ line
      (by rw [List.length_append]; omega) (by rw [List.length_append]; omega)
    have none : parseLine (ascii "PROXY UNKNOWN".toList ++ more) = {} := by
      rw [parseLine, words]
      rfl
    rwa [none] at read

end Whole

section Wrap
variable {h : Header} {header payload : Bytes}

theorem Wrapped.reads (c : Wrapped) (ask : Ask) :
    Reads (fun c : Wrapped => c.rest ++ c.raw.unread) c.raw.err ask c (c.read ask) := by
  obtain ⟨remote, localAddr, rest, raw⟩ := c
  cases rest with
  | nil =>
    obtain ⟨bytes, told, moves⟩ := raw.reads ask
    exact ⟨bytes, told, moves⟩
  | cons b rest =>
    refine ⟨?_, ?_, ?_⟩
    · simp only [Wrapped.read, ne_eq, reduceCtorEq, not_false_eq_true, if_true]
      rw [← List.append_assoc, List.take_append_drop]
    · intro e told
      cases told
    · intro room none
      simp only [Wrapped.read, ne_eq, reduceCtorEq, not_false_eq_true, if_true, List.take_eq_nil_iff, or_false] at none
      omega

theorem Wrapped.yields (c : Wrapped) (asks : List Ask) :
    Yields asks (readAll Wrapped.read asks c) (c.rest ++ c.raw.unread) c.raw.err := by
  have step (s : Wrapped) (ask : Ask) (same : s.raw.err = c.raw.err) :
      Reads (fun c : Wrapped => c.rest ++ c.raw.unread) c.raw.err ask s (s.read ask) ∧
        (s.read ask).left.raw.err = c.raw.err := by
    refine ⟨same ▸ s.reads ask, ?_⟩
    simp only [Wrapped.read]
    split
    · exact same
    · simp only [Wire.read]
      split <;> exact same
  exact yields_of_reads (fun d : Wrapped => d.raw.err = c.raw.err) step asks rfl

/-- A trusted peer that sends a header is given the addresses in it, and its connection then yields what
    it sends after the header, however all of that is cut into reads. -/
theorem wrap_encodes (trusted : List Prefix) (raw : Socket) (trust : trusts trusted raw.remote.addr.unmap = true)
    (encodes : Encodes h header) (sent : raw.wire.unread = header ++ payload) :
    (parse { size := hdrBufSize, rd := raw.wire }).1 = { header := h } ∧
      ∃ c, wrap trusted raw = .ok c ∧
        (c.remote, c.localAddr) = (if h.proxied then (h.src, h.dst) else (raw.remote, raw.localAddr)) ∧
        ∀ asks, Yields asks (readAll Wrapped.read asks c) payload raw.wire.err := by
  have unread : ({ size := hdrBufSize, rd := raw.wire } : Buffered ConnErr).unread = header ++ payload := sent
  obtain ⟨parsed, left, same⟩ := parse_encodes (show 107 ≤ hdrBufSize by decide) encodes unread
  refine ⟨parsed, ?_⟩
  have both : h.proxied = true → h.dst.addr ≠ .invalid := by
    cases encodes <;> simp [Header.proxied]
  simp only [wrap, trust, Bool.not_true, Bool.false_eq_true, if_false, parsed]
  have given (c : Wrapped) (rest : c.rest = (parse { size := hdrBufSize, rd := raw.wire }).2.buf)
      (wire : c.raw = (parse { size := hdrBufSize, rd := raw.wire }).2.rd) (asks : List Ask) :
      Yields asks (readAll Wrapped.read asks c) payload raw.wire.err := by
    have yields := c.yields asks
    rw [rest, wire, same.err] at yields
    rw [← left]
    exact yields
  cases proxied : h.proxied with
  | true =>
    have dst : h.dst.addr ≠ .invalid := both proxied
    simp only [dst, ne_eq, not_false_eq_true, if_true]
    exact ⟨_, rfl, rfl, given _ rfl rfl⟩
  | false =>
    simp only [Bool.false_eq_true, if_false]
    exact ⟨_, rfl, rfl, given _ rfl rfl⟩

/-- A header and the greeting of a client, in three reads that cut both. -/
theorem wrap_encodes_sample :
    let header := v1Line (ascii "TCP4".toList) (ascii "203.0.113.7".toList) (ascii "198.51.100.1".toList) 5000 25
    let raw : Socket := ⟨⟨.v4 0x0a000001#32, 40000⟩, ⟨.v4 0x0a000002#32, 25⟩,
      ⟨[((80 : UInt8), (header.drop 1).take 20), ((header.drop 21).headD 0, header.drop 22 ++ ascii "EHLO ".toList),
        ((97 : UInt8), CRLF)], .eof⟩⟩
    ∃ c, wrap [.v4 0x0a000000#32 8 (by decide)] raw = .ok c ∧
      (c.remote, c.localAddr) = (⟨.v4 0xcb007107#32, 5000⟩, ⟨.v4 0xc6336401#32, 25⟩) ∧
      ∀ asks, Yields asks (readAll Wrapped.read asks c) (ascii "EHLO a".toList ++ CRLF) .eof :=
  (wrap_encodes [.v4 0x0a000000#32 8 (by decide)] _ (by decide)
    (.tcp4 0xcb007107#32 0xc6336401#32 5000 25) (by decide)).2

end Wrap

end Mailgw.Proxyproto
