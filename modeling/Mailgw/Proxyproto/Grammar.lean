import Mailgw.Proxyproto.Encoding

namespace Mailgw.Proxyproto

open Bits Text
open Deliver (Bytes)
open Rules (Addr)

def unfields : List Bytes → Bytes
  | [] => []
  | [x] => x
  | x :: xs => x ++ SP :: unfields xs

section Fields
variable {s x : Bytes} {xs : List Bytes}

theorem fieldsOf_ne_nil (s : Bytes) : fieldsOf s ≠ [] := by
  cases s with
  | nil => simp [fieldsOf]
  | cons c rest =>
    simp only [fieldsOf]
    split
    · simp
    · split <;> simp

theorem unfields_cons (x : Bytes) (some : xs ≠ []) : unfields (x :: xs) = x ++ SP :: unfields xs := by
  cases xs with
  | nil => exact absurd rfl some
  | cons y ys => rfl

theorem unfields_fieldsOf (s : Bytes) : unfields (fieldsOf s) = s := by
  induction s with
  | nil => rfl
  | cons c rest ih =>
    simp only [fieldsOf]
    split
    · rename_i space
      rw [unfields_cons _ (fieldsOf_ne_nil rest), ih, space]
      rfl
    · split
      · rename_i none
        exact absurd none (fieldsOf_ne_nil rest)
      · rename_i first more here
        rw [here] at ih
        cases more with
        | nil => simpa [unfields] using ih
        | cons y ys => simpa [unfields] using ih

theorem not_mem_fieldsOf (member : x ∈ fieldsOf s) : SP ∉ x := by
  induction s generalizing x with
  | nil =>
    rw [fieldsOf, List.mem_singleton] at member
    simp [member]
  | cons c rest ih =>
    simp only [fieldsOf] at member
    split at member
    · rcases List.mem_cons.mp member with rfl | later
      · simp
      · exact ih later
    · rename_i other
      split at member
      · rw [List.mem_singleton.mp member]
        simpa using Ne.symm other
      · rename_i first more here
        rw [here] at ih
        rcases List.mem_cons.mp member with rfl | later
        · simp [Ne.symm other, ih List.mem_cons_self]
        · exact ih (List.mem_cons_of_mem _ later)

end Fields

def PortText (t : Bytes) : Prop := t ≠ [] ∧ (∀ c ∈ t, isDigit c = true) ∧ digitsValue t ≤ 65535

def Padded (t : Bytes) : Prop := ∃ more, more ≠ [] ∧ t = digit 0 :: more

section Ports
variable {t : Bytes} {n : Nat}

theorem parsePort_iff {p : UInt16} : parsePort t = some p ↔ PortText t ∧ p = UInt16.ofNat (digitsValue t) := by
  simp only [parsePort, PortText]
  constructor
  · intro read
    split at read
    · cases read
    · rename_i digits
      split at read
      · cases read
      · cases read
        simp only [not_or, not_not, List.all_eq_true] at digits
        exact ⟨⟨digits.1, digits.2, by omega⟩, rfl⟩
  · rintro ⟨⟨some, digits, fits⟩, rfl⟩
    have all : t.all isDigit = true := List.all_eq_true.mpr digits
    rw [if_neg (by simp [some, all]), if_neg (by omega)]

theorem not_padded_decimal (n : Nat) : ¬ Padded (decimal n) := by
  rintro ⟨more, some, same⟩
  obtain ⟨m, here, _, positive⟩ := decimal_prefix (p := [digit 0]) (q := more) same.symm (List.cons_ne_nil _ _)
  rw [← decimal_of_lt (by decide : 0 < 10)] at here
  have zero := decimal_injective here
  have := positive some
  omega

theorem decimal_of_digits (some : t ≠ []) (digits : ∀ c ∈ t, isDigit c = true) (plain : ¬ Padded t) :
    t = decimal (digitsValue t) := by
  induction t using List.reverseRecOn with
  | nil => exact absurd rfl some
  | append_singleton t c ih =>
    obtain ⟨small, same⟩ := digit_of_isDigit (digits c (by simp))
    have value : digitsValue (t ++ [c]) = digitsValue t * 10 + (c.toNat - 48) := by simp [digitsValue]
    generalize c.toNat - 48 = d at small same value
    rw [value]
    by_cases first : t = []
    · subst first
      rw [same, digitsValue, List.foldl_nil, Nat.zero_mul, Nat.zero_add, decimal_of_lt small]
      rfl
    · have before : t = decimal (digitsValue t) := by
        refine ih first (fun b member => digits b (by simp [member])) ?_
        rintro ⟨more, _, shape⟩
        exact plain ⟨more ++ [c], by simp, by rw [shape]; rfl⟩
      have positive : 0 < digitsValue t := by
        by_contra zero
        have zero : digitsValue t = 0 := by omega
        rw [zero, decimal_of_lt (by decide)] at before
        exact plain ⟨[c], by simp, by rw [before]; rfl⟩
      rw [decimal_snoc positive small, ← before, same]

theorem portText_cases (port : PortText t) : Padded t ∨ ∃ p : UInt16, t = decimal p.toNat := by
  obtain ⟨some, digits, fits⟩ := port
  by_cases padded : Padded t
  · exact .inl padded
  · have value : (UInt16.ofNat (digitsValue t)).toNat = digitsValue t := by
      rw [UInt16.toNat_ofNat']
      omega
    exact .inr ⟨UInt16.ofNat (digitsValue t), by rw [value]; exact decimal_of_digits some digits padded⟩

theorem portText_decimal (p : UInt16) : PortText (decimal p.toNat) := by
  have := p.toNat_lt
  exact ⟨decimal_ne_nil _, fun c member => isDigit_of_mem_decimal member, by rw [digitsValue_decimal]; omega⟩

end Ports

def TCP4 : Bytes := ascii "TCP4".toList
def TCP6 : Bytes := ascii "TCP6".toList

def tcpLine (proto src dst sport dport : Bytes) : Bytes :=
  unfields [ascii "PROXY".toList, proto, src, dst, sport, dport]

def V4 (s : Bytes) : Prop := ∃ ip, ip.length = 4 ∧ s = dotted ip

def V6 (s : Bytes) : Prop := ∃ ip, V6Text ip s

def V6Zoned (s : Bytes) : Prop := ∃ ip text zone, zone ≠ [] ∧ V6Text ip text ∧ s = text ++ PERCENT :: zone

inductive V1 : Bytes → Prop where
  | unknown (rest : Bytes) : rest.head?.all (fun c => c = SP) = true → V1 (ascii "PROXY UNKNOWN".toList ++ rest)
  | tcp4 {src dst : Bytes} (sport dport : UInt16) : V4 src → V4 dst →
      V1 (tcpLine TCP4 src dst (decimal sport.toNat) (decimal dport.toNat))
  | tcp6 {src dst : Bytes} (sport dport : UInt16) : V6 src → V6 dst →
      V1 (tcpLine TCP6 src dst (decimal sport.toNat) (decimal dport.toNat))

structure Taken (proto src dst sport dport : Bytes) : Prop where
  src' : SP ∉ src
  dst' : SP ∉ dst
  sport' : PortText sport
  dport' : PortText dport
  srcText : V4 src ∨ V6 src ∨ V6Zoned src
  dstText : V4 dst ∨ V6 dst ∨ V6Zoned dst
  family : (proto = TCP4 ∧ V4 src ∧ V4 dst) ∨ (proto = TCP6 ∧ ¬ (V4 src ∧ V4 dst))

/-- Ports with leading zeros, and for IPv6 also zones and an IPv4 address beside an IPv6 one. -/
def Slack (line : Bytes) : Prop :=
  ∃ proto src dst sport dport, line = tcpLine proto src dst sport dport ∧ Taken proto src dst sport dport ∧
    (Padded sport ∨ Padded dport ∨ (proto = TCP6 ∧ (V4 src ∨ V4 dst ∨ V6Zoned src ∨ V6Zoned dst)))

section Families
variable {s src dst sport dport proto line rest : Bytes} {a b : Addr}

theorem not_V4_of_find (colon : s.find? Mark = some COLON) : ¬ V4 s := by
  rintro ⟨ip, four, rfl⟩
  rw [find_dotted four] at colon
  exact absurd (Option.some.inj colon) (by decide)

theorem V6.not_V4 (text : V6 s) : ¬ V4 s := by
  obtain ⟨ip, text⟩ := text
  exact not_V4_of_find (find_v6Text text)

theorem V6Zoned.not_V4 (text : V6Zoned s) : ¬ V4 s := by
  obtain ⟨ip, text, zone, some, read, rfl⟩ := text
  exact not_V4_of_find (find_zoned (.inr ⟨text, some, read, rfl⟩))

theorem V6Zoned.not_V6 (zoned : V6Zoned s) : ¬ V6 s := by
  rintro ⟨ip, text⟩
  obtain ⟨_, _, _, _, _, rfl⟩ := zoned
  exact text.no_percent (by simp)

theorem parseAddr_family (read : parseAddr s = some a) :
    (is4 a = true ∧ V4 s) ∨ (is4 a = false ∧ (V6 s ∨ V6Zoned s)) := by
  rcases parseAddr_iff.mp read with ⟨ip, four, same, rfl⟩ | ⟨ip, zone, zoned, rfl⟩
  · exact .inl ⟨rfl, ip, four, same⟩
  · refine .inr ⟨rfl, ?_⟩
    rcases zoned with ⟨_, text⟩ | ⟨text, some, read, same⟩
    · exact .inl ⟨ip, text⟩
    · exact .inr ⟨ip, text, zone, some, read, same⟩

theorem parseAddr_of_text (text : V4 s ∨ V6 s ∨ V6Zoned s) : ∃ a, parseAddr s = some a := by
  rcases text with ⟨ip, four, same⟩ | ⟨ip, text⟩ | ⟨ip, text, zone, some, read, same⟩
  · exact ⟨_, parseAddr_iff.mpr (.inl ⟨ip, four, same, rfl⟩)⟩
  · exact ⟨_, parseAddr_iff.mpr (.inr ⟨ip, [], .inl ⟨rfl, text⟩, rfl⟩)⟩
  · exact ⟨_, parseAddr_iff.mpr (.inr ⟨ip, zone, .inr ⟨text, some, read, same⟩, rfl⟩)⟩

theorem is4_iff (read : parseAddr s = some a) : is4 a = true ↔ V4 s := by
  rcases parseAddr_family read with ⟨four, text⟩ | ⟨six, text | text⟩
  · simp [four, text]
  · simp [six, text.not_V4]
  · simp [six, text.not_V4]

theorem fieldsOf_tcpLine (proto' : SP ∉ proto) (src' : SP ∉ src) (dst' : SP ∉ dst) (sport' : SP ∉ sport)
    (dport' : SP ∉ dport) :
    fieldsOf (tcpLine proto src dst sport dport) = [ascii "PROXY".toList, proto, src, dst, sport, dport] := by
  simp only [tcpLine, unfields]
  rw [fieldsOf_append (by decide), fieldsOf_append proto', fieldsOf_append src', fieldsOf_append dst',
    fieldsOf_append sport', fieldsOf_of_not_mem dport']

theorem PortText.not_mem (port : PortText sport) : SP ∉ sport := fun member =>
  absurd (port.2.1 _ member) (by decide)

theorem Taken.proto' (taken : Taken proto src dst sport dport) : proto = TCP4 ∨ proto = TCP6 := by
  rcases taken.family with ⟨four, _⟩ | ⟨six, _⟩
  · exact .inl four
  · exact .inr six

theorem Taken.fieldsOf (taken : Taken proto src dst sport dport) :
    fieldsOf (tcpLine proto src dst sport dport) = [ascii "PROXY".toList, proto, src, dst, sport, dport] := by
  have plain : SP ∉ proto := by rcases taken.proto' with rfl | rfl <;> decide
  exact fieldsOf_tcpLine plain taken.src' taken.dst' taken.sport'.not_mem taken.dport'.not_mem

theorem Taken.accepted (taken : Taken proto src dst sport dport) :
    (parseLine (tcpLine proto src dst sport dport)).err = none := by
  obtain ⟨a, a_text⟩ := parseAddr_of_text taken.srcText
  obtain ⟨b, b_text⟩ := parseAddr_of_text taken.dstText
  have sport_ok := parsePort_iff.mpr ⟨taken.sport', rfl⟩
  have dport_ok := parsePort_iff.mpr ⟨taken.dport', rfl⟩
  have known : proto ≠ ascii "UNKNOWN".toList := by rcases taken.proto' with rfl | rfl <;> decide
  have stated : ¬ (proto ≠ ascii "TCP4".toList ∧ proto ≠ ascii "TCP6".toList) := fun ⟨four, six⟩ =>
    taken.proto'.elim four six
  have same : decide (proto = ascii "TCP4".toList) = (is4 a && is4 b) := by
    rw [Bool.eq_iff_iff, Bool.and_eq_true, is4_iff a_text, is4_iff b_text, decide_eq_true_eq]
    rcases taken.family with ⟨rfl, four⟩ | ⟨rfl, six⟩
    · exact ⟨fun _ => four, fun _ => rfl⟩
    · exact ⟨fun same => absurd same (by decide), fun four => absurd four six⟩
  rw [parseLine, taken.fieldsOf]
  simp only [ne_eq, not_true_eq_false, if_false, known, stated, a_text, b_text, same, sport_ok, dport_ok]

theorem taken_of_read (stated : ¬ (proto ≠ ascii "TCP4".toList ∧ proto ≠ ascii "TCP6".toList)) (src' : SP ∉ src)
    (dst' : SP ∉ dst) (a_text : parseAddr src = some a) (b_text : parseAddr dst = some b)
    (same : decide (proto = ascii "TCP4".toList) = (is4 a && is4 b)) (sport' : PortText sport) (dport' : PortText dport) :
    Taken proto src dst sport dport := by
  have text {s : Bytes} {a : Addr} (read : parseAddr s = some a) : V4 s ∨ V6 s ∨ V6Zoned s := by
    rcases parseAddr_family read with ⟨_, four⟩ | ⟨_, six⟩
    · exact .inl four
    · exact .inr six
  refine ⟨src', dst', sport', dport', text a_text, text b_text, ?_⟩
  rw [Bool.eq_iff_iff, Bool.and_eq_true, is4_iff a_text, is4_iff b_text, decide_eq_true_eq] at same
  by_cases four : proto = ascii "TCP4".toList
  · exact .inl ⟨four, same.mp four⟩
  · have six : proto = ascii "TCP6".toList := by
      by_contra other
      exact stated ⟨four, other⟩
    exact .inr ⟨six, fun both => four (same.mpr both)⟩

theorem parseLine_unknown (space : rest.head?.all (fun c => c = SP) = true) :
    parseLine (ascii "PROXY UNKNOWN".toList ++ rest) = {} := by
  obtain ⟨others, words⟩ := fieldsOf_unknown space
  rw [parseLine, words]
  rfl

theorem parseLine_ok_iff :
    (parseLine line).err = none ↔
      (∃ rest, line = ascii "PROXY UNKNOWN".toList ++ rest ∧ rest.head?.all (fun c => c = SP) = true) ∨
        ∃ proto src dst sport dport, line = tcpLine proto src dst sport dport ∧ Taken proto src dst sport dport := by
  constructor
  · intro accepted
    have whole := unfields_fieldsOf line
    have plain : ∀ x ∈ fieldsOf line, SP ∉ x := fun x member => not_mem_fieldsOf member
    rw [parseLine] at accepted
    generalize fieldsOf line = words at accepted whole plain
    rcases words with _ | ⟨proxy, _ | ⟨proto, rest⟩⟩
    · cases accepted
    · cases accepted
    · dsimp only at accepted
      by_cases named : proxy = ascii "PROXY".toList
      · rw [if_neg (not_not.mpr named)] at accepted
        by_cases unknown : proto = ascii "UNKNOWN".toList
        · left
          subst named
          subst unknown
          cases rest with
          | nil => exact ⟨[], by rw [← whole]; rfl, rfl⟩
          | cons x xs => exact ⟨SP :: unfields (x :: xs), by rw [← whole]; rfl, rfl⟩
        · rw [if_neg unknown] at accepted
          by_cases stated : proto ≠ ascii "TCP4".toList ∧ proto ≠ ascii "TCP6".toList
          · rw [if_pos stated] at accepted
            cases accepted
          · rw [if_neg stated] at accepted
            split at accepted
            · rename_i srcText dstText sportText dportText
              right
              subst named
              refine ⟨proto, srcText, dstText, sportText, dportText, whole.symm, ?_⟩
              cases a_text : parseAddr srcText with
              | none =>
                rw [a_text] at accepted
                cases accepted
              | some a =>
                cases b_text : parseAddr dstText with
                | none =>
                  rw [a_text, b_text] at accepted
                  cases accepted
                | some b =>
                  simp only [a_text, b_text] at accepted
                  by_cases same : decide (proto = ascii "TCP4".toList) = (is4 a && is4 b)
                  · rw [if_neg (not_not.mpr same)] at accepted
                    cases sport_ok : parsePort sportText with
                    | none =>
                      rw [sport_ok] at accepted
                      cases accepted
                    | some sport =>
                      cases dport_ok : parsePort dportText with
                      | none =>
                        rw [sport_ok, dport_ok] at accepted
                        cases accepted
                      | some dport =>
                        exact taken_of_read stated (plain _ (by simp)) (plain _ (by simp)) a_text b_text same
                          (parsePort_iff.mp sport_ok).1 (parsePort_iff.mp dport_ok).1
                  · rw [if_pos same] at accepted
                    cases accepted
            · cases accepted
      · rw [if_pos named] at accepted
        cases accepted
  · rintro (⟨rest, rfl, space⟩ | ⟨proto, src, dst, sport, dport, rfl, taken⟩)
    · rw [parseLine_unknown space]
    · exact taken.accepted

/-- What the parser takes is in the grammar, or one of the lines it should not take. -/
theorem Taken.cases (taken : Taken proto src dst sport dport) :
    V1 (tcpLine proto src dst sport dport) ∨ Slack (tcpLine proto src dst sport dport) := by
  by_cases loose : Padded sport ∨ Padded dport ∨ (proto = TCP6 ∧ (V4 src ∨ V4 dst ∨ V6Zoned src ∨ V6Zoned dst))
  · exact .inr ⟨proto, src, dst, sport, dport, rfl, taken, loose⟩
  · simp only [not_or, not_and] at loose
    obtain ⟨sport_plain, dport_plain, six_plain⟩ := loose
    obtain ⟨p, rfl⟩ := (portText_cases taken.sport').resolve_left sport_plain
    obtain ⟨q, rfl⟩ := (portText_cases taken.dport').resolve_left dport_plain
    rcases taken.family with ⟨rfl, src4, dst4⟩ | ⟨rfl, _⟩
    · exact .inl (.tcp4 p q src4 dst4)
    · obtain ⟨src4, dst4, srcZone, dstZone⟩ := six_plain rfl
      exact .inl (.tcp6 p q ((taken.srcText.resolve_left src4).resolve_right srcZone)
        ((taken.dstText.resolve_left dst4).resolve_right dstZone))

theorem V4.not_mem (text : V4 s) : SP ∉ s := by
  obtain ⟨ip, _, rfl⟩ := text
  exact not_mem_dotted (by decide)

theorem V6.not_mem (text : V6 s) : SP ∉ s := by
  obtain ⟨ip, text⟩ := text
  exact text.not_mem (by decide)

theorem Taken.tcp4 (sport dport : UInt16) (src4 : V4 src) (dst4 : V4 dst) :
    Taken TCP4 src dst (decimal sport.toNat) (decimal dport.toNat) :=
  ⟨src4.not_mem, dst4.not_mem, portText_decimal sport, portText_decimal dport, .inl src4, .inl dst4,
    .inl ⟨rfl, src4, dst4⟩⟩

theorem Taken.tcp6 (sport dport : UInt16) (src6 : V6 src) (dst6 : V6 dst) :
    Taken TCP6 src dst (decimal sport.toNat) (decimal dport.toNat) :=
  ⟨src6.not_mem, dst6.not_mem, portText_decimal sport, portText_decimal dport, .inr (.inl src6), .inr (.inl dst6),
    .inr ⟨rfl, fun both => src6.not_V4 both.1⟩⟩

theorem V1.accepted (text : V1 line) : (parseLine line).err = none := by
  cases text with
  | unknown rest space => rw [parseLine_unknown space]
  | tcp4 sport dport src4 dst4 => exact (Taken.tcp4 sport dport src4 dst4).accepted
  | tcp6 sport dport src6 dst6 => exact (Taken.tcp6 sport dport src6 dst6).accepted

theorem tcpLine_ne_unknown (taken : Taken proto src dst sport dport) (space : rest.head?.all (fun c => c = SP) = true) :
    tcpLine proto src dst sport dport ≠ ascii "PROXY UNKNOWN".toList ++ rest := by
  intro same
  have words := taken.fieldsOf
  obtain ⟨others, unknown⟩ := fieldsOf_unknown space
  rw [same, unknown] at words
  have second : proto = ascii "UNKNOWN".toList := (List.cons.inj (List.cons.inj words).2).1.symm
  rcases taken.proto' with rfl | rfl <;> exact absurd second (by decide)

theorem tcpLine_inj {proto' src' dst' sport' dport' : Bytes} (taken : Taken proto src dst sport dport)
    (other : Taken proto' src' dst' sport' dport')
    (same : tcpLine proto src dst sport dport = tcpLine proto' src' dst' sport' dport') :
    proto = proto' ∧ src = src' ∧ dst = dst' ∧ sport = sport' ∧ dport = dport' := by
  have words := taken.fieldsOf
  rw [same, other.fieldsOf] at words
  simp only [List.cons.injEq, true_and, and_true] at words
  obtain ⟨one, two, three, four, five⟩ := words
  exact ⟨one.symm, two.symm, three.symm, four.symm, five.symm⟩

theorem Slack.not_V1 (slack : Slack line) : ¬ V1 line := by
  intro text
  obtain ⟨proto, src, dst, sport, dport, same, taken, loose⟩ := slack
  cases text with
  | unknown rest space => exact tcpLine_ne_unknown taken space same.symm
  | tcp4 p q src4 dst4 =>
    obtain ⟨rfl, rfl, rfl, rfl, rfl⟩ := tcpLine_inj taken (.tcp4 p q src4 dst4) same.symm
    rcases loose with padded | padded | ⟨six, _⟩
    · exact not_padded_decimal _ padded
    · exact not_padded_decimal _ padded
    · exact absurd six (by decide)
  | tcp6 p q src6 dst6 =>
    obtain ⟨rfl, rfl, rfl, rfl, rfl⟩ := tcpLine_inj taken (.tcp6 p q src6 dst6) same.symm
    rcases loose with padded | padded | ⟨_, four | four | zoned | zoned⟩
    · exact not_padded_decimal _ padded
    · exact not_padded_decimal _ padded
    · exact src6.not_V4 four
    · exact dst6.not_V4 four
    · exact zoned.not_V6 src6
    · exact zoned.not_V6 dst6

theorem Slack.accepted (slack : Slack line) : (parseLine line).err = none := by
  obtain ⟨proto, src, dst, sport, dport, rfl, taken, _⟩ := slack
  exact taken.accepted

theorem parseLine_ok_cases : (parseLine line).err = none ↔ V1 line ∨ Slack line := by
  constructor
  · intro accepted
    rcases parseLine_ok_iff.mp accepted with ⟨rest, rfl, space⟩ | ⟨_, _, _, _, _, rfl, taken⟩
    · exact .inl (.unknown rest space)
    · exact taken.cases
  · rintro (text | slack)
    · exact text.accepted
    · exact slack.accepted

end Families

/-- The first line of what a peer sends, no longer than the text form allows. -/
def Sends (br : Buffered ConnErr) (line : Bytes) : Prop :=
  ∃ rest, br.unread = line ++ CRLF ++ rest ∧ LF ∉ line ∧ (line ++ CRLF).length ≤ v1MaxLen

/-- Exactly the grammar is accepted, and what is refused names no client. -/
def Exact (br : Buffered ConnErr) : Prop :=
  ((parseV1 br).1.err = none ↔ ∃ line, Sends br line ∧ V1 line) ∧
    ((parseV1 br).1.err ≠ none → (parseV1 br).1.header = {})

section FirstLine
variable {br : Buffered ConnErr} {line other : Bytes}

theorem Sends.parseV1 (sends : Sends br line) (room : v1MaxLen ≤ br.size) : (parseV1 br).1 = parseLine line := by
  obtain ⟨rest, unread, plain, fits⟩ := sends
  have short : line.length ≤ 105 := by
    rw [List.length_append] at fits
    simp only [v1MaxLen, CRLF, List.length_cons, List.length_nil] at fits
    omega
  exact (parseV1_line plain short room unread).1

theorem Sends.unique (sends : Sends br line) (again : Sends br other) : line = other := by
  obtain ⟨rest, unread, plain, _⟩ := sends
  obtain ⟨rest', unread', plain', _⟩ := again
  have cut {line : Bytes} (plain : LF ∉ line) (rest : Bytes) : firstLine LF (line ++ CRLF ++ rest) = (line ++ CRLF, rest) := by
    have split : line ++ CRLF ++ rest = (line ++ [CR]) ++ (LF :: rest) := by simp [CRLF]
    have apart : LF ≠ CR := by decide
    rw [split, firstLine_append_of_not_mem (by simp [plain, apart])]
    simp [firstLine, CRLF]
  have same := cut plain rest
  rw [← unread, unread', cut plain' rest'] at same
  exact (List.append_cancel_right (Prod.mk.inj same).1).symm

theorem sends_of_parseV1 (accepted : (parseV1 br).1.err = none) : ∃ line, Sends br line := by
  simp only [parseV1] at accepted
  split at accepted
  · cases accepted
  · cases accepted
  · cases accepted
  · rename_i line read
    obtain ⟨ended, same, _, _⟩ := Buffered.readSlice_ok read
    split at accepted
    · cases accepted
    · rename_i short
      split at accepted
      · cases accepted
      · rename_i suffix
        obtain ⟨body, whole⟩ := not_not.mp suffix
        obtain ⟨stem, plain, cut⟩ := firstLine_of_mem ended
        have lengths : stem ++ [LF] = (body ++ [CR]) ++ [LF] := by
          rw [← cut, ← same, ← whole]
          simp [CRLF]
        have inner : stem = body ++ [CR] := List.append_cancel_right lengths
        refine ⟨body, (firstLine LF br.unread).2, ?_, ?_, ?_⟩
        · rw [whole, same, firstLine_append]
        · rw [inner] at plain
          exact fun member => plain (List.mem_append_left _ member)
        · rw [whole]
          omega

theorem parseV1_ok_iff (room : v1MaxLen ≤ br.size) :
    (parseV1 br).1.err = none ↔ ∃ line, Sends br line ∧ (V1 line ∨ Slack line) := by
  constructor
  · intro accepted
    obtain ⟨line, sends⟩ := sends_of_parseV1 accepted
    rw [sends.parseV1 room] at accepted
    exact ⟨line, sends, parseLine_ok_cases.mp accepted⟩
  · rintro ⟨line, sends, text⟩
    rw [sends.parseV1 room]
    exact parseLine_ok_cases.mpr text

theorem parseLine_refused (refused : (parseLine line).err ≠ none) : (parseLine line).header = {} := by
  revert refused
  fun_cases parseLine line <;> intro refused
  all_goals first | rfl | exact absurd rfl refused

theorem parseV1_refused (refused : (parseV1 br).1.err ≠ none) : (parseV1 br).1.header = {} := by
  simp only [parseV1] at refused ⊢
  split at refused
  · rfl
  · rfl
  · rfl
  · split at refused
    · rename_i long
      rw [if_pos long]
      rfl
    · rename_i short
      rw [if_neg short]
      split at refused
      · rename_i open_
        rw [if_pos open_]
        rfl
      · rename_i ended
        rw [if_neg ended]
        exact parseLine_refused refused

/-- A peer sends an IPv4 source address beside an IPv6 destination. -/
theorem mixed_families_pass :
    let line := ascii "PROXY TCP6 192.0.2.1 2001:db8::2 5000 25".toList
    let br : Buffered ConnErr := { size := hdrBufSize, rd := ⟨[((80 : UInt8), line.drop 1 ++ CRLF)], .eof⟩ }
    v1Prefix <+: br.unread ∧ ¬ Exact br := by
  intro line br
  refine ⟨by decide, fun ⟨exactly, _⟩ => ?_⟩
  obtain ⟨other, sends, text⟩ := exactly.mp (by decide)
  have whole : Sends br line := ⟨[], by decide, by decide, by decide⟩
  have words : fieldsOf line = [ascii "PROXY".toList, TCP6, dotted [192, 0, 2, 1], ascii "2001:db8::2".toList,
      ascii "5000".toList, ascii "25".toList] := by decide
  rw [← whole.unique sends] at text
  generalize line = line at text words
  cases text with
  | unknown rest space =>
    obtain ⟨others, unknown⟩ := fieldsOf_unknown space
    rw [unknown] at words
    exact absurd (List.cons.inj (List.cons.inj words).2).1 (by decide)
  | tcp4 p q src4 dst4 =>
    rw [(Taken.tcp4 p q src4 dst4).fieldsOf] at words
    exact absurd (List.cons.inj (List.cons.inj words).2).1 (by decide)
  | tcp6 p q src6 dst6 =>
    rw [(Taken.tcp6 p q src6 dst6).fieldsOf] at words
    have src := (List.cons.inj (List.cons.inj (List.cons.inj words).2).2).1
    exact src6.not_V4 ⟨[192, 0, 2, 1], rfl, src⟩

/-- Exactly the grammar is accepted unless the first line has a port with leading zeros, a zone, or an
    IPv4 address in an IPv6 line. -/
theorem exact_iff (br : Buffered ConnErr) (room : v1MaxLen ≤ br.size) :
    Exact br ↔ ¬ ∃ line, Sends br line ∧ Slack line := by
  constructor
  · rintro ⟨exactly, _⟩ ⟨line, sends, slack⟩
    obtain ⟨other, again, text⟩ := exactly.mp ((parseV1_ok_iff room).mpr ⟨line, sends, .inr slack⟩)
    rw [← sends.unique again] at text
    exact slack.not_V1 text
  · intro strict
    refine ⟨?_, parseV1_refused⟩
    rw [parseV1_ok_iff room]
    constructor
    · rintro ⟨line, sends, text | slack⟩
      · exact ⟨line, sends, text⟩
      · exact absurd ⟨line, sends, slack⟩ strict
    · rintro ⟨line, sends, text⟩
      exact ⟨line, sends, .inl text⟩

/-- An ordinary line, of which the first read brings one byte. -/
theorem exact_iff_sample :
    let line := ascii "PROXY TCP4 192.0.2.1 192.0.2.2 5000 25".toList
    let br : Buffered ConnErr := { size := hdrBufSize, rd := ⟨[((80 : UInt8), []), (82, line.drop 2 ++ CRLF)], .eof⟩ }
    Exact br ∧ (parseV1 br).1.err = none := by
  intro line br
  have whole : Sends br line := ⟨[], by decide, by decide, by decide⟩
  have text : V1 line := by
    have same : line = tcpLine TCP4 (dotted [192, 0, 2, 1]) (dotted [192, 0, 2, 2]) (decimal 5000) (decimal 25) := by decide
    rw [same]
    exact .tcp4 5000 25 ⟨_, rfl, rfl⟩ ⟨_, rfl, rfl⟩
  have strict : ¬ ∃ line, Sends br line ∧ Slack line := by
    rintro ⟨other, sends, slack⟩
    rw [← whole.unique sends] at slack
    exact slack.not_V1 text
  have exactly := (exact_iff br (by decide)).mpr strict
  exact ⟨exactly, exactly.1.mpr ⟨line, whole, text⟩⟩

end FirstLine

end Mailgw.Proxyproto
