import Mailgw.Proxyproto.Hextets

namespace Mailgw.Proxyproto

open Bits Text
open Deliver (Bytes)
open Rules (Addr)

def Mark (c : UInt8) : Bool := c ∈ [DOT, COLON, PERCENT]

section Marks
variable {ip left right rest s t zone : Bytes} {c : UInt8}

theorem mark_of_isHex (hex : isHex c = true) : Mark c = false := by
  cases mark : Mark c with
  | false => rfl
  | true =>
    have cases : c = DOT ∨ c = COLON ∨ c = PERCENT := by simpa [Mark] using mark
    rcases cases with rfl | rfl | rfl <;> exact absurd hex (by decide)

theorem find_mark (plain : ∀ b ∈ t, isHex b = true) (mark : Mark c = true) :
    (t ++ c :: rest).find? Mark = some c := by
  rw [List.find?_append, List.find?_eq_none.mpr fun b member => by simp [mark_of_isHex (plain b member)],
    List.find?_cons_of_pos mark]
  rfl

theorem find_dotted (four : ip.length = 4) : (dotted ip).find? Mark = some DOT := by
  obtain ⟨group, rest, later⟩ := dotted_split four
  have whole := List.takeWhile_append_dropWhile (p := isHex) (l := dotted ip)
  rw [later] at whole
  rw [← whole]
  exact find_mark group.hex (by decide)

theorem find_v6Text (text : V6Text ip s) : s.find? Mark = some COLON := by
  cases text with
  | leading _ _ => rfl
  | full groups full =>
    cases groups with
    | last _ => simp at full
    | embedded four => omega
    | cons group _ => exact find_mark group.hex (by decide)
  | elided elided _ =>
    cases elided with
    | here group _ => exact find_mark group.hex (by decide)
    | cons group _ => exact find_mark group.hex (by decide)

def Plain6 (c : UInt8) : Prop := isHex c = true ∨ c = COLON ∨ c = DOT

theorem Groups.mem (groups : Groups ip s) : ∀ c ∈ s, Plain6 c := by
  induction groups with
  | last group => exact fun c member => .inl (group.hex c member)
  | embedded _ =>
    intro c member
    rcases mem_dotted member with digits | dot
    · exact .inl (isHex_of_isDigit digits)
    · exact .inr (.inr dot)
  | cons group _ ih =>
    intro c member
    rcases List.mem_append.mp member with first | later
    · exact .inl (group.hex c first)
    · rcases List.mem_cons.mp later with colon | later
      · exact .inr (.inl colon)
      · exact ih c later

theorem Tail.mem (tail : Tail ip s) : ∀ c ∈ s, Plain6 c := by
  rcases tail with ⟨_, rfl⟩ | groups
  · simp
  · exact groups.mem

theorem Elided.mem (elided : Elided left right s) : ∀ c ∈ s, Plain6 c := by
  induction elided with
  | here group tail =>
    intro c member
    rcases List.mem_append.mp member with first | later
    · exact .inl (group.hex c first)
    · rcases List.mem_cons.mp later with colon | later
      · exact .inr (.inl colon)
      · rcases List.mem_cons.mp later with colon | later
        · exact .inr (.inl colon)
        · exact tail.mem c later
  | cons group _ ih =>
    intro c member
    rcases List.mem_append.mp member with first | later
    · exact .inl (group.hex c first)
    · rcases List.mem_cons.mp later with colon | later
      · exact .inr (.inl colon)
      · exact ih c later

theorem V6Text.mem (text : V6Text ip s) : ∀ c ∈ s, Plain6 c := by
  cases text with
  | full groups _ => exact groups.mem
  | elided elided _ => exact elided.mem
  | leading tail _ =>
    intro c member
    rcases List.mem_cons.mp member with colon | later
    · exact .inr (.inl colon)
    · rcases List.mem_cons.mp later with colon | later
      · exact .inr (.inl colon)
      · exact tail.mem c later

theorem V6Text.not_mem (text : V6Text ip s) (other : isHex c = false ∧ c ≠ COLON ∧ c ≠ DOT) : c ∉ s := by
  intro member
  rcases text.mem c member with hex | colon | dot
  · rw [other.1] at hex
    cases hex
  · exact other.2.1 colon
  · exact other.2.2 dot

theorem V6Text.no_percent (text : V6Text ip s) : PERCENT ∉ s := text.not_mem (by decide)

end Marks

section Addresses
variable {ip s zone : Bytes} {a : Addr}

def Zoned (ip zone s : Bytes) : Prop :=
  (zone = [] ∧ V6Text ip s) ∨ ∃ text, zone ≠ [] ∧ V6Text ip text ∧ s = text ++ PERCENT :: zone

theorem parseIPv6_iff : parseIPv6 s = some a ↔ ∃ ip zone, Zoned ip zone s ∧ a = withZone zone (addrFrom16 ip) := by
  by_cases percent : PERCENT ∈ s
  · obtain ⟨text, zone, rfl, plain⟩ := List.eq_append_cons_of_mem percent
    simp only [parseIPv6, takeWhile_sep plain, dropWhile_sep plain, List.tail_cons, percent, true_and]
    constructor
    · intro read
      split at read
      · cases read
      · rename_i some
        obtain ⟨ip, fields, rfl⟩ := Option.map_eq_some_iff.mp read
        exact ⟨ip, zone, .inr ⟨text, some, parseIPv6Fields_eq_some.mp fields, rfl⟩, rfl⟩
    · rintro ⟨ip, zone', zoned, rfl⟩
      rcases zoned with ⟨_, whole⟩ | ⟨text', some, read, same⟩
      · exact absurd percent whole.no_percent
      · obtain ⟨rfl, rfl⟩ := append_sep_inj plain read.no_percent same
        rw [if_neg some, parseIPv6Fields_eq_some.mpr read]
        rfl
  · have whole : s.takeWhile (· ≠ PERCENT) = s ∧ s.dropWhile (· ≠ PERCENT) = [] := by
      have others (b : UInt8) (member : b ∈ s) : decide (b ≠ PERCENT) = true :=
        decide_eq_true fun same => percent (same ▸ member)
      exact ⟨List.takeWhile_eq_self_iff.mpr others, List.dropWhile_eq_nil_iff.mpr others⟩
    simp only [parseIPv6, whole, percent, false_and, if_false, List.tail_nil, Option.map_eq_some_iff,
      parseIPv6Fields_eq_some]
    constructor
    · rintro ⟨ip, text, rfl⟩
      exact ⟨ip, [], .inl ⟨rfl, text⟩, rfl⟩
    · rintro ⟨ip, zone, ⟨rfl, text⟩ | ⟨text, _, _, rfl⟩, rfl⟩
      · exact ⟨ip, text, rfl⟩
      · exact absurd (by simp) percent

theorem parseIPv4_iff : parseIPv4 s = some a ↔ ∃ ip, ip.length = 4 ∧ s = dotted ip ∧ a = addrFrom4 ip := by
  simp only [parseIPv4, Option.map_eq_some_iff, parseIPv4Fields_eq_some]
  constructor
  · rintro ⟨ip, ⟨four, whole⟩, rfl⟩
    exact ⟨ip, four, whole, rfl⟩
  · rintro ⟨ip, four, whole, rfl⟩
    exact ⟨ip, ⟨four, whole⟩, rfl⟩

theorem find_zoned (zoned : Zoned ip zone s) : s.find? Mark = some COLON := by
  rcases zoned with ⟨_, text⟩ | ⟨text, _, read, rfl⟩
  · exact find_v6Text text
  · rw [List.find?_append, find_v6Text read]
    rfl

theorem parseAddr_iff :
    parseAddr s = some a ↔
      (∃ ip, ip.length = 4 ∧ s = dotted ip ∧ a = addrFrom4 ip) ∨
        ∃ ip zone, Zoned ip zone s ∧ a = withZone zone (addrFrom16 ip) := by
  have mark : (fun c : UInt8 => decide (c ∈ [DOT, COLON, PERCENT])) = Mark := rfl
  rw [parseAddr, mark]
  constructor
  · intro read
    split at read
    · cases read
    · split at read
      · exact .inl (parseIPv4_iff.mp read)
      · split at read
        · exact .inr (parseIPv6_iff.mp read)
        · cases read
  · rintro (⟨ip, four, rfl, rfl⟩ | ⟨ip, zone, zoned, rfl⟩)
    · simp only [find_dotted four, if_true]
      exact parseIPv4_iff.mpr ⟨ip, four, rfl, rfl⟩
    · have other : ¬ COLON = DOT := by decide
      simp only [find_zoned zoned, if_neg other, if_true]
      exact parseIPv6_iff.mpr ⟨ip, zone, zoned, rfl⟩

theorem withZone_nil (ip : Bytes) : withZone [] (addrFrom16 ip) = addrFrom16 ip := rfl

end Addresses

end Mailgw.Proxyproto

