import Mailgw.Events.ParseDelivery

namespace Mailgw.Events

open Text Text.Pattern

def Plain (s : Chars) : Prop := s ≠ [] ∧ ∀ c ∈ s, addressChar c = true

def Mailbox (s : Chars) : Prop := ∃ user domain, s = user ++ '@' :: domain ∧ Plain user ∧ Plain domain

/-- ASCII letters, digits and hyphens, with no hyphen at either end. -/
def Label (s : Chars) : Prop :=
  s ≠ [] ∧ (∀ c ∈ s, isAlnum c = true ∨ c = '-') ∧ s.head? ≠ some '-' ∧ s.getLast? ≠ some '-'

inductive DomainName : Chars → Prop where
  | label {s : Chars} (label : Label s) : DomainName s
  | dot {s t : Chars} (first : Label s) (rest : DomainName t) : DomainName (s ++ '.' :: t)

def AddressLiteral (s : Chars) : Prop :=
  ∃ opening core closing, s = opening ++ (core ++ closing) ∧ (opening = ['['] ∨ opening = []) ∧
    (core ≠ [] ∧ ∀ c ∈ core, addressPart c = true) ∧ (closing = [']'] ∨ closing = [])

def HostName (s : Chars) : Prop := AddressLiteral s ∨ DomainName s

theorem isAlnum_ne_hyphen {c : Char} (alnum : isAlnum c = true) : c ≠ '-' := by
  rintro rfl
  exact absurd alnum (by decide)

theorem label_iff (s : Chars) : labelPattern.Matches s ↔ Label s := by
  simp only [labelPattern, matches_seq, matches_one, matches_optional, matches_many_one]
  constructor
  · rintro ⟨x, y, rfl, ⟨c, rfl, first⟩, ⟨middle, last, rfl, inner, d, rfl, final⟩ | rfl⟩
    · refine ⟨by simp, ?_, ?_, ?_⟩
      · intro e member
        simp only [List.mem_append, List.mem_singleton] at member
        rcases member with rfl | within | rfl
        · exact .inl first
        · simpa using inner e within
        · exact .inl final
      · simpa using isAlnum_ne_hyphen first
      · rw [← List.append_assoc, List.getLast?_concat]
        simpa using isAlnum_ne_hyphen final
    · refine ⟨by simp, ?_, ?_, ?_⟩
      · simp [first]
      · simpa using isAlnum_ne_hyphen first
      · simpa using isAlnum_ne_hyphen first
  · rintro ⟨nonempty, all, head, last⟩
    obtain ⟨c, rest, rfl⟩ := List.exists_cons_of_ne_nil nonempty
    have first : isAlnum c = true := (all c (by simp)).resolve_right (by simpa using head)
    refine ⟨[c], rest, rfl, ⟨c, rfl, first⟩, ?_⟩
    rcases List.eq_nil_or_concat rest with rfl | ⟨middle, d, rfl⟩
    · exact .inr rfl
    · left
      rw [List.concat_eq_append] at *
      refine ⟨middle, [d], rfl, fun e within => ?_, d, rfl, ?_⟩
      · simpa using all e (by simp [within])
      · apply (all d (by simp)).resolve_right
        rw [← List.cons_append, List.getLast?_concat] at last
        simpa using last

theorem domainName_iff (s : Chars) :
    Matches (.seq labelPattern (.many (.seq (.char '.') labelPattern))) s ↔ DomainName s := by
  constructor
  · intro matched
    obtain ⟨x, y, rfl, first, rest⟩ := matches_seq.mp matched
    rw [label_iff] at first
    generalize same : Pattern.many (.seq (.char '.') labelPattern) = p at rest
    induction rest generalizing x with
    | stop =>
      rw [List.append_nil]
      exact .label first
    | again head _ _ ih =>
      cases same
      obtain ⟨dot, label, rfl, isDot, labelled⟩ := matches_seq.mp head
      obtain rfl := matches_char.mp isDot
      have next := (label_iff label).mp labelled
      have tail := ih label (.seq labelled ‹_›) next rfl
      have whole := DomainName.dot first tail
      simpa using whole
    | _ => cases same
  · intro name
    induction name with
    | label label =>
      rename_i s
      rw [← List.append_nil s]
      exact .seq ((label_iff _).mpr label) .stop
    | dot first rest ih =>
      obtain ⟨x, y, rfl, label, others⟩ := matches_seq.mp ih
      apply Matches.seq ((label_iff _).mpr first)
      have dotted : Matches (.seq (.char '.') labelPattern) ('.' :: x) :=
        .seq (s := ['.']) (matches_char.mpr rfl) label
      exact .again dotted others

theorem hostName_iff (s : Chars) : hostPattern.isMatch s = true ↔ HostName s := by
  rw [isMatch_iff, hostPattern, matches_alt, domainName_iff]
  simp only [matches_seq, matches_optional, matches_char, matches_some_one]
  apply or_congr _ Iff.rfl
  constructor
  · rintro ⟨opening, _, rfl, opens, core, closing, rfl, inner, closes⟩
    exact ⟨opening, core, closing, rfl, opens, inner, closes⟩
  · rintro ⟨opening, core, closing, rfl, opens, inner, closes⟩
    exact ⟨opening, core ++ closing, rfl, opens, core, closing, rfl, inner, closes⟩

theorem mailbox_iff (s : Chars) : emailPattern.isMatch s = true ↔ Mailbox s := by
  rw [isMatch_iff, emailPattern]
  simp only [matches_seq, matches_optional, matches_char, matches_some_one, matches_many_one]
  constructor
  · rintro ⟨user, _, rfl, plain, _, _, rfl, rfl, domain, _, rfl, ⟨nonempty, chars⟩, dot, rest, rfl, isDot, others⟩
    refine ⟨user, domain ++ (dot ++ rest), by simp, plain, by simp [nonempty], ?_⟩
    intro c member
    simp only [List.mem_append] at member
    rcases member with first | second | third
    · exact chars c first
    · rcases isDot with rfl | rfl
      · simp only [List.mem_singleton] at second
        subst second
        decide
      · cases second
    · exact others c third
  · rintro ⟨user, domain, rfl, plain, other⟩
    exact ⟨user, '@' :: domain, rfl, plain, ['@'], domain, rfl, rfl, domain, [], by simp, other, [], [], rfl,
      .inr rfl, by simp⟩

theorem addressPart_plain {c : Char} (part : addressPart c = true) : addressChar c = true := by
  by_contra other
  simp only [addressChar, isBlank, Bool.and_eq_true, Bool.not_eq_true', Bool.or_eq_false_iff, bne_iff_ne, ne_eq,
    beq_eq_false_iff_ne, not_and_or, not_not] at other
  rcases other with (((((rfl | rfl) | rfl) | rfl) | rfl) | rfl) | rfl <;> exact absurd part (by decide)

theorem isAlnum_plain {c : Char} (alnum : isAlnum c = true) : addressChar c = true := by
  by_contra other
  simp only [addressChar, isBlank, Bool.and_eq_true, Bool.not_eq_true', Bool.or_eq_false_iff, bne_iff_ne, ne_eq,
    beq_eq_false_iff_ne, not_and_or, not_not] at other
  rcases other with (((((rfl | rfl) | rfl) | rfl) | rfl) | rfl) | rfl <;> exact absurd alnum (by decide)

theorem Label.plain {s : Chars} (label : Label s) : Plain s := by
  refine ⟨label.1, fun c member => ?_⟩
  rcases label.2.1 c member with alnum | rfl
  · exact isAlnum_plain alnum
  · decide

theorem HostName.plain {s : Chars} (host : HostName s) : Plain s := by
  rcases host with ⟨opening, core, closing, rfl, opens, ⟨nonempty, parts⟩, closes⟩ | name
  · refine ⟨by simp [nonempty], fun c member => ?_⟩
    simp only [List.mem_append] at member
    rcases member with first | middle | last
    · rcases opens with rfl | rfl
      · rw [List.mem_singleton.mp first]
        decide
      · cases first
    · exact addressPart_plain (parts c middle)
    · rcases closes with rfl | rfl
      · rw [List.mem_singleton.mp last]
        decide
      · cases last
  · induction name with
    | label label => exact label.plain
    | dot first _ ih =>
      refine ⟨by simp, fun c member => ?_⟩
      simp only [List.mem_append, List.mem_cons] at member
      rcases member with early | rfl | late
      · exact first.plain.2 c early
      · decide
      · exact ih.2 c late

theorem Plain.no_at {s : Chars} (plain : Plain s) : '@' ∉ s := by
  intro member
  exact absurd (plain.2 '@' member) (by decide)

/-- A recipient the log takes: a plain local part at a host name. -/
def Loggable (addr : Chars) : Prop := ∃ user domain, addr = user ++ '@' :: domain ∧ Plain user ∧ HostName domain

theorem loggable_iff (addr : Chars) :
    Loggable addr ↔ hostPattern.isMatch (domainOf addr) = true ∧ emailPattern.isMatch addr = true := by
  rw [hostName_iff, mailbox_iff]
  constructor
  · rintro ⟨user, domain, rfl, plain, host⟩
    rw [domainOf_append host.plain.no_at]
    exact ⟨host, user, domain, rfl, plain, host.plain⟩
  · rintro ⟨host, user, domain, rfl, plain, other⟩
    rw [domainOf_append other.no_at] at host
    exact ⟨user, domain, rfl, plain, host⟩

theorem byteLength_pos {s : Chars} (nonempty : s ≠ []) : 1 ≤ byteLength s := by
  obtain ⟨c, rest, rfl⟩ := List.exists_cons_of_ne_nil nonempty
  have size := Char.utf8Size_pos c
  simp only [byteLength, List.map_cons, List.sum_cons]
  omega

/-- Cuts a text after so many bytes. The bytes of a character that was cut apart turn up as one
    replacement character each. -/
def cutBytes (room : Nat) : Chars → Chars
  | [] => []
  | c :: rest =>
    if c.utf8Size ≤ room then c :: cutBytes (room - c.utf8Size) rest else List.replicate room '\uFFFD'

def gatewayLabelMax : Nat := 64

def gatewayLabel (label : Chars) : Chars :=
  if gatewayLabelMax < byteLength label then cutBytes gatewayLabelMax label else label

/-- A cut leaves no more bytes than there was room exactly when it falls between two characters. -/
theorem byteLength_cutBytes {room : Nat} {s : Chars} (long : room < byteLength s) :
    byteLength (cutBytes room s) ≤ room ↔ ∃ kept, kept <+: s ∧ byteLength kept = room := by
  induction s generalizing room with
  | nil => cases long
  | cons c rest ih =>
    have size := Char.utf8Size_pos c
    simp only [byteLength, List.map_cons, List.sum_cons] at long
    rw [cutBytes]
    split
    · rename_i fits
      have remaining : room - c.utf8Size < byteLength rest := by
        simp only [byteLength]
        omega
      have lengths : byteLength (c :: cutBytes (room - c.utf8Size) rest) ≤ room ↔
          byteLength (cutBytes (room - c.utf8Size) rest) ≤ room - c.utf8Size := by
        simp only [byteLength, List.map_cons, List.sum_cons]
        omega
      rw [lengths, ih remaining]
      clear ih
      constructor
      · rintro ⟨kept, front, exact_⟩
        refine ⟨c :: kept, List.cons_prefix_cons.mpr ⟨rfl, front⟩, ?_⟩
        simp only [byteLength, List.map_cons, List.sum_cons] at exact_ ⊢
        omega
      · rintro ⟨kept, front, exact_⟩
        cases kept with
        | nil =>
          simp only [byteLength, List.map_nil, List.sum_nil] at exact_
          omega
        | cons d kept =>
          obtain ⟨rfl, others⟩ := List.cons_prefix_cons.mp front
          refine ⟨kept, others, ?_⟩
          simp only [byteLength, List.map_cons, List.sum_cons] at exact_ ⊢
          omega
    · rename_i wide
      have replaced : byteLength (List.replicate room '\uFFFD') = room * 3 := by
        simp [byteLength, show Char.utf8Size '\uFFFD' = 3 from rfl]
      rw [replaced]
      constructor
      · intro short
        have none_ : room = 0 := by omega
        exact ⟨[], List.nil_prefix, none_ ▸ rfl⟩
      · rintro ⟨kept, front, exact_⟩
        cases kept with
        | nil =>
          simp only [byteLength, List.map_nil, List.sum_nil] at exact_
          omega
        | cons d kept =>
          obtain ⟨rfl, -⟩ := List.cons_prefix_cons.mp front
          simp only [byteLength, List.map_cons, List.sum_cons] at exact_
          omega

theorem gatewayLabel_fits (label : Chars) : byteLength (gatewayLabel label) ≤ gatewayLabelMax ↔
    (byteLength label ≤ gatewayLabelMax ∨ ∃ kept, kept <+: label ∧ byteLength kept = gatewayLabelMax) := by
  unfold gatewayLabel
  split
  · rename_i long
    rw [byteLength_cutBytes long]
    simp [Nat.not_le.mpr long]
  · rename_i short
    simp [Nat.not_lt.mp short]

theorem parseDelivery_iff (d : Delivery) : parseDelivery d.decoded = .ok d.decoded ↔
    (d.sender = [] ∨ Mailbox d.sender) ∧ HostName d.rcptDomain ∧ Mailbox d.rcptList ∧ Mailbox d.rcptAccepted ∧
      HostName d.host ∧ byteLength d.host ≤ 255 ∧ validIP d.ip = true ∧ portPattern.isMatch d.port = true ∧
      byteLength d.gateway ≤ 64 ∧ byteLength d.routeRule ≤ 255 := by
  have passes : parseDelivery d.decoded = .ok d.decoded ↔ d.decoded.validate = .ok () := by
    unfold parseDelivery
    cases outcome : d.decoded.validate with
    | error err => simp [Bind.bind, Except.bind]
    | ok done => simp [Bind.bind, Except.bind, Pure.pure, Except.pure]
  have omitted : ∀ (s : Chars) (max : Nat), ((omitEmpty s).all fun s => byteLength s ≤ max) = true ↔ byteLength s ≤ max := by
    intro s max
    unfold omitEmpty
    split
    · rename_i empty
      simp [empty, byteLength]
    · simp
  rw [passes, Parsed.validate]
  simp only [expect_bind_ok, expect_ok, omitted, Delivery.decoded, Option.isSome_some, Option.any_some, true_and,
    hostName_iff, mailbox_iff, Bool.or_eq_true, Bool.and_eq_true, decide_eq_true_eq]
  constructor
  · rintro ⟨sender, domain, list, accepted, host, ⟨-, long⟩, ip, port, gateway, rule⟩
    exact ⟨sender, domain, list, accepted, host, long, ip, port, gateway, rule⟩
  · rintro ⟨sender, domain, list, accepted, host, long, ip, port, gateway, rule⟩
    exact ⟨sender, domain, list, accepted, host, ⟨byteLength_pos host.plain.1, long⟩, ip, port, gateway, rule⟩

end Mailgw.Events
