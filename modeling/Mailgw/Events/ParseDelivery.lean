import Mailgw.Text.Pattern
import Mathlib.Algebra.GroupWithZero.Nat
import Mathlib.Data.List.Basic

namespace Mailgw.Events

open Text Text.Pattern

abbrev Chars := List Char

/-- The body of POST /api/delivery. A delay is in nanoseconds here. -/
structure Delivery where
  uuid : Chars
  dt : Int
  sender : Chars
  rcptDomain : Chars
  rcptList : Chars
  rcptAccepted : Chars
  tlsForced : Bool
  tls : Bool
  auth : Bool
  host : Chars
  ip : Chars
  port : Chars
  response : Chars
  delay : Int
  gateway : Chars
  routeRule : Chars
  deriving Repr, DecidableEq

/-- The part after the last `@`, or nothing when there is none. -/
def domainOf (addr : Chars) : Chars :=
  if '@' ∈ addr then (addr.reverse.takeWhile (· ≠ '@')).reverse else []

theorem domainOf_append {domain : Chars} (plain : '@' ∉ domain) (local_ : Chars) :
    domainOf (local_ ++ '@' :: domain) = domain := by
  have tail : ∀ c ∈ domain.reverse, decide (c ≠ '@') = true := by
    intro c member
    simp only [ne_eq, decide_eq_true_eq]
    rintro rfl
    exact plain (List.mem_reverse.mp member)
  simp only [domainOf, List.mem_append, List.mem_cons, true_or, or_true, ite_true, List.reverse_append,
    List.reverse_cons, List.append_assoc, List.singleton_append]
  rw [List.takeWhile_append_of_pos tail]
  simp

/-- A delivery event as the service decodes it: a field may be absent. -/
structure Parsed where
  uuid : Option Chars
  dt : Option Int
  sender : Option Chars
  rcptDomain : Option Chars
  rcptList : Option Chars
  rcptAccepted : Option Chars
  tlsForced : Option Bool
  tls : Option Bool
  auth : Option Bool
  host : Option Chars
  ip : Option Chars
  port : Option Chars
  response : Option Chars
  delay : Option Int
  gateway : Option Chars
  routeRule : Option Chars
  deriving Repr, DecidableEq

def omitEmpty (s : Chars) : Option Chars := if s = [] then none else some s

def Delivery.decoded (d : Delivery) : Parsed where
  uuid := some d.uuid
  dt := some d.dt
  sender := some d.sender
  rcptDomain := some d.rcptDomain
  rcptList := some d.rcptList
  rcptAccepted := some d.rcptAccepted
  tlsForced := some d.tlsForced
  tls := some d.tls
  auth := some d.auth
  host := some d.host
  ip := some d.ip
  port := some d.port
  response := some d.response
  delay := some d.delay
  gateway := omitEmpty d.gateway
  routeRule := omitEmpty d.routeRule

def isAlnum (c : Char) : Bool := c.isAlpha || c.isDigit

def isHex (c : Char) : Bool := c.isDigit || ('a' ≤ c && c ≤ 'f') || ('A' ≤ c && c ≤ 'F')

def isBlank (c : Char) : Bool := c == ' ' || c == '\t' || c == '\n' || c == '\x0c' || c == '\r'

def inRange (first last : Char) (c : Char) : Bool := first ≤ c && c ≤ last

def addressPart (c : Char) : Bool := isHex c || c == ':' || c == '.'

def labelPattern : Pattern :=
  .seq (.one isAlnum) (.optional (.seq (.many (.one fun c => isAlnum c || c == '-')) (.one isAlnum)))

def hostPattern : Pattern :=
  .alt (.seq (.optional (.char '[')) (.seq (.some (.one addressPart)) (.optional (.char ']'))))
    (.seq labelPattern (.many (.seq (.char '.') labelPattern)))

def octetPattern : Pattern :=
  .alt (.seq (.char '2') (.seq (.char '5') (.one (inRange '0' '5'))))
    (.alt (.seq (.char '2') (.seq (.one (inRange '0' '4')) (.one Char.isDigit)))
      (.seq (.optional (.one (inRange '0' '1'))) (.seq (.one Char.isDigit) (.optional (.one Char.isDigit)))))

def ipv4Pattern : Pattern :=
  let group : Pattern := .seq octetPattern (.char '.')
  .seq group (.seq group (.seq group octetPattern))

def shortNumber : Pattern :=
  .seq (.one Char.isDigit) (.seq (.optional (.one Char.isDigit)) (.optional (.one Char.isDigit)))

def ipv6Pattern : Pattern :=
  let group : Pattern := .seq shortNumber (.char '.')
  .seq (.some (.one fun c => isHex c || c == ':'))
    (.optional (.seq (.char ':') (.seq group (.seq group (.seq group shortNumber)))))

def portPattern : Pattern := .some (.one Char.isDigit)

def addressChar (c : Char) : Bool := !isBlank c && c != '@' && c != ','

def emailPattern : Pattern :=
  .seq (.some (.one addressChar)) (.seq (.char '@')
    (.seq (.some (.one addressChar)) (.seq (.optional (.char '.')) (.many (.one addressChar)))))

def validIP (v : Chars) : Bool :=
  v = [] || ipv4Pattern.isMatch v || (v.contains ':' && ipv6Pattern.isMatch v)

def byteLength (s : Chars) : Nat := (s.map Char.utf8Size).sum

structure Error where
  field : String
  reason : String
  deriving Repr, DecidableEq

def expect (p : Bool) (field reason : String) : Except Error Unit :=
  if p then .ok () else .error ⟨field, reason⟩

@[simp] theorem expect_bind_ok (p : Bool) (field reason : String) (next : Unit → Except Error Unit) :
    (expect p field reason >>= next) = .ok () ↔ p = true ∧ next () = .ok () := by
  cases p <;> simp [expect, Bind.bind, Except.bind]

@[simp] theorem expect_ok (p : Bool) (field reason : String) : expect p field reason = .ok () ↔ p = true := by
  cases p <;> simp [expect]

namespace Parsed

def validate (d : Parsed) : Except Error Unit := do
  expect d.uuid.isSome "uuid" "required"
  expect d.dt.isSome "dt" "required, epoch milliseconds"
  expect d.sender.isSome "sender" "required"
  expect (d.sender.any fun s => s = [] || emailPattern.isMatch s) "sender"
    "must be an email address or empty (the null sender)"
  expect (d.rcptDomain.any hostPattern.isMatch) "rcpt_domain" "must be a hostname or IP literal"
  expect (d.rcptList.any emailPattern.isMatch) "rcpt_list" "must be exactly one email address"
  expect (d.rcptAccepted.any emailPattern.isMatch) "rcpt_accepted" "must be exactly one email address"
  expect d.tlsForced.isSome "tls_forced" "required, must be a boolean"
  expect d.tls.isSome "tls" "required, must be a boolean"
  expect d.auth.isSome "auth" "required, must be a boolean"
  expect (d.host.any hostPattern.isMatch) "host" "must be a hostname or IP literal"
  expect (d.host.any fun s => 1 ≤ byteLength s && byteLength s ≤ 255) "host" "must be between 1 and 255 characters"
  expect d.ip.isSome "ip" "required, may be empty"
  expect (d.ip.any validIP) "ip" "must be an IPv4 or IPv6 address, or empty"
  expect (d.port.any portPattern.isMatch) "port" "must be a string of digits"
  expect d.response.isSome "response" "required"
  expect d.delay.isSome "delay" "required, seconds"
  expect (d.gateway.all fun s => byteLength s ≤ 64) "gateway" "must be at most 64 characters"
  expect (d.routeRule.all fun s => byteLength s ≤ 255) "route_rule" "must be at most 255 characters"

end Parsed

def parseDelivery (d : Parsed) : Except Error Parsed := do
  d.validate
  return d

end Mailgw.Events
