import Mathlib.Algebra.Order.Ring.Rat
import Mathlib.Data.Rat.Cast.Order
import Mailgw.Lists.Table
import Mailgw.Queue.Names

namespace Mailgw.Ratelimit

open Lists Queue

/-- One configured limit. The window is in nanoseconds. -/
structure Rule where
  rate : Int := 0
  per : Int := 0
  burst : Int := 0
  deriving DecidableEq

def seconds (duration : Int) : ℚ := duration / 1000000000

namespace Rule

def enabled (r : Rule) : Bool := 0 < r.rate && 0 < r.per

def capacity (r : Rule) : ℚ := if 0 < r.burst then r.burst else r.rate

def refillPerSecond (r : Rule) : ℚ := r.rate / seconds r.per

end Rule

inductive Dimension where
  | connPerIP | msgPerSender | msgPerUser | rcptPerDomain | authFailPerIP
  deriving DecidableEq

structure Rules where
  connPerIP : Rule := {}
  msgPerSender : Rule := {}
  msgPerUser : Rule := {}
  rcptPerDomain : Rule := {}
  authFailPerIP : Rule := {}
  maxKeys : Int := 0

namespace Rules

def rule (r : Rules) : Dimension → Rule
  | .connPerIP => r.connPerIP
  | .msgPerSender => r.msgPerSender
  | .msgPerUser => r.msgPerUser
  | .rcptPerDomain => r.rcptPerDomain
  | .authFailPerIP => r.authFailPerIP

def defaultMaxKeys : Nat := 100000

def bound (r : Rules) : Nat := if 0 < r.maxKeys then r.maxKeys.toNat else defaultMaxKeys

end Rules

structure Key where
  dim : Dimension
  id : Name
  deriving DecidableEq

/-- What is left of the allowance of one key. Times are readings of the monotonic clock. -/
@[ext] structure Bucket where
  tokens : ℚ
  last : Int
  deriving DecidableEq

namespace Bucket

def accrued (b : Bucket) (r : Rule) (now : Int) : ℚ :=
  if 0 < now - b.last then b.tokens + seconds (now - b.last) * r.refillPerSecond else b.tokens

def refill (b : Bucket) (r : Rule) (now : Int) : Bucket where
  tokens := if r.capacity < b.accrued r now then r.capacity else b.accrued r now
  last := if 0 < now - b.last then now else b.last

end Bucket

structure Limiter where
  rules : Rules
  buckets : Table Key Bucket := .empty

namespace Limiter

def evict (l : Limiter) (now : Int) : Limiter :=
  { l with buckets := l.buckets.keep fun key b =>
    let rule := l.rules.rule key.dim
    rule.enabled && !decide (rule.capacity ≤ b.accrued rule now) }

def setRules (l : Limiter) (rules : Rules) (now : Int) : Limiter := ({ l with rules := rules } : Limiter).evict now

def full (l : Limiter) : Bool := l.rules.bound ≤ l.buckets.size

/-- Makes a bucket current, and spends a token of it if there is one and `spend` asks for that. -/
def draw (l : Limiter) (key : Key) (b : Bucket) (spend : Bool) (now : Int) : Limiter × Bool :=
  let b := b.refill (l.rules.rule key.dim) now
  if b.tokens < 1 then ({ l with buckets := l.buckets.set key b }, false)
  else
    let b := if spend then { b with tokens := b.tokens - 1 } else b
    ({ l with buckets := l.buckets.set key b }, true)

/-- The clock is read when the call begins, and again if buckets have to be evicted. -/
def take (l : Limiter) (key : Key) (spend : Bool) (now later : Int) : Limiter × Bool :=
  if key.id = [] then (l, true)
  else if !(l.rules.rule key.dim).enabled then (l, true)
  else
    match l.buckets.get key with
    | some b => l.draw key b spend now
    | none =>
      if !spend then (l, true)
      else
        let l := if l.full then l.evict later else l
        if l.full then (l, true)
        else l.draw key { tokens := (l.rules.rule key.dim).capacity, last := now } spend now

end Limiter

/-- `allow` asks and spends, `blocked` only asks, `spend` only spends. -/
inductive Request where
  | allow | blocked | spend
  deriving DecidableEq

structure Call where
  request : Request
  key : Key
  now : Int
  later : Int

namespace Limiter

def serve (l : Limiter) (c : Call) : Limiter × Option Bool :=
  match c.request with
  | .allow => ((l.take c.key true c.now c.later).1, some (l.take c.key true c.now c.later).2)
  | .blocked => ((l.take c.key false c.now c.later).1, some !(l.take c.key false c.now c.later).2)
  | .spend => ((l.take c.key true c.now c.later).1, none)

def after (l : Limiter) (calls : List Call) : Limiter := calls.foldl (fun l c => (l.serve c).1) l

def answers (l : Limiter) : List Call → List (Option Bool)
  | [] => []
  | c :: rest => (l.serve c).2 :: (l.serve c).1.answers rest

end Limiter

end Mailgw.Ratelimit
